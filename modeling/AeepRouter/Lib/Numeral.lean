import Mathlib.Tactic
import Mathlib.Data.Nat.Digits.Lemmas
import Mathlib.Data.List.Lex

/-!
# Decimal numerals

A numeral is a list of digits, the most significant first. `value` is its number, `text` its
characters, and `pad w n` the numeral of `n` in `w` digits. Numerals of one length are ordered as
their numbers are, and so are their texts (`text_lt_iff`); texts that go on after parts of one
length are ordered by these first (`append_lt_append_iff`).
-/

namespace AeepRouter.Lib.Numeral

abbrev Digit := Fin 10

def digitChar (d : Digit) : Char := Char.ofNat (48 + d)

instance ten_neZero : NeZero 10 := ⟨by decide⟩

def toDigit (c : Char) : Digit := Fin.ofNat 10 (c.toNat - 48)

def text (digits : List Digit) : List Char := digits.map digitChar

def value (digits : List Digit) : ℕ := Nat.ofDigits 10 (digits.reverse.map Fin.val)

def textValue (cs : List Char) : ℕ := value (cs.map toDigit)

/-! ## Digits -/

@[simp] theorem toDigit_digitChar (d : Digit) : toDigit (digitChar d) = d := by
  revert d
  decide

@[simp] theorem isDigit_digitChar (d : Digit) : (digitChar d).isDigit := by
  revert d
  decide

theorem digitChar_lt_iff {d e : Digit} : digitChar d < digitChar e ↔ d < e := by
  revert d e
  decide

theorem digitChar_inj {d e : Digit} : digitChar d = digitChar e ↔ d = e :=
  ⟨fun h => by rw [← toDigit_digitChar d, h, toDigit_digitChar], congrArg digitChar⟩

@[simp] theorem digitChar_zero : digitChar 0 = '0' := rfl

theorem isDigit_of_mem_text {digits : List Digit} {c : Char} (h : c ∈ text digits) : c.isDigit := by
  obtain ⟨d, -, rfl⟩ := List.mem_map.mp h
  exact isDigit_digitChar d

@[simp] theorem text_length (digits : List Digit) : (text digits).length = digits.length :=
  List.length_map _

@[simp] theorem text_append (a b : List Digit) : text (a ++ b) = text a ++ text b :=
  List.map_append

theorem text_replicate_zero (k : ℕ) : text (List.replicate k 0) = List.replicate k '0' :=
  List.map_replicate

theorem text_injective : Function.Injective text :=
  List.map_injective_iff.mpr fun _ _ h => digitChar_inj.mp h

@[simp] theorem textValue_text (digits : List Digit) : textValue (text digits) = value digits := by
  unfold textValue text
  rw [List.map_map]
  congr 1
  exact (List.map_congr_left fun d _ => toDigit_digitChar d).trans (List.map_id _)

/-! ## Numbers -/

@[simp] theorem value_nil : value [] = 0 := rfl

theorem value_append (a b : List Digit) : value (a ++ b) = value a * 10 ^ b.length + value b := by
  unfold value
  rw [List.reverse_append, List.map_append, Nat.ofDigits_append, List.length_map,
    List.length_reverse]
  ring

@[simp] theorem value_singleton (d : Digit) : value [d] = d := by
  simp [value]

theorem value_cons (d : Digit) (digits : List Digit) :
    value (d :: digits) = d * 10 ^ digits.length + value digits := by
  rw [← List.singleton_append, value_append, value_singleton]

theorem value_concat (digits : List Digit) (d : Digit) :
    value (digits ++ [d]) = value digits * 10 + d := by
  rw [value_append, value_singleton, List.length_singleton, pow_one]

@[simp] theorem value_replicate_zero (k : ℕ) : value (List.replicate k 0) = 0 := by
  unfold value
  rw [List.reverse_replicate, List.map_replicate]
  exact Nat.ofDigits_replicate_zero

theorem value_append_zeros (digits : List Digit) (k : ℕ) :
    value (digits ++ List.replicate k 0) = value digits * 10 ^ k := by
  rw [value_append, value_replicate_zero, List.length_replicate, add_zero]

theorem value_zeros_append (k : ℕ) (digits : List Digit) :
    value (List.replicate k 0 ++ digits) = value digits := by
  rw [value_append, value_replicate_zero, zero_mul, zero_add]

theorem value_lt (digits : List Digit) : value digits < 10 ^ digits.length := by
  unfold value
  refine (Nat.ofDigits_lt_base_pow_length (by norm_num) fun x hx => ?_).trans_eq (by simp)
  obtain ⟨d, -, rfl⟩ := List.mem_map.mp hx
  exact d.isLt

/-- Numerals that begin with no zero are told apart by their numbers. -/
theorem value_injective {a b : List Digit} (ha : a.head? ≠ some 0) (hb : b.head? ≠ some 0)
    (h : value a = value b) : a = b := by
  have hdigits : ∀ l : List Digit, l.head? ≠ some 0 →
      Nat.digits 10 (value l) = l.reverse.map Fin.val := by
    intro l hl
    refine Nat.digits_ofDigits 10 (by norm_num) _ (fun x hx => ?_) fun hne => ?_
    · obtain ⟨d, -, rfl⟩ := List.mem_map.mp hx
      exact d.isLt
    · rw [List.getLast_map]
      intro hzero
      apply hl
      rw [← List.getLast?_reverse, List.getLast?_eq_some_getLast (by simpa using hne)]
      exact congrArg some (Fin.val_injective hzero)
  have hmap := (hdigits a ha).symm.trans ((congrArg (Nat.digits 10) h).trans (hdigits b hb))
  exact List.reverse_injective ((List.map_injective_iff.mpr Fin.val_injective) hmap)

/-- A numeral that ends in no zero is no multiple of ten. -/
theorem not_ten_dvd_value {digits : List Digit} (hne : digits ≠ []) (h : digits.getLast? ≠ some 0) :
    ¬ 10 ∣ value digits := by
  obtain ⟨front, d, rfl⟩ := (List.eq_nil_or_concat' digits).resolve_left hne
  rw [List.getLast?_concat] at h
  rw [value_concat]
  intro hdvd
  have hd : (d : ℕ) ≠ 0 := fun hzero => h (congrArg some (Fin.val_injective hzero))
  have := d.isLt
  omega

/-! ## Order -/

/-- Parts of one length decide first. -/
theorem append_lt_append_iff {α : Type} [LinearOrder α] {a b x y : List α}
    (h : a.length = b.length) : a ++ x < b ++ y ↔ a < b ∨ a = b ∧ x < y := by
  induction a generalizing b with
  | nil =>
    obtain rfl := List.length_eq_zero_iff.mp h.symm
    simp
  | cons c a ih =>
    cases b with
    | nil => cases h
    | cons d b =>
      rw [List.cons_append, List.cons_append, List.cons_lt_cons_iff, List.cons_lt_cons_iff,
        ih (Nat.succ.inj h), List.cons.injEq]
      tauto

theorem text_lt_iff {a b : List Digit} (h : a.length = b.length) :
    text a < text b ↔ value a < value b := by
  induction a generalizing b with
  | nil =>
    obtain rfl := List.length_eq_zero_iff.mp h.symm
    simp [text]
  | cons c a ih =>
    cases b with
    | nil => cases h
    | cons d b =>
      have hlen : a.length = b.length := Nat.succ.inj h
      have ha := value_lt a
      have hb := value_lt b
      rw [hlen] at ha
      change digitChar c :: text a < digitChar d :: text b ↔ _
      rw [List.cons_lt_cons_iff, digitChar_lt_iff, digitChar_inj, ih hlen, value_cons, value_cons,
        hlen, Fin.lt_def, Fin.ext_iff]
      generalize 10 ^ b.length = p at *
      constructor
      · rintro (hlt | ⟨heq, hlt⟩)
        · have : ((c : ℕ) + 1) * p ≤ d * p := Nat.mul_le_mul_right p hlt
          linarith
        · rw [heq]
          exact Nat.add_lt_add_left hlt _
      · intro hlt
        rcases lt_trichotomy (c : ℕ) d with hcd | hcd | hcd
        · exact .inl hcd
        · rw [hcd] at hlt
          exact .inr ⟨hcd, Nat.lt_of_add_lt_add_left hlt⟩
        · have : ((d : ℕ) + 1) * p ≤ c * p := Nat.mul_le_mul_right p hcd
          linarith

/-! ## Numerals of a fixed width -/

def pad : ℕ → ℕ → List Digit
  | 0, _ => []
  | w + 1, n => pad w (n / 10) ++ [Fin.ofNat 10 n]

@[simp] theorem pad_length (w n : ℕ) : (pad w n).length = w := by
  induction w generalizing n with
  | zero => rfl
  | succ w ih => rw [pad, List.length_append, ih, List.length_singleton]

theorem value_pad {w n : ℕ} (h : n < 10 ^ w) : value (pad w n) = n := by
  induction w generalizing n with
  | zero =>
    rw [pow_zero, Nat.lt_one_iff] at h
    rw [h]
    rfl
  | succ w ih =>
    rw [pow_succ] at h
    rw [pad, value_concat, ih (Nat.div_lt_of_lt_mul (by omega)), Fin.val_ofNat]
    omega

theorem text_pad_lt_iff {w m n : ℕ} (hm : m < 10 ^ w) (hn : n < 10 ^ w) :
    text (pad w m) < text (pad w n) ↔ m < n := by
  rw [text_lt_iff (by simp), value_pad hm, value_pad hn]

theorem text_pad_inj {w m n : ℕ} (hm : m < 10 ^ w) (hn : n < 10 ^ w) :
    text (pad w m) = text (pad w n) ↔ m = n := by
  refine ⟨fun h => ?_, fun h => by rw [h]⟩
  rw [← value_pad hm, ← value_pad hn, text_injective h]

/-! ## The digits of the standard library -/

theorem toDigit_natDigitChar {d : ℕ} (h : d < 10) : (toDigit (Nat.digitChar d) : ℕ) = d := by
  revert d
  decide

theorem textValue_toDigits (n : ℕ) : textValue (Nat.toDigits 10 n) = n := by
  induction n using Nat.strong_induction_on with
  | _ n ih =>
    by_cases hsmall : n < 10
    · rw [Nat.toDigits_of_lt_base hsmall, textValue, List.map_singleton, value_singleton,
        toDigit_natDigitChar hsmall]
    · have hlt : n / 10 < n := by omega
      have hmod : n % 10 < 10 := by omega
      rw [Nat.toDigits_of_base_le (by decide) (by omega), textValue, List.map_append,
        List.map_singleton, value_concat, toDigit_natDigitChar hmod]
      have hrest := ih (n / 10) hlt
      unfold textValue at hrest
      rw [hrest]
      omega

end AeepRouter.Lib.Numeral

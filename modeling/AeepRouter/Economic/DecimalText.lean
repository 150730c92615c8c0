import AeepRouter.Base
import AeepRouter.Lib.Numeral
import Mathlib.Data.List.TakeWhile

/-!
# Decimals as canonical text

`_decimal_text` writes a decimal without an exponent: it drops the zeros at the end of the digits
and places the point by hand. What it works on is the tuple of a decimal, in which one value has
many forms; `ofTuple` is the constructor, `parse` what `Decimal` makes of a text.
-/

namespace AeepRouter

open Lib Numeral

/-- A finite `Decimal`, as `as_tuple` gives it. -/
structure FiniteDecimal where
  sign : Bool
  digits : List Digit
  exponent : ℤ
  normal : digits = [0] ∨ digits ≠ [] ∧ digits.head? ≠ some 0

namespace FiniteDecimal

/-- The digits `Decimal` keeps of a tuple. -/
def normalize (digits : List Digit) : List Digit :=
  if digits.dropWhile (· = 0) = [] then [0] else digits.dropWhile (· = 0)

theorem normalize_normal (digits : List Digit) :
    normalize digits = [0] ∨ normalize digits ≠ [] ∧ (normalize digits).head? ≠ some 0 := by
  unfold normalize
  split
  · exact .inl rfl
  · next hne =>
    refine .inr ⟨hne, fun hhead => ?_⟩
    have := List.head?_dropWhile_not (· = 0) digits
    rw [hhead] at this
    simp at this

def ofTuple (sign : Bool) (digits : List Digit) (exponent : ℤ) : FiniteDecimal :=
  ⟨sign, normalize digits, exponent, normalize_normal digits⟩

variable (d : FiniteDecimal)

/-- The number a sign, digits and an exponent stand for. -/
def valueOf (sign : Bool) (digits : List Digit) (exponent : ℤ) : ℚ :=
  (if sign then -1 else 1) * Numeral.value digits * 10 ^ exponent

def value : ℚ := valueOf d.sign d.digits d.exponent

abbrev isZero : Prop := d.digits = [0]

/-- The loop that drops zeros from the end of the digits, here reversed. -/
def popZeros : List Digit → ℤ → List Digit × ℤ
  | [], exponent => ([], exponent)
  | digit :: rest, exponent =>
    if digit = 0 then popZeros rest (exponent + 1) else (digit :: rest, exponent)

/-- The digits and the exponent after the loop. -/
def stripped : List Digit × ℤ :=
  let (reversed, exponent) := popZeros d.digits.reverse d.exponent
  (reversed.reverse, exponent)

def positional (digits : List Digit) (exponent : ℤ) : List Char :=
  let coefficient := text digits
  if 0 ≤ exponent then coefficient ++ List.replicate exponent.toNat '0'
  else
    let point := coefficient.length + exponent
    if 0 < point then coefficient.take point.toNat ++ '.' :: coefficient.drop point.toNat
    else '0' :: '.' :: (List.replicate (-point).toNat '0' ++ coefficient)

end FiniteDecimal

inductive PyDecimal where
  | finite (d : FiniteDecimal)
  | nonFinite

def decimalText : PyDecimal → Result String
  | .nonFinite => .error (.value "canonical economic JSON rejects non-finite decimals")
  | .finite d =>
    if d.isZero then
      if d.sign then .error (.value "canonical economic JSON rejects negative zero") else .ok "0"
    else
      let result := FiniteDecimal.positional d.stripped.1 d.stripped.2
      .ok (String.ofList (if d.sign then '-' :: result else result))

/-! ## Reading -/

/-- The digits of an exponent, with its sign. -/
def parseInteger (cs : List Char) : Option ℤ :=
  let unsigned (cs : List Char) : Option ℤ :=
    if cs ≠ [] ∧ cs.all (·.isDigit) then some (textValue cs) else none
  match cs with
  | '-' :: rest => (unsigned rest).map (- ·)
  | '+' :: rest => unsigned rest
  | cs => unsigned cs

/-- The exponent of a numeral, none being zero. -/
def parseExponent : List Char → Option ℤ
  | [] => some 0
  | c :: rest => if c = 'e' ∨ c = 'E' then parseInteger rest else none

/-- The digits after a point, if there is one, and what follows. -/
def fractionOf : List Char → List Char × List Char
  | '.' :: tail => (tail.takeWhile (·.isDigit), tail.dropWhile (·.isDigit))
  | rest => ([], rest)

/-- A numeral without a sign: digits with at most one point, and an exponent. -/
def parseUnsigned (cs : List Char) : Option ℚ :=
  let whole := cs.takeWhile (·.isDigit)
  let (fraction, rest) := fractionOf (cs.dropWhile (·.isDigit))
  if whole ++ fraction = [] then none
  else (parseExponent rest).map fun exponent : ℤ =>
    textValue (whole ++ fraction) * 10 ^ (exponent - fraction.length)

/-- The number `Decimal(text)` reads, if the text is a finite one. -/
def parseDecimal (text : String) : Option ℚ :=
  match text.toList with
  | '-' :: rest => (parseUnsigned rest).map (- ·)
  | '+' :: rest => parseUnsigned rest
  | cs => parseUnsigned cs

/-! ## Form -/

/-- Digits without leading zeros, unless it is one zero, and perhaps a point and digits that end in
no zero. -/
def PlainNumeral (cs : List Char) : Prop :=
  ∃ whole fraction : List Char, whole ≠ [] ∧ whole.all (·.isDigit) ∧ fraction.all (·.isDigit) ∧
    (whole = ['0'] ∨ whole.head? ≠ some '0') ∧
    (cs = whole ∨ fraction ≠ [] ∧ fraction.getLast? ≠ some '0' ∧ cs = whole ++ '.' :: fraction)

/-- A plain numeral with a sign where it is negative; zero has none. -/
def CanonicalNumeral (text : String) : Prop :=
  PlainNumeral text.toList ∨ ∃ cs, PlainNumeral cs ∧ cs ≠ ['0'] ∧ text.toList = '-' :: cs

/-! ## The digits that stay -/

namespace FiniteDecimal

theorem popZeros_spec (reversed : List Digit) (exponent : ℤ) :
    ∃ k : ℕ, reversed = List.replicate k 0 ++ (popZeros reversed exponent).1 ∧
      (popZeros reversed exponent).2 = exponent + k ∧
      (popZeros reversed exponent).1.head? ≠ some 0 := by
  induction reversed generalizing exponent with
  | nil => exact ⟨0, rfl, (add_zero _).symm, by simp [popZeros]⟩
  | cons digit rest ih =>
    unfold popZeros
    split
    · next hzero =>
      obtain ⟨k, hrest, hexponent, hhead⟩ := ih (exponent + 1)
      refine ⟨k + 1, ?_, ?_, hhead⟩
      · rw [hzero, List.replicate_succ, List.cons_append, ← hrest]
      · rw [hexponent]
        push_cast
        ring
    · next hzero =>
      exact ⟨0, rfl, (add_zero _).symm, fun h => hzero (Option.some.inj h)⟩

theorem stripped_spec {d : FiniteDecimal} (h : ¬ d.isZero) :
    (∃ k : ℕ, d.digits = d.stripped.1 ++ List.replicate k 0 ∧ d.stripped.2 = d.exponent + k) ∧
      d.stripped.1 ≠ [] ∧ d.stripped.1.head? ≠ some 0 ∧ d.stripped.1.getLast? ≠ some 0 := by
  obtain ⟨hne, hhead⟩ := d.normal.resolve_left h
  obtain ⟨k, hdigits, hexponent, hlast⟩ := popZeros_spec d.digits.reverse d.exponent
  have hsplit : d.digits = d.stripped.1 ++ List.replicate k 0 := by
    rw [← List.reverse_inj, hdigits, List.reverse_append, List.reverse_replicate]
    exact congrArg (_ ++ ·) (List.reverse_reverse _).symm
  have hkept : d.stripped.1 ≠ [] := by
    intro hnil
    rw [hnil, List.nil_append] at hsplit
    cases k with
    | zero => exact hne hsplit
    | succ k => exact hhead (by rw [hsplit]; rfl)
  refine ⟨⟨k, hsplit, hexponent⟩, hkept, fun hzero => hhead ?_, fun hzero => hlast ?_⟩
  · rw [hsplit, List.head?_append_of_ne_nil _ hkept, hzero]
  · rw [← List.getLast?_reverse]
    exact hzero

theorem value_stripped {d : FiniteDecimal} (h : ¬ d.isZero) :
    d.value = valueOf d.sign d.stripped.1 d.stripped.2 := by
  obtain ⟨⟨k, hdigits, hexponent⟩, -⟩ := stripped_spec h
  unfold value valueOf
  rw [hdigits, hexponent, value_append_zeros, zpow_add₀ (by norm_num), zpow_natCast]
  push_cast
  ring

/-- Digits that are multiples of no ten and their exponents are those of their value. -/
theorem scaled_inj {m n : ℕ} {e f : ℤ} (hm : ¬ 10 ∣ m) (hn : ¬ 10 ∣ n)
    (h : (m : ℚ) * 10 ^ e = n * 10 ^ f) : m = n ∧ e = f := by
  wlog hle : e ≤ f generalizing m n e f
  · obtain ⟨hmn, hef⟩ := this hn hm h.symm (le_of_not_ge hle)
    exact ⟨hmn.symm, hef.symm⟩
  obtain ⟨k, rfl⟩ := Int.le.dest hle
  have hmul : m = n * 10 ^ k := by
    have hpos : (0 : ℚ) < 10 ^ e := by positivity
    rw [zpow_add₀ (by norm_num), zpow_natCast, ← mul_assoc, mul_right_comm] at h
    exact_mod_cast mul_right_cancel₀ hpos.ne' h
  cases k with
  | zero => exact ⟨by simpa using hmul, by simp⟩
  | succ k => exact absurd (hmul ▸ dvd_mul_of_dvd_right (dvd_pow_self 10 k.succ_ne_zero) n) hm

/-- Two decimals of one value keep the same sign, digits and exponent. -/
theorem stripped_unique {a b : FiniteDecimal} (ha : ¬ a.isZero) (hb : ¬ b.isZero)
    (h : a.value = b.value) : a.sign = b.sign ∧ a.stripped = b.stripped := by
  obtain ⟨-, hane, hahead, halast⟩ := stripped_spec ha
  obtain ⟨-, hbne, hbhead, hblast⟩ := stripped_spec hb
  rw [value_stripped ha, value_stripped hb] at h
  have hnota := not_ten_dvd_value hane halast
  have hnotb := not_ten_dvd_value hbne hblast
  have hpos : ∀ {m : ℕ} {e : ℤ}, ¬ 10 ∣ m → (0 : ℚ) < m * 10 ^ e := fun {m e} hm => by
    have : 0 < m := Nat.pos_of_ne_zero fun hzero => hm (hzero ▸ dvd_zero 10)
    positivity
  have haval := hpos (e := a.stripped.2) hnota
  have hbval := hpos (e := b.stripped.2) hnotb
  have hsign : a.sign = b.sign := by
    unfold valueOf at h
    cases hsa : a.sign <;> cases hsb : b.sign <;> simp only [hsa, hsb] at h ⊢
    · exfalso
      simp only [Bool.false_eq_true, if_false, if_true, one_mul, neg_mul] at h
      linarith
    · exfalso
      simp only [Bool.false_eq_true, if_false, if_true, one_mul, neg_mul] at h
      linarith
  have habs : (Numeral.value a.stripped.1 : ℚ) * 10 ^ a.stripped.2 =
      Numeral.value b.stripped.1 * 10 ^ b.stripped.2 := by
    unfold valueOf at h
    rw [hsign] at h
    cases hsb : b.sign <;> simpa [hsb] using h
  obtain ⟨hdigits, hexponent⟩ := scaled_inj hnota hnotb habs
  exact ⟨hsign, Prod.ext (value_injective hahead hbhead hdigits) hexponent⟩

/-! ## The point -/

/-- The digits alone, or with a point; the number is theirs. -/
theorem positional_cases {digits : List Digit} (exponent : ℤ) (hne : digits ≠ [])
    (hhead : digits.head? ≠ some 0) (hlast : digits.getLast? ≠ some 0) :
    (∃ whole, positional digits exponent = text whole ∧ whole ≠ [] ∧ whole.head? ≠ some 0 ∧
      (Numeral.value whole : ℚ) = Numeral.value digits * 10 ^ exponent) ∨
    ∃ whole fraction, positional digits exponent = text whole ++ '.' :: text fraction ∧
      whole ≠ [] ∧ (whole = [0] ∨ whole.head? ≠ some 0) ∧ fraction ≠ [] ∧
      fraction.getLast? ≠ some 0 ∧
      (Numeral.value (whole ++ fraction) : ℚ) * 10 ^ (-(fraction.length : ℤ)) =
        Numeral.value digits * 10 ^ exponent := by
  unfold positional
  dsimp only
  rw [text_length]
  have hlen : 0 < digits.length := List.length_pos_iff.mpr hne
  by_cases hexponent : 0 ≤ exponent
  · left
    obtain ⟨k, rfl⟩ := Int.eq_ofNat_of_zero_le hexponent
    rw [if_pos hexponent]
    refine ⟨digits ++ List.replicate k 0, ?_, by simp [hne], ?_, ?_⟩
    · rw [text_append, text_replicate_zero]
      rfl
    · rwa [List.head?_append_of_ne_nil _ hne]
    · rw [value_append_zeros, zpow_natCast]
      push_cast
      rfl
  · right
    rw [if_neg hexponent]
    by_cases hpoint : 0 < (digits.length : ℤ) + exponent
    · rw [if_pos hpoint]
      obtain ⟨p, hp⟩ := Int.eq_ofNat_of_zero_le hpoint.le
      rw [hp, Int.toNat_natCast]
      have hfront : digits.take p ≠ [] := by
        simp only [ne_eq, List.take_eq_nil_iff, not_or]
        exact ⟨by omega, hne⟩
      have hback : digits.drop p ≠ [] := by
        simp only [ne_eq, List.drop_eq_nil_iff]
        omega
      refine ⟨digits.take p, digits.drop p, ?_, hfront, .inr ?_, hback, ?_, ?_⟩
      · unfold text
        rw [List.map_take, List.map_drop]
      · intro hzero
        apply hhead
        rw [← List.take_append_drop p digits, List.head?_append_of_ne_nil _ hfront, hzero]
      · intro hzero
        apply hlast
        rw [← List.take_append_drop p digits, List.getLast?_append_of_ne_nil _ hback, hzero]
      · rw [List.take_append_drop]
        congr 2
        rw [List.length_drop]
        omega
    · rw [if_neg hpoint]
      obtain ⟨k, hk⟩ : ∃ k : ℕ, -((digits.length : ℤ) + exponent) = k :=
        Int.eq_ofNat_of_zero_le (by omega)
      rw [hk, Int.toNat_natCast]
      refine ⟨[0], List.replicate k 0 ++ digits, ?_, List.cons_ne_nil _ _, .inl rfl, by simp [hne],
        ?_, ?_⟩
      · rw [text_append, text_replicate_zero]
        rfl
      · rwa [List.getLast?_append_of_ne_nil _ hne]
      · rw [List.singleton_append, ← List.cons_append, ← List.replicate_succ, value_zeros_append]
        congr 2
        rw [List.length_append, List.length_replicate]
        push_cast
        omega

theorem positional_plain {digits : List Digit} (exponent : ℤ) (hne : digits ≠ [])
    (hhead : digits.head? ≠ some 0) (hlast : digits.getLast? ≠ some 0) :
    PlainNumeral (positional digits exponent) ∧ positional digits exponent ≠ ['0'] := by
  have hall (l : List Digit) : (text l).all (·.isDigit) :=
    List.all_eq_true.mpr fun c hc => isDigit_of_mem_text hc
  have htext {l : List Digit} (hl : l ≠ []) : text l ≠ [] := fun h => hl (List.map_eq_nil_iff.mp h)
  have hfirst {l : List Digit} (hl : l.head? ≠ some 0) : (text l).head? ≠ some '0' := by
    intro h
    rw [text, List.head?_map, Option.map_eq_some_iff] at h
    obtain ⟨d, hd, hzero⟩ := h
    exact hl (hd.trans (congrArg some (digitChar_inj.mp hzero)))
  have hend {l : List Digit} (hl : l.getLast? ≠ some 0) : (text l).getLast? ≠ some '0' := by
    intro h
    rw [text, List.getLast?_map, Option.map_eq_some_iff] at h
    obtain ⟨d, hd, hzero⟩ := h
    exact hl (hd.trans (congrArg some (digitChar_inj.mp hzero)))
  obtain ⟨whole, heq, hwhole, hnozero, -⟩ | ⟨whole, fraction, heq, hwhole, hlead, hfraction, hzero,
    -⟩ := positional_cases exponent hne hhead hlast
  · rw [heq]
    refine ⟨⟨text whole, [], htext hwhole, hall whole, rfl, .inr (hfirst hnozero), .inl rfl⟩, ?_⟩
    intro hone
    exact hfirst hnozero (by rw [hone]; rfl)
  · rw [heq]
    refine ⟨⟨text whole, text fraction, htext hwhole, hall whole, hall fraction, ?_,
      .inr ⟨htext hfraction, hend hzero, rfl⟩⟩, fun hone => ?_⟩
    · rcases hlead with rfl | hlead
      · exact .inl rfl
      · exact .inr (hfirst hlead)
    · have hlength := congrArg List.length hone
      have := List.length_pos_iff.mpr (htext hwhole)
      simp only [List.length_append, List.length_cons, List.length_nil] at hlength
      omega

end FiniteDecimal

/-! ## Reading what was written -/

theorem parseUnsigned_whole {whole : List Digit} (h : whole ≠ []) :
    parseUnsigned (text whole) = some (Numeral.value whole : ℚ) := by
  have hdigits : ∀ c ∈ text whole, c.isDigit = true := fun c hc => isDigit_of_mem_text hc
  have htake : (text whole).takeWhile (·.isDigit) = text whole :=
    List.takeWhile_eq_self_iff.mpr hdigits
  have hdrop : (text whole).dropWhile (·.isDigit) = [] := List.dropWhile_eq_nil_iff.mpr hdigits
  have hne : text whole ≠ [] := fun hnil => h (List.map_eq_nil_iff.mp hnil)
  unfold parseUnsigned
  simp only [htake, hdrop, fractionOf, List.append_nil, if_neg hne, parseExponent, Option.map_some,
    textValue_text, List.length_nil, Nat.cast_zero, sub_zero, zpow_zero, mul_one]

theorem parseUnsigned_point {whole fraction : List Digit} (h : whole ≠ []) :
    parseUnsigned (text whole ++ '.' :: text fraction) =
      some ((Numeral.value (whole ++ fraction) : ℚ) * 10 ^ (-(fraction.length : ℤ))) := by
  have hwhole : ∀ c ∈ text whole, c.isDigit = true := fun c hc => isDigit_of_mem_text hc
  have hfraction : ∀ c ∈ text fraction, c.isDigit = true := fun c hc => isDigit_of_mem_text hc
  have hpoint : ('.' : Char).isDigit = false := by decide
  have htake : (text whole ++ '.' :: text fraction).takeWhile (·.isDigit) = text whole := by
    rw [List.takeWhile_append_of_pos hwhole, List.takeWhile_cons, hpoint]
    simp
  have hdrop : (text whole ++ '.' :: text fraction).dropWhile (·.isDigit) = '.' :: text fraction := by
    rw [List.dropWhile_append_of_pos hwhole, List.dropWhile_cons, hpoint]
    simp
  have hrest : fractionOf ('.' :: text fraction) = (text fraction, []) :=
    Prod.ext (List.takeWhile_eq_self_iff.mpr hfraction) (List.dropWhile_eq_nil_iff.mpr hfraction)
  have hne : text (whole ++ fraction) ≠ [] := fun hnil =>
    h (List.append_eq_nil_iff.mp (List.map_eq_nil_iff.mp hnil)).1
  unfold parseUnsigned
  simp only [htake, hdrop, hrest, ← text_append, if_neg hne, parseExponent, Option.map_some,
    textValue_text, text_length, zero_sub]

theorem parseUnsigned_positional {digits : List Digit} (exponent : ℤ) (hne : digits ≠ [])
    (hhead : digits.head? ≠ some 0) (hlast : digits.getLast? ≠ some 0) :
    parseUnsigned (FiniteDecimal.positional digits exponent) =
      some ((Numeral.value digits : ℚ) * 10 ^ exponent) := by
  obtain ⟨whole, heq, hwhole, -, hvalue⟩ | ⟨whole, fraction, heq, hwhole, -, -, -, hvalue⟩ :=
    FiniteDecimal.positional_cases exponent hne hhead hlast
  · rw [heq, parseUnsigned_whole hwhole, hvalue]
  · rw [heq, parseUnsigned_point hwhole, hvalue]

theorem PlainNumeral.head {cs : List Char} (h : PlainNumeral cs) :
    ∃ c rest, cs = c :: rest ∧ c.isDigit := by
  obtain ⟨whole, fraction, hne, hdigits, -, -, hcs⟩ := h
  obtain ⟨c, rest, rfl⟩ := List.exists_cons_of_ne_nil hne
  have hc : c.isDigit := List.all_eq_true.mp hdigits c List.mem_cons_self
  rcases hcs with rfl | ⟨-, -, rfl⟩
  · exact ⟨c, rest, rfl, hc⟩
  · exact ⟨c, _, rfl, hc⟩

theorem parseDecimal_plain {cs : List Char} (h : PlainNumeral cs) :
    parseDecimal (String.ofList cs) = parseUnsigned cs := by
  obtain ⟨c, rest, rfl, hc⟩ := h.head
  unfold parseDecimal
  rw [String.toList_ofList]
  split
  · next heq =>
    obtain ⟨rfl, -⟩ := List.cons.inj heq
    exact absurd hc (by decide)
  · next heq =>
    obtain ⟨rfl, -⟩ := List.cons.inj heq
    exact absurd hc (by decide)
  · rfl

theorem parseDecimal_negative (cs : List Char) :
    parseDecimal (String.ofList ('-' :: cs)) = (parseUnsigned cs).map (- ·) := by
  unfold parseDecimal
  rw [String.toList_ofList]
  rfl

/-! ## One text for one value -/

def FiniteDecimal.negativeZero (d : FiniteDecimal) : Prop := d.isZero ∧ d.sign = true

instance (d : FiniteDecimal) : Decidable d.negativeZero :=
  inferInstanceAs (Decidable (_ ∧ _))

theorem FiniteDecimal.value_eq_zero {d : FiniteDecimal} : d.value = 0 ↔ d.isZero := by
  constructor
  · intro h
    by_contra hzero
    obtain ⟨-, hne, -, hlast⟩ := stripped_spec hzero
    have hpos : Numeral.value d.stripped.1 ≠ 0 := fun h0 =>
      not_ten_dvd_value hne hlast (h0 ▸ dvd_zero 10)
    rw [value_stripped hzero, valueOf] at h
    have hsign : (if d.sign then (-1 : ℚ) else 1) ≠ 0 := by split <;> norm_num
    have hscale : (10 : ℚ) ^ d.stripped.2 ≠ 0 := by positivity
    exact mul_ne_zero (mul_ne_zero hsign (Nat.cast_ne_zero.mpr hpos)) hscale h
  · intro h
    rw [value, valueOf, h]
    simp

theorem decimalText_of_zero {d : FiniteDecimal} (h : ¬ d.negativeZero) (hzero : d.isZero) :
    decimalText (.finite d) = .ok "0" :=
  (if_pos hzero).trans (if_neg fun hsign => h ⟨hzero, hsign⟩)

theorem decimalText_of_nonzero {d : FiniteDecimal} (h : ¬ d.isZero) :
    decimalText (.finite d) = .ok (String.ofList
      (if d.sign then '-' :: FiniteDecimal.positional d.stripped.1 d.stripped.2
        else FiniteDecimal.positional d.stripped.1 d.stripped.2)) :=
  if_neg h

theorem decimalText_spec {d : FiniteDecimal} (h : ¬ d.negativeZero) :
    ∃ text, decimalText (.finite d) = .ok text ∧ parseDecimal text = some d.value ∧
      CanonicalNumeral text := by
  by_cases hzero : d.isZero
  · refine ⟨"0", decimalText_of_zero h hzero, ?_,
      .inl ⟨['0'], [], by decide, by decide, by decide, .inl rfl, .inl rfl⟩⟩
    rw [FiniteDecimal.value_eq_zero.mpr hzero]
    decide +kernel
  · obtain ⟨-, hne, hhead, hlast⟩ := FiniteDecimal.stripped_spec hzero
    obtain ⟨hplain, hnonzero⟩ := FiniteDecimal.positional_plain d.stripped.2 hne hhead hlast
    have hread := parseUnsigned_positional d.stripped.2 hne hhead hlast
    rw [FiniteDecimal.value_stripped hzero, decimalText_of_nonzero hzero]
    unfold FiniteDecimal.valueOf
    cases hsign : d.sign with
    | false =>
      refine ⟨_, rfl, ?_, .inl ?_⟩
      · simp only [Bool.false_eq_true, if_false, one_mul]
        rw [parseDecimal_plain hplain, hread]
      · simp only [Bool.false_eq_true, if_false, String.toList_ofList]
        exact hplain
    | true =>
      refine ⟨_, rfl, ?_, .inr ⟨_, hplain, hnonzero, ?_⟩⟩
      · simp only [if_true, neg_mul, one_mul]
        rw [parseDecimal_negative, hread]
        rfl
      · simp only [if_true, String.toList_ofList]

theorem decimalText_congr {a b : FiniteDecimal} (ha : ¬ a.negativeZero) (hb : ¬ b.negativeZero)
    (h : a.value = b.value) : decimalText (.finite a) = decimalText (.finite b) := by
  by_cases hzero : a.isZero
  · have hzero' : b.isZero := FiniteDecimal.value_eq_zero.mp
      (h ▸ FiniteDecimal.value_eq_zero.mpr hzero)
    rw [decimalText_of_zero ha hzero, decimalText_of_zero hb hzero']
  · have hzero' : ¬ b.isZero := fun hb => hzero (FiniteDecimal.value_eq_zero.mp
      (h ▸ FiniteDecimal.value_eq_zero.mpr hb))
    obtain ⟨hsign, hstripped⟩ := FiniteDecimal.stripped_unique hzero hzero' h
    rw [decimalText_of_nonzero hzero, decimalText_of_nonzero hzero', hsign, hstripped]

theorem FiniteDecimal.value_ofTuple (sign : Bool) (digits : List Digit) (exponent : ℤ) :
    (ofTuple sign digits exponent).value = valueOf sign digits exponent := by
  have hvalue : Numeral.value (normalize digits) = Numeral.value digits := by
    obtain ⟨k, hk⟩ : ∃ k, digits = List.replicate k 0 ++ digits.dropWhile (· = 0) := by
      refine ⟨(digits.takeWhile (· = 0)).length, ?_⟩
      conv_lhs => rw [← List.takeWhile_append_dropWhile (p := (· = 0)) (l := digits)]
      congr 1
      refine List.eq_replicate_of_mem fun d hd => ?_
      simpa using List.mem_takeWhile_imp hd
    unfold normalize
    split
    · next hnil =>
      rw [hnil, List.append_nil] at hk
      rw [hk, value_replicate_zero]
      rfl
    · conv_rhs => rw [hk]
      rw [value_zeros_append]
  unfold value ofTuple valueOf
  rw [hvalue]

/-- Decimals that are no negative zeros have one text exactly when they have one value; the text is
canonical and reads as the value. -/
theorem decimalText_canonical (sign sign' : Bool) (digits digits' : List Digit)
    (exponent exponent' : ℤ)
    (h : ¬ (FiniteDecimal.ofTuple sign digits exponent).negativeZero)
    (h' : ¬ (FiniteDecimal.ofTuple sign' digits' exponent').negativeZero) :
    (decimalText (.finite (.ofTuple sign digits exponent)) =
        decimalText (.finite (.ofTuple sign' digits' exponent')) ↔
      FiniteDecimal.valueOf sign digits exponent = FiniteDecimal.valueOf sign' digits' exponent') ∧
      ∃ text, decimalText (.finite (.ofTuple sign digits exponent)) = .ok text ∧
        parseDecimal text = some (FiniteDecimal.valueOf sign digits exponent) ∧
        CanonicalNumeral text := by
  obtain ⟨text, htext, hread, hcanonical⟩ := decimalText_spec h
  obtain ⟨text', htext', hread', -⟩ := decimalText_spec h'
  rw [FiniteDecimal.value_ofTuple] at hread hread'
  refine ⟨⟨fun heq => ?_, fun heq => decimalText_congr h h' ?_⟩, text, htext, hread, hcanonical⟩
  · obtain rfl : text = text' := Except.ok.inj (htext.symm.trans (heq.trans htext'))
    exact Option.some.inj (hread.symm.trans hread')
  · rwa [FiniteDecimal.value_ofTuple, FiniteDecimal.value_ofTuple]

/-- `1.20` and `0.012E+2`. -/
theorem decimalText_canonical_of_two_forms :
    decimalText (.finite (.ofTuple false [1, 2, 0] (-2))) =
      decimalText (.finite (.ofTuple false [0, 0, 1, 2] (-1))) :=
  (decimalText_canonical false false [1, 2, 0] [0, 0, 1, 2] (-2) (-1) (by decide) (by decide)).1.mpr
    (by decide +kernel)

end AeepRouter

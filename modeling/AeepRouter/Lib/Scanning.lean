import Mathlib.Tactic
import Mathlib.Data.List.TakeWhile

/-!
# Occurrences in a text

A `Scanner` finds marks at the front of a text; `scan` goes through a text from the left and takes
every mark it comes upon. Where no mark begins inside another (`Apart`), the marks of a text are all
the marks it can be written with: a sequence of characters and marks that writes the text has no more
marks than `scan` finds, and as many only when it is what `scan` finds (`countP_le_scan`).
-/

namespace AeepRouter.Lib

structure Scanner (α ν : Type) where
  valid : ν → Prop
  write : ν → List α
  find : List α → Option ν
  find_iff : ∀ text mark, find text = some mark ↔ valid mark ∧ ∃ rest, text = write mark ++ rest
  write_ne_nil : ∀ mark, write mark ≠ []

inductive Piece (α ν : Type) where
  | char (c : α)
  | mark (name : ν)
  deriving DecidableEq, Repr

namespace Scanner

variable {α ν μ : Type} (s : Scanner α ν)

/-- The pieces of a text, of which so many characters belong to the mark before. -/
def scanFrom : ℕ → List α → List (Piece α ν)
  | _, [] => []
  | skip + 1, _ :: text => scanFrom skip text
  | 0, c :: text =>
    match s.find (c :: text) with
    | some name => .mark name :: scanFrom ((s.write name).length - 1) text
    | none => .char c :: scanFrom 0 text

def scan (text : List α) : List (Piece α ν) := s.scanFrom 0 text

/-- The text of a piece. -/
def spell : Piece α ν → List α
  | .char c => [c]
  | .mark name => s.write name

def Valid (pieces : List (Piece α ν)) : Prop := ∀ name, Piece.mark name ∈ pieces → s.valid name

/-- No mark of `t` begins inside one of `s`. -/
def Apart (t : Scanner α μ) : Prop :=
  ∀ name, s.valid name → ∀ before after, s.write name = before ++ after → before ≠ [] →
    after ≠ [] → ∀ rest, t.find (after ++ rest) = none

def isMark : Piece α ν → Bool
  | .char _ => false
  | .mark _ => true

variable {s} {c : α} {name : ν} {text rest : List α}

theorem scanFrom_eq (skip : ℕ) (text : List α) : s.scanFrom skip text = s.scan (text.drop skip) := by
  induction skip generalizing text with
  | zero => rfl
  | succ skip ih =>
    cases text with
    | nil => rfl
    | cons c text => exact ih text

@[simp] theorem scan_nil : s.scan [] = [] := rfl

theorem find_write (h : s.valid name) : s.find (s.write name ++ rest) = some name :=
  (s.find_iff _ _).mpr ⟨h, rest, rfl⟩

theorem scan_cons (h : s.find (c :: text) = none) : s.scan (c :: text) = .char c :: s.scan text := by
  rw [scan, scanFrom, h]
  rfl

theorem scan_write (h : s.valid name) :
    s.scan (s.write name ++ rest) = .mark name :: s.scan rest := by
  cases hwrite : s.write name with
  | nil => exact absurd hwrite (s.write_ne_nil name)
  | cons c more =>
    have hfind : s.find (c :: (more ++ rest)) = some name := by
      rw [← List.cons_append, ← hwrite]
      exact find_write h
    rw [List.cons_append, scan, scanFrom, hfind]
    dsimp only
    rw [scanFrom_eq, hwrite, List.length_cons, Nat.add_sub_cancel, List.drop_left]

/-- Characters at which no mark begins. -/
theorem scan_append (h : ∀ before after, text = before ++ after → after ≠ [] →
    s.find (after ++ rest) = none) : s.scan (text ++ rest) = text.map .char ++ s.scan rest := by
  induction text with
  | nil => rfl
  | cons c text ih =>
    have hfind : s.find (c :: (text ++ rest)) = none := h [] (c :: text) rfl (List.cons_ne_nil c text)
    rw [List.cons_append, scan_cons hfind, List.map_cons, List.cons_append, ih]
    intro before after heq hne
    exact h (c :: before) after (by rw [heq, List.cons_append]) hne

/-- A text is either at its end, at a mark or at a character that begins none. -/
theorem text_cases (text : List α) :
    text = [] ∨ (∃ name rest, s.valid name ∧ text = s.write name ++ rest) ∨
      ∃ c rest, text = c :: rest ∧ s.find (c :: rest) = none := by
  cases text with
  | nil => exact .inl rfl
  | cons c rest =>
    cases hfind : s.find (c :: rest) with
    | none => exact .inr (.inr ⟨c, rest, rfl, hfind⟩)
    | some name =>
      obtain ⟨hvalid, more, heq⟩ := (s.find_iff _ _).mp hfind
      exact .inr (.inl ⟨name, more, hvalid, heq⟩)

theorem length_lt_of_write : rest.length < (s.write name ++ rest).length := by
  have := List.length_pos_iff.mpr (s.write_ne_nil name)
  rw [List.length_append]
  omega

theorem scan_induction (s : Scanner α ν) {motive : List α → Prop} (nil : motive [])
    (mark : ∀ name rest, s.valid name → motive rest → motive (s.write name ++ rest))
    (char : ∀ c rest, s.find (c :: rest) = none → motive rest → motive (c :: rest))
    (text : List α) : motive text := by
  induction h : text.length using Nat.strong_induction_on generalizing text with
  | _ n ih =>
    rcases text_cases (s := s) text with rfl | ⟨name, rest, hvalid, rfl⟩ | ⟨c, rest, rfl, hfind⟩
    · exact nil
    · exact mark name rest hvalid (ih _ (h ▸ length_lt_of_write) rest rfl)
    · exact char c rest hfind (ih _ (h ▸ Nat.lt_succ_self _) rest rfl)

/-- The pieces of a text write it. -/
theorem flatMap_spell_scan (text : List α) : (s.scan text).flatMap s.spell = text := by
  induction text using scan_induction s with
  | nil => rfl
  | mark name rest hvalid ih =>
    rw [scan_write hvalid, List.flatMap_cons, ih]
    rfl
  | char c rest hfind ih =>
    rw [scan_cons hfind, List.flatMap_cons, ih]
    rfl

theorem valid_scan (text : List α) : s.Valid (s.scan text) := by
  induction text using scan_induction s with
  | nil => exact fun name h => absurd h List.not_mem_nil
  | mark name rest hvalid ih =>
    rw [scan_write hvalid]
    rintro other hother
    rcases List.mem_cons.mp hother with heq | hother
    · cases heq
      exact hvalid
    · exact ih other hother
  | char c rest hfind ih =>
    rw [scan_cons hfind]
    intro other hother
    rcases List.mem_cons.mp hother with heq | hother
    · cases heq
    · exact ih other hother

/-- After the first character of a mark the scan finds nothing until its end. -/
theorem scan_tail (hapart : s.Apart s) (hvalid : s.valid name) {more : List α}
    (hwrite : s.write name = c :: more) : s.scan (more ++ rest) = more.map .char ++ s.scan rest := by
  refine scan_append fun before after heq hne => ?_
  exact hapart name hvalid (c :: before) after (by rw [hwrite, heq, List.cons_append])
    (List.cons_ne_nil c before) hne rest

theorem countP_map_char (text : List α) : (text.map (Piece.char (ν := ν))).countP isMark = 0 := by
  induction text with
  | nil => rfl
  | cons c text ih => exact ih

/-- No way to write a text has more marks than the scan finds, and only the scan itself has as
many. -/
theorem countP_le_scan (hapart : s.Apart s) {pieces : List (Piece α ν)} (hvalid : s.Valid pieces) :
    pieces.countP isMark ≤ (s.scan (pieces.flatMap s.spell)).countP isMark ∧
      ((s.scan (pieces.flatMap s.spell)).countP isMark ≤ pieces.countP isMark →
        pieces = s.scan (pieces.flatMap s.spell)) := by
  induction pieces with
  | nil => exact ⟨le_rfl, fun _ => rfl⟩
  | cons piece pieces ih =>
    obtain ⟨hle, heq⟩ := ih fun name h => hvalid name (List.mem_cons_of_mem _ h)
    rw [List.flatMap_cons]
    cases piece with
    | mark name =>
      rw [spell, scan_write (hvalid name List.mem_cons_self), List.countP_cons, List.countP_cons]
      refine ⟨Nat.add_le_add_right hle _, fun h => ?_⟩
      rw [← heq (Nat.le_of_add_le_add_right h)]
    | char c =>
      rw [spell, List.singleton_append]
      cases hfind : s.find (c :: pieces.flatMap s.spell) with
      | none =>
        rw [scan_cons hfind, List.countP_cons, List.countP_cons]
        refine ⟨Nat.add_le_add_right hle _, fun h => ?_⟩
        rw [← heq (Nat.le_of_add_le_add_right h)]
      | some name =>
        obtain ⟨hname, rest, htext⟩ := (s.find_iff _ _).mp hfind
        cases hwrite : s.write name with
        | nil => exact absurd hwrite (s.write_ne_nil name)
        | cons d more =>
          -- the character begins a mark that the pieces do not have
          rw [hwrite, List.cons_append] at htext
          have htail : pieces.flatMap s.spell = more ++ rest := (List.cons.inj htext).2
          have hmark : s.scan (c :: pieces.flatMap s.spell) = .mark name :: s.scan rest := by
            rw [htext, ← List.cons_append, ← hwrite]
            exact scan_write hname
          have hcount : (s.scan (pieces.flatMap s.spell)).countP isMark =
              (s.scan rest).countP isMark := by
            rw [htail, scan_tail hapart hname hwrite, List.countP_append, countP_map_char, Nat.zero_add]
          rw [hmark, List.countP_cons, List.countP_cons, ← hcount]
          have hchar : isMark (Piece.char (ν := ν) c) = false := rfl
          have hone : isMark (Piece.mark (α := α) name) = true := rfl
          simp only [hchar, hone, Bool.false_eq_true, if_false, if_true, Nat.add_zero]
          exact ⟨hle.trans (Nat.le_succ _), fun h => absurd (h.trans hle) (Nat.not_succ_le_self _)⟩

/-! ## Names between delimiters -/

theorem write_delimited_ne_nil {opening : List α} {closing : α} (mark : List α) :
    opening ++ (mark ++ [closing]) ≠ [] := by
  simp

section Delimited

variable [DecidableEq α]

/-- A name in the form of an identifier. -/
def IsName (first more : α → Bool) (name : List α) : Prop :=
  ∃ c rest, name = c :: rest ∧ first c = true ∧ ∀ x ∈ rest, more x = true

/-- What an opening, a name and a closing are read as. -/
def findDelimited (opening : List α) (closing : α) (first more : α → Bool) (text : List α) :
    Option (List α) :=
  if text.take opening.length = opening then
    match text.drop opening.length with
    | [] => none
    | c :: rest =>
      if first c ∧ (rest.dropWhile more).head? = some closing then some (c :: rest.takeWhile more)
      else none
  else none

variable {opening : List α} {closing : α} {first more : α → Bool} {mark : List α}

theorem findDelimited_iff (hclosing : more closing = false) (text mark : List α) :
    findDelimited opening closing first more text = some mark ↔
      IsName first more mark ∧ ∃ rest, text = (opening ++ (mark ++ [closing])) ++ rest := by
  unfold findDelimited
  constructor
  · intro h
    split_ifs at h with hopening
    have htext := List.take_append_drop opening.length text
    rw [hopening] at htext
    match hdrop : text.drop opening.length, h with
    | c :: tail, h =>
      dsimp only at h
      split_ifs at h with hname
      obtain ⟨hfirst, hhead⟩ := hname
      obtain rfl := Option.some_inj.mp h
      refine ⟨⟨c, _, rfl, hfirst, fun x hx => List.mem_takeWhile_imp hx⟩, ?_⟩
      obtain ⟨after, hafter⟩ : ∃ after, tail.dropWhile more = closing :: after := by
        cases hw : tail.dropWhile more with
        | nil => simp [hw] at hhead
        | cons d after =>
          rw [hw, List.head?_cons, Option.some_inj] at hhead
          exact ⟨after, by rw [hhead]⟩
      refine ⟨after, ?_⟩
      have htail := List.takeWhile_append_dropWhile (p := more) (l := tail)
      rw [hafter] at htail
      rw [← htext, hdrop]
      simp only [List.append_assoc, List.cons_append, List.nil_append]
      rw [htail]
  · rintro ⟨⟨c, tail, rfl, hfirst, hmore⟩, rest, rfl⟩
    have htake : (opening ++ ((c :: tail) ++ [closing]) ++ rest).take opening.length = opening := by
      rw [List.append_assoc, List.take_left]
    have hdrop : (opening ++ ((c :: tail) ++ [closing]) ++ rest).drop opening.length =
        c :: (tail ++ closing :: rest) := by
      rw [List.append_assoc, List.drop_left]
      simp
    rw [if_pos htake, hdrop]
    have hstop : List.takeWhile more (closing :: rest) = [] ∧
        List.dropWhile more (closing :: rest) = closing :: rest := by
      simp [hclosing]
    have hwhile : (tail ++ closing :: rest).takeWhile more = tail ∧
        (tail ++ closing :: rest).dropWhile more = closing :: rest := by
      rw [List.takeWhile_append_of_pos hmore, List.dropWhile_append_of_pos hmore, hstop.1, hstop.2]
      simp
    dsimp only
    rw [hwhile.1, hwhile.2, if_pos ⟨hfirst, rfl⟩]

def delimited (opening : List α) (closing : α) (first more : α → Bool)
    (hclosing : more closing = false) : Scanner α (List α) where
  valid := IsName first more
  write name := opening ++ (name ++ [closing])
  find := findDelimited opening closing first more
  find_iff := findDelimited_iff hclosing
  write_ne_nil := write_delimited_ne_nil

/-- Nothing is read where the opening does not begin. -/
theorem findDelimited_eq_none {o : α} (h : opening.head? = some o) {text : List α}
    (hhead : text.head? ≠ some o) : findDelimited opening closing first more text = none := by
  refine if_neg fun htake => hhead ?_
  cases opening with
  | nil => simp at h
  | cons a opening =>
    cases text with
    | nil => simp at htake
    | cons b text =>
      rw [List.length_cons, List.take_succ_cons] at htake
      rw [List.head?_cons, (List.cons.inj htake).1]
      exact h

end Delimited

/-! ## Marks of two kinds -/

section Sum

variable (s) (t : Scanner α μ)

def findSum (text : List α) : Option (ν ⊕ μ) :=
  ((s.find text).map .inl).or ((t.find text).map .inr)

def writeSum : ν ⊕ μ → List α
  | .inl name => s.write name
  | .inr name => t.write name

def ValidSum : ν ⊕ μ → Prop
  | .inl name => s.valid name
  | .inr name => t.valid name

variable {s t}

theorem findSum_iff (h : ∀ text, s.find text = none ∨ t.find text = none) (text : List α)
    (mark : ν ⊕ μ) : findSum s t text = some mark ↔
      ValidSum s t mark ∧ ∃ rest, text = writeSum s t mark ++ rest := by
  unfold findSum
  cases mark with
  | inl name =>
    simp only [ValidSum, writeSum, ← s.find_iff]
    cases hs : s.find text with
    | none => simp
    | some other => simp
  | inr name =>
    simp only [ValidSum, writeSum, ← t.find_iff]
    rcases h text with hs | ht
    · simp [hs]
    · rw [ht]
      cases hs : s.find text <;> simp

theorem writeSum_ne_nil (mark : ν ⊕ μ) : writeSum s t mark ≠ [] := by
  cases mark with
  | inl name => exact s.write_ne_nil name
  | inr name => exact t.write_ne_nil name

variable (s t) in
/-- Either scanner, where no text begins with a mark of both. -/
def sum (h : ∀ text, s.find text = none ∨ t.find text = none) : Scanner α (ν ⊕ μ) where
  valid := ValidSum s t
  write := writeSum s t
  find := findSum s t
  find_iff := findSum_iff h
  write_ne_nil := writeSum_ne_nil

theorem sum_find_eq_none {h : ∀ text, s.find text = none ∨ t.find text = none} {text : List α}
    (hfind : (s.sum t h).find text = none) : s.find text = none ∧ t.find text = none := by
  have hor := Option.or_eq_none_iff.mp hfind
  exact ⟨Option.map_eq_none_iff.mp hor.1, Option.map_eq_none_iff.mp hor.2⟩

end Sum

end Scanner

end AeepRouter.Lib

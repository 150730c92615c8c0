import Mathlib.Tactic

/-!
# The greatest row of a list

`greatest pick key rows` is one of the rows with the greatest key; which of them, `pick` decides. The
key `Decides` for a value when the rows of the greatest key have the greatest value. Where equal keys
have equal values, `decides_concat` says exactly when one more row leaves the key deciding.
-/

namespace AeepRouter.Lib

/-- One element of every list that has any. -/
structure Pick (α : Type) where
  one : List α → Option α
  mem : ∀ rows row, one rows = some row → row ∈ rows
  isSome : ∀ rows, rows ≠ [] → (one rows).isSome

theorem head_isSome {α : Type} (rows : List α) (h : rows ≠ []) : rows.head?.isSome := by
  rwa [List.isSome_head?]

theorem head_mem {α : Type} (rows : List α) (row : α) (h : rows.head? = some row) : row ∈ rows :=
  List.mem_of_head? h

def Pick.first (α : Type) : Pick α := ⟨List.head?, head_mem, head_isSome⟩

section Greatest

variable {α κ ν : Type} [LinearOrder κ] [LinearOrder ν]

def greatest (pick : Pick α) (key : α → κ) (rows : List α) : Option α :=
  pick.one (rows.filter fun row => ∀ other ∈ rows, key other ≤ key row)

/-- The rows of the greatest key have the greatest value. -/
def Decides (key : α → κ) (value : α → ν) (rows : List α) : Prop :=
  ∀ row ∈ rows, (∀ other ∈ rows, key other ≤ key row) → ∀ other ∈ rows, value other ≤ value row

/-- A row that is first by its value is first by its key, and one first by its key is not behind any
by its value. -/
def KeepsOrder (key : α → κ) (value : α → ν) (rows : List α) (row : α) : Prop :=
  ((∀ other ∈ rows, value other < value row) → ∀ other ∈ rows, key other < key row) ∧
    ((∀ other ∈ rows, key other < key row) → ∀ other ∈ rows, value other ≤ value row)

variable {pick : Pick α} {key : α → κ} {value : α → ν} {rows : List α} {row : α}

variable (key) in
theorem exists_greatest (h : rows ≠ []) : ∃ row ∈ rows, ∀ other ∈ rows, key other ≤ key row := by
  cases hmax : (rows.map key).max? with
  | none => exact absurd (List.map_eq_nil_iff.mp (List.max?_eq_none_iff.mp hmax)) h
  | some most =>
    obtain ⟨hmem, hle⟩ := List.max?_eq_some_iff.mp hmax
    obtain ⟨row, hrow, rfl⟩ := List.mem_map.mp hmem
    exact ⟨row, hrow, fun other hother => hle _ (List.mem_map_of_mem hother)⟩

theorem greatest_eq_some (h : greatest pick key rows = some row) :
    row ∈ rows ∧ ∀ other ∈ rows, key other ≤ key row := by
  have hmem := List.mem_filter.mp (pick.mem _ _ h)
  exact ⟨hmem.1, of_decide_eq_true hmem.2⟩

variable (pick key) in
theorem greatest_isSome (h : rows ≠ []) : ∃ row, greatest pick key rows = some row := by
  obtain ⟨row, hrow, hmost⟩ := exists_greatest key h
  refine Option.isSome_iff_exists.mp (pick.isSome _ (List.ne_nil_of_mem (a := row) ?_))
  exact List.mem_filter.mpr ⟨hrow, decide_eq_true hmost⟩

theorem decides_iff (heq : ∀ a b, key a = key b → value a = value b) :
    Decides key value rows ↔
      (rows ≠ [] → ∃ row, greatest pick key rows = some row ∧ row ∈ rows ∧
        ∀ other ∈ rows, value other ≤ value row) := by
  constructor
  · intro h hne
    obtain ⟨row, hrow⟩ := greatest_isSome pick key hne
    obtain ⟨hmem, hmost⟩ := greatest_eq_some hrow
    exact ⟨row, hrow, hmem, h row hmem hmost⟩
  · intro h row hrow hmost other hother
    obtain ⟨found, hfound, hmem, hvalue⟩ := h (List.ne_nil_of_mem hrow)
    have hkeys := le_antisymm (hmost found hmem) ((greatest_eq_some hfound).2 row hrow)
    exact (hvalue other hother).trans_eq (heq found row hkeys)

theorem decides_concat (heq : ∀ a b, key a = key b → value a = value b)
    (h : Decides key value rows) :
    Decides key value (rows ++ [row]) ↔ KeepsOrder key value rows row := by
  simp only [Decides, List.forall_mem_append, List.forall_mem_singleton]
  constructor
  · rintro ⟨hold, hnew⟩
    refine ⟨fun hlater other hother => ?_, fun hafter => ?_⟩
    · by_contra hkey
      obtain ⟨most, hmost, hgreatest⟩ := exists_greatest key (List.ne_nil_of_mem hother)
      have hle := (not_lt.mp hkey).trans (hgreatest other hother)
      exact absurd (hold most hmost ⟨hgreatest, hle⟩).2 (hlater most hmost).not_ge
    · exact (hnew ⟨fun other hother => (hafter other hother).le, le_rfl⟩).1
  · rintro ⟨hvalue, hkey⟩
    constructor
    · rintro most hmost ⟨hgreatest, hle⟩
      have hold := h most hmost hgreatest
      refine ⟨hold, ?_⟩
      by_contra hlt
      have hlater : ∀ other ∈ rows, value other < value row := fun other hother =>
        (hold other hother).trans_lt (not_le.mp hlt)
      exact absurd hle (hvalue hlater most hmost).not_ge
    · rintro ⟨hgreatest, -⟩
      refine ⟨?_, le_rfl⟩
      by_cases hstrict : ∀ other ∈ rows, key other < key row
      · exact hkey hstrict
      · -- a row of the same key was the greatest before
        push Not at hstrict
        obtain ⟨same, hsame, hge⟩ := hstrict
        have heqkey := le_antisymm (hgreatest same hsame) hge
        have hmost : ∀ other ∈ rows, key other ≤ key same := fun other hother =>
          (hgreatest other hother).trans hge
        intro other hother
        exact (h same hsame hmost other hother).trans_eq (heq same row heqkey)

end Greatest

end AeepRouter.Lib

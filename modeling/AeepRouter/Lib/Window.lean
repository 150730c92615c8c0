import Mathlib.Data.List.MinMax
import Mathlib.Data.List.Sort
import Mathlib.Tactic

/-!
# The best of a window

`window` is what a query with a limit returns: the first rows in the order of a key. `Best` says what a
selection among some of the rows is to return. The selection from a window is the best of all the rows
just when the best of them is in the window (`best_window_iff`).
-/

namespace AeepRouter.Lib

variable {α κ ν : Type} [LinearOrder κ] [LinearOrder ν]

/-- The first `limit` rows, by their keys. -/
def window (key : α → κ) (limit : ℕ) (rows : List α) : List α :=
  (rows.insertionSort fun a b => key a ≤ key b).take limit

/-- The first row of the greatest value. -/
def maxBy (value : α → ν) (rows : List α) : Option α := rows.argmax value

/-- A selection among the rows that are eligible: nothing just when none is, and else one of the
greatest value. -/
structure Best (eligible : α → Prop) (value : α → ν) (rows : List α) (selected : Option α) : Prop where
  none_iff : selected = none ↔ ∀ row ∈ rows, ¬ eligible row
  greatest : ∀ row ∈ selected, row ∈ rows ∧ eligible row ∧
    ∀ other ∈ rows, eligible other → value other ≤ value row

section Window

variable {key : α → κ} {limit : ℕ} {rows : List α} {row : α}

theorem insertionSort_pairwise_lt (hkeys : (rows.map key).Nodup) :
    (rows.insertionSort fun a b => key a ≤ key b).Pairwise fun a b => key a < key b := by
  have hperm := List.perm_insertionSort (fun a b => key a ≤ key b) rows
  have hle : (rows.insertionSort fun a b => key a ≤ key b).Pairwise fun a b => key a ≤ key b :=
    List.pairwise_insertionSort _ rows
  have hne : (rows.insertionSort fun a b => key a ≤ key b).Pairwise fun a b => key a ≠ key b :=
    List.pairwise_map.mp ((hperm.map key).nodup_iff.mpr hkeys)
  exact (hle.and hne).imp fun h => lt_of_le_of_ne h.1 h.2

theorem window_subset : window key limit rows ⊆ rows := fun _ h =>
  (List.perm_insertionSort _ rows).mem_iff.mp (List.mem_of_mem_take h)

theorem mem_window (hkeys : (rows.map key).Nodup) (hrow : row ∈ rows) :
    row ∈ window key limit rows ↔ rows.countP (fun other => key other < key row) < limit := by
  have hperm := List.perm_insertionSort (fun a b => key a ≤ key b) rows
  have hsorted := insertionSort_pairwise_lt hkeys
  rw [window, ← hperm.countP_eq]
  obtain ⟨before, after, hrows⟩ := List.append_of_mem (hperm.mem_iff.mpr hrow)
  rw [hrows, List.pairwise_append, List.pairwise_cons] at hsorted
  obtain ⟨-, ⟨hafter, -⟩, hbefore⟩ := hsorted
  have hlow : ∀ other ∈ before, key other < key row := fun other hother =>
    hbefore other hother row List.mem_cons_self
  have hcount : (before ++ row :: after).countP (fun other => key other < key row) = before.length := by
    have hall : before.countP (fun other => key other < key row) = before.length :=
      List.countP_eq_length.mpr fun other hother => decide_eq_true (hlow other hother)
    have hnone : (row :: after).countP (fun other => key other < key row) = 0 := by
      rw [List.countP_eq_zero]
      intro other hother
      rw [decide_eq_true_eq, not_lt]
      rcases List.mem_cons.mp hother with rfl | hother
      · exact le_rfl
      · exact (hafter other hother).le
    rw [List.countP_append, hall, hnone, Nat.add_zero]
  rw [hrows, hcount, List.take_append]
  constructor
  · intro hmem
    by_contra hlimit
    rw [Nat.sub_eq_zero_of_le (not_lt.mp hlimit), List.take_zero, List.append_nil] at hmem
    exact absurd (hlow row (List.mem_of_mem_take hmem)) (lt_irrefl _)
  · intro hlimit
    obtain ⟨more, hmore⟩ := Nat.exists_eq_add_of_lt hlimit
    have hsub : limit - before.length = more + 1 := by omega
    rw [hsub, List.take_succ_cons]
    exact List.mem_append_right _ List.mem_cons_self

end Window

section Best

variable {eligible : α → Prop} [DecidablePred eligible] {value : α → ν} {rows listed : List α}
  {selected : Option α}

theorem best_argmax : Best eligible value rows (maxBy value (rows.filter fun row => eligible row)) := by
  constructor
  · rw [maxBy, List.argmax_eq_none, List.filter_eq_nil_iff]
    simp only [decide_eq_true_eq]
  · intro row hrow
    obtain ⟨hmem, heligible⟩ := List.mem_filter.mp (List.argmax_mem hrow)
    refine ⟨hmem, of_decide_eq_true heligible, fun other hother hother' => ?_⟩
    exact List.le_of_mem_argmax (List.mem_filter.mpr ⟨hother, decide_eq_true hother'⟩) hrow

omit [DecidablePred eligible] in
theorem Best.unique {rows' : List α} {selected' : Option α}
    (hvalues : ∀ a ∈ rows, ∀ b ∈ rows, value a = value b → a = b)
    (hsame : ∀ row, eligible row → (row ∈ rows ↔ row ∈ rows')) (h : Best eligible value rows selected)
    (h' : Best eligible value rows' selected') : selected = selected' := by
  cases selected with
  | none =>
    symm
    refine h'.none_iff.mpr fun row hrow heligible => ?_
    exact h.none_iff.mp rfl row ((hsame row heligible).mpr hrow) heligible
  | some best =>
    obtain ⟨hbest, heligible, hgreatest⟩ := h.greatest best rfl
    cases selected' with
    | none =>
      exact absurd heligible (h'.none_iff.mp rfl best ((hsame best heligible).mp hbest))
    | some best' =>
      obtain ⟨hbest', heligible', hgreatest'⟩ := h'.greatest best' rfl
      have hmem := (hsame best' heligible').mpr hbest'
      have hle := hgreatest best' hmem heligible'
      have hge := hgreatest' best ((hsame best heligible).mp hbest) heligible
      exact congrArg some (hvalues best hbest best' hmem (le_antisymm hge hle))

theorem best_window_iff (hvalues : ∀ a ∈ rows, ∀ b ∈ rows, value a = value b → a = b)
    (hlisted : listed ⊆ rows) :
    Best eligible value rows (maxBy value (listed.filter fun row => eligible row)) ↔
      ∀ best ∈ rows, eligible best →
        (∀ other ∈ rows, eligible other → value other ≤ value best) → best ∈ listed := by
  have hwindow : Best eligible value listed (maxBy value (listed.filter fun row => eligible row)) :=
    best_argmax
  constructor
  · intro h best hbest heligible hgreatest
    cases hselected : maxBy value (listed.filter fun row => eligible row) with
    | none => exact absurd heligible (h.none_iff.mp hselected best hbest)
    | some found =>
      obtain ⟨hfound, heligible', hgreatest'⟩ := h.greatest found hselected
      have heq := hvalues best hbest found hfound
        (le_antisymm (hgreatest' best hbest heligible) (hgreatest found hfound heligible'))
      exact heq ▸ (hwindow.greatest found hselected).1
  · intro h
    -- the greatest of all the eligible rows is listed, so nothing listed is greater
    have hall : Best eligible value rows (maxBy value (rows.filter fun row => eligible row)) :=
      best_argmax
    have hgreatest : ∀ best ∈ maxBy value (rows.filter fun row => eligible row), best ∈ listed :=
      fun best hbest => h best (hall.greatest best hbest).1 (hall.greatest best hbest).2.1
        (hall.greatest best hbest).2.2
    refine ⟨⟨fun hnone => ?_, fun hnone => ?_⟩, fun row hrow => ?_⟩
    · cases hmost : maxBy value (rows.filter fun row => eligible row) with
      | none => exact hall.none_iff.mp hmost
      | some best =>
        exact absurd (hall.greatest best hmost).2.1
          (hwindow.none_iff.mp hnone best (hgreatest best hmost))
    · exact hwindow.none_iff.mpr fun row hrow => hnone row (hlisted hrow)
    · obtain ⟨hlist, heligible, hle⟩ := hwindow.greatest row hrow
      refine ⟨hlisted hlist, heligible, fun other hother hother' => ?_⟩
      cases hmost : maxBy value (rows.filter fun row => eligible row) with
      | none => exact absurd hother' (hall.none_iff.mp hmost other hother)
      | some best =>
        obtain ⟨-, heligible', hgreatest'⟩ := hall.greatest best hmost
        exact (hgreatest' other hother hother').trans (hle best (hgreatest best hmost) heligible')

end Best

end AeepRouter.Lib

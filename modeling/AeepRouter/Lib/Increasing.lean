import Mathlib.Data.List.Sort
import Mathlib.Data.Prod.Lex

/-!
# Lists in the order of a key

A list is `Increasing` by a key when the keys of its elements increase strictly. Such a list is known by
its members (`Increasing.eq`). `slice` cuts a list by offsets, and the slices one after the other are the
list (`flatten_slices`).
-/

namespace AeepRouter.Lib

section Increasing

variable {α κ : Type} [LinearOrder κ]

def Increasing (key : α → κ) (l : List α) : Prop := l.Pairwise fun a b => key a < key b

def sortOn (key : α → κ) (l : List α) : List α := l.insertionSort fun a b => key a ≤ key b

variable {key : α → κ} {l l' : List α}

theorem Increasing.nodup (h : Increasing key l) : l.Nodup :=
  h.imp fun hlt heq => hlt.ne (congrArg key heq)

theorem Increasing.nodup_map (h : Increasing key l) : (l.map key).Nodup := by
  rw [List.Nodup, List.pairwise_map]
  exact h.imp fun hlt => hlt.ne

theorem Increasing.filter (h : Increasing key l) (p : α → Bool) : Increasing key (l.filter p) :=
  List.Pairwise.filter p h

theorem Increasing.eq_of_key_eq (h : Increasing key l) {a b : α} (ha : a ∈ l) (hb : b ∈ l)
    (heq : key a = key b) : a = b :=
  List.inj_on_of_nodup_map h.nodup_map ha hb heq

/-- A list in order is known by its members. -/
theorem Increasing.eq (h : Increasing key l) (h' : Increasing key l') (hmem : ∀ a, a ∈ l ↔ a ∈ l') :
    l = l' :=
  ((List.perm_ext_iff_of_nodup h.nodup h'.nodup).mpr hmem).eq_of_pairwise
    (fun _ _ _ _ hlt hgt => absurd hlt hgt.asymm) h h'

theorem mem_sortOn {a : α} : a ∈ sortOn key l ↔ a ∈ l := List.mem_insertionSort _

theorem sortOn_perm : (sortOn key l).Perm l := List.perm_insertionSort _ _

theorem sortOn_increasing (h : (l.map key).Nodup) : Increasing key (sortOn key l) := by
  have hnodup : ((sortOn key l).map key).Nodup := (sortOn_perm.map key).nodup_iff.mpr h
  have hsorted : (sortOn key l).Pairwise fun a b => key a ≤ key b :=
    List.pairwise_insertionSort (fun a b => key a ≤ key b) l
  rw [List.Nodup, List.pairwise_map] at hnodup
  exact hsorted.imp₂ (fun _ _ hle hne => lt_of_le_of_ne hle hne) hnodup

/-- The first element has the least key. -/
theorem Increasing.head?_le (h : Increasing key l) {a b : α} (ha : l.head? = some a) (hb : b ∈ l) :
    key a ≤ key b := by
  cases l with
  | nil => cases ha
  | cons x xs =>
    obtain rfl := Option.some.inj ha
    rcases List.mem_cons.mp hb with rfl | hin
    · exact le_rfl
    · exact (List.rel_of_pairwise_cons h hin).le

end Increasing

/-! ## Slices -/

section Slices

variable {α : Type}

/-- The elements of a slice, and where the next one begins if there is one. -/
def slice (size : ℕ) (l : List α) (start : ℕ) : List α × Option ℕ :=
  let items := (l.drop start).take size
  (items, if start + items.length < l.length then some (start + items.length) else none)

/-- The slices from a place on, at most so many. -/
def slices (size : ℕ) (l : List α) : ℕ → ℕ → List (List α)
  | 0, _ => []
  | n + 1, start =>
    (slice size l start).1 :: ((slice size l start).2.map (slices size l n)).getD []

variable {size : ℕ} {l : List α}

theorem slice_next {start next : ℕ} (hsize : 1 ≤ size) (h : (slice size l start).2 = some next) :
    start < next ∧ next < l.length := by
  obtain ⟨hlt, hnext⟩ := Option.ite_none_right_eq_some.mp h
  obtain rfl := Option.some.inj hnext
  rw [List.length_take, List.length_drop] at hlt ⊢
  omega

/-- What is left from a place on is the slice and what is left after it. -/
theorem drop_eq_slice (start : ℕ) :
    l.drop start = (slice size l start).1 ++ l.drop (start + (slice size l start).1.length) := by
  unfold slice
  dsimp only
  rw [List.length_take, List.length_drop, ← List.drop_drop]
  by_cases h : size ≤ l.length - start
  · rw [min_eq_left h, List.take_append_drop]
  · have hle : (l.drop start).length ≤ size := by rw [List.length_drop]; omega
    have hnil : (l.drop start).drop (l.length - start) = [] := List.drop_eq_nil_of_le (by simp)
    rw [List.take_of_length_le hle, min_eq_right (by omega), hnil, List.append_nil]

/-- The slices are the elements, each once, when there are enough of them. -/
theorem flatten_slices (hsize : 1 ≤ size) (n start : ℕ) (hn : l.length < start + n) :
    (slices size l n start).flatten = l.drop start := by
  induction n generalizing start with
  | zero => simp [slices, List.drop_eq_nil_of_le (show l.length ≤ start by omega)]
  | succ n ih =>
    unfold slices
    rw [List.flatten_cons]
    rw [drop_eq_slice start]
    congr 1
    by_cases hmore : start + (slice size l start).1.length < l.length
    · have hnext : (slice size l start).2 = some (start + (slice size l start).1.length) := if_pos hmore
      have hpos : 1 ≤ (slice size l start).1.length := by
        show 1 ≤ ((l.drop start).take size).length
        rw [List.length_take, List.length_drop]
        omega
      rw [hnext, Option.map_some, Option.getD_some]
      exact ih _ (by omega)
    · have hnext : (slice size l start).2 = none := if_neg hmore
      rw [hnext, List.drop_eq_nil_of_le (by omega)]
      rfl

end Slices

end AeepRouter.Lib

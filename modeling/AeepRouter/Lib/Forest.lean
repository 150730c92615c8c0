import Mathlib.Tactic

/-!
# Forests in the order they grow

A list of items, newest first, where each item may name the key of an older one as its parent
(`Rooted`). `ancestors` follows the parents of a key up to its root. The walk is by recursion on the
list: the parent of an item is looked for among the older ones only.
-/

namespace AeepRouter.Lib

variable {α κ : Type} [DecidableEq κ] (key : α → κ) (parent : α → Option κ)

/-- Keys are distinct and a parent is older than its children. -/
def Rooted : List α → Prop
  | [] => True
  | x :: older => key x ∉ older.map key ∧ (∀ p ∈ parent x, p ∈ older.map key) ∧ Rooted older

instance Rooted.decidable : ∀ items, Decidable (Rooted key parent items)
  | [] => isTrue trivial
  | x :: older =>
    have := Rooted.decidable older
    inferInstanceAs (Decidable (key x ∉ older.map key ∧
      (∀ p ∈ parent x, p ∈ older.map key) ∧ Rooted key parent older))

def ancestors : List α → κ → List κ
  | [], _ => []
  | x :: older, k =>
    if key x = k then
      match parent x with
      | none => []
      | some p => p :: ancestors older p
    else ancestors older k

variable {key parent}

theorem ancestors_of_ne {x : α} {older : List α} {k : κ} (h : key x ≠ k) :
    ancestors key parent (x :: older) k = ancestors key parent older k := if_neg h

theorem ancestors_subset {items : List α} (h : Rooted key parent items) {k a : κ}
    (ha : a ∈ ancestors key parent items k) : a ∈ items.map key := by
  induction items generalizing k with
  | nil => cases ha
  | cons x older ih =>
    obtain ⟨-, hparent, holder⟩ := h
    unfold ancestors at ha
    split at ha
    · split at ha
      · cases ha
      · next p hp =>
        rcases List.mem_cons.mp ha with rfl | ha
        · exact List.mem_cons_of_mem _ (hparent a hp)
        · exact List.mem_cons_of_mem _ (ih holder ha)
    · exact List.mem_cons_of_mem _ (ih holder ha)

/-- The newest item is nobody's ancestor. -/
theorem ancestors_cons {x : α} {older : List α} (h : Rooted key parent (x :: older)) {k : κ}
    (hk : k ∈ older.map key) :
    ancestors key parent (x :: older) k = ancestors key parent older k :=
  ancestors_of_ne fun heq => h.1 (heq ▸ hk)

theorem ancestors_of_parent {items : List α} (h : Rooted key parent items) {x : α} (hx : x ∈ items)
    {p : κ} (hp : parent x = some p) :
    ancestors key parent items (key x) = p :: ancestors key parent items p := by
  induction items with
  | nil => cases hx
  | cons y older ih =>
    obtain ⟨hy, hparent, holder⟩ := h
    by_cases heq : key y = key x
    · obtain rfl : x = y := by
        rcases List.mem_cons.mp hx with hx | hx
        · exact hx
        · exact absurd (heq ▸ List.mem_map_of_mem hx) hy
      rw [ancestors_cons ⟨hy, hparent, holder⟩ (hparent p hp), ancestors, if_pos rfl, hp]
    · have hold : x ∈ older := (List.mem_cons.mp hx).resolve_left fun hxy => heq (hxy ▸ rfl)
      have hpold : p ∈ older.map key := ancestors_subset holder <| by
        rw [ih holder hold]
        exact List.mem_cons_self
      rw [ancestors_of_ne heq, ih holder hold, ancestors_cons ⟨hy, hparent, holder⟩ hpold]

/-- Nothing is above itself. -/
theorem not_mem_ancestors_self {items : List α} (h : Rooted key parent items) (k : κ) :
    k ∉ ancestors key parent items k := by
  induction items generalizing k with
  | nil => exact List.not_mem_nil
  | cons x older ih =>
    obtain ⟨hx, hparent, holder⟩ := h
    unfold ancestors
    split
    · next hk =>
      split
      · exact List.not_mem_nil
      · next p hp =>
        intro hmem
        refine hx (hk ▸ ?_)
        rcases List.mem_cons.mp hmem with rfl | hmem
        · exact hparent k hp
        · exact ancestors_subset holder hmem
    · exact ih holder k

theorem ancestors_trans {items : List α} (h : Rooted key parent items) {a b c : κ}
    (hab : a ∈ ancestors key parent items b) (hbc : b ∈ ancestors key parent items c) :
    a ∈ ancestors key parent items c := by
  induction items generalizing b c with
  | nil => cases hbc
  | cons x older ih =>
    have hroot := h
    obtain ⟨hx, hparent, holder⟩ := h
    -- `b` is older than the newest item, and so is its line
    have hb : b ∈ older.map key := by
      unfold ancestors at hbc
      split at hbc
      · split at hbc
        · cases hbc
        · next p hp =>
          rcases List.mem_cons.mp hbc with rfl | hbc
          · exact hparent b hp
          · exact ancestors_subset holder hbc
      · exact ancestors_subset holder hbc
    rw [ancestors_cons hroot hb] at hab
    unfold ancestors at hbc ⊢
    split
    · next hk =>
      rw [if_pos hk] at hbc
      split
      · next hp =>
        rw [hp] at hbc
        cases hbc
      · next p hp =>
        rw [hp] at hbc
        rcases List.mem_cons.mp hbc with rfl | hbc
        · exact List.mem_cons_of_mem _ hab
        · exact List.mem_cons_of_mem _ (ih holder hab hbc)
    · next hk =>
      rw [if_neg hk] at hbc
      exact ih holder hab hbc

end AeepRouter.Lib

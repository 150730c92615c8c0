import AeepRouter.Lib.Audit

/-!
# Lineages

The versions of a root, oldest first. Each names the digest of the version before it, the first
none, and no version is below one before it or below the root. `current` is the value in force.
-/

namespace AeepRouter.Lib

variable {α β δ : Type}

section Current

variable {value : α → β} {root : β} {versions : List α}

def current (value : α → β) (root : β) (versions : List α) : β :=
  (versions.getLast?.map value).getD root

@[simp] theorem current_nil : current value root [] = root := rfl

@[simp] theorem current_append (v : α) : current value root (versions ++ [v]) = value v := by
  simp [current]

theorem current_cons (v : α) :
    current value root (v :: versions) = current value (value v) versions := by
  unfold current
  cases versions using List.reverseRecOn with
  | nil => rfl
  | append_singleton versions w => simp [List.getLast?_cons]

theorem current_mem : current value root versions ∈ root :: versions.map value := by
  unfold current
  cases h : versions.getLast? with
  | none => exact List.mem_cons_self
  | some v => exact List.mem_cons_of_mem _ (List.mem_map_of_mem (List.mem_of_getLast? h))

end Current

variable [Preorder β]

/-- One chain of versions whose values never fall. -/
structure Lineage (digest : α → δ) (previous : α → Option δ) (value : α → β) (root : β)
    (versions : List α) : Prop where
  linked : Chained previous (fun v => some (digest v)) none versions (versions.getLast?.map digest)
  rising : (root :: versions.map value).Pairwise (· ≤ ·)

variable {digest : α → δ} {previous : α → Option δ} {value : α → β} {root : β} {versions : List α}

namespace Lineage

theorem nil : Lineage digest previous value root [] := ⟨rfl, by simp⟩

/-- Nothing is above the value in force. -/
theorem le_current (h : Lineage digest previous value root versions) {b : β}
    (hb : b ∈ root :: versions.map value) : b ≤ current value root versions := by
  induction versions using List.reverseRecOn with
  | nil => exact (List.mem_singleton.mp hb).le
  | append_singleton versions v ih =>
    rw [current_append]
    have hrising := h.rising
    rw [List.map_append, List.map_singleton, ← List.cons_append, List.pairwise_append] at hrising
    rw [List.map_append, List.map_singleton, ← List.cons_append, List.mem_append] at hb
    rcases hb with hb | hb
    · exact hrising.2.2 b hb _ (List.mem_singleton_self _)
    · exact (List.mem_singleton.mp hb).le

theorem root_le_current (h : Lineage digest previous value root versions) :
    root ≤ current value root versions := h.le_current List.mem_cons_self

/-- A version that names the last one and is not below the value in force. -/
theorem append (h : Lineage digest previous value root versions) {v : α}
    (hprevious : previous v = versions.getLast?.map digest)
    (hvalue : current value root versions ≤ value v) :
    Lineage digest previous value root (versions ++ [v]) := by
  refine ⟨?_, ?_⟩
  · rw [chained_append, List.getLast?_concat]
    exact ⟨_, h.linked, hprevious, rfl⟩
  · rw [List.map_append, List.map_singleton, ← List.cons_append, List.pairwise_append]
    refine ⟨h.rising, List.pairwise_singleton _ _, fun b hb c hc => ?_⟩
    rw [List.mem_singleton.mp hc]
    exact (h.le_current hb).trans hvalue

/-- A later version is not below an earlier one. -/
theorem current_le_append {more : List α}
    (h : Lineage digest previous value root (versions ++ more)) :
    current value root versions ≤ current value root (versions ++ more) := by
  refine h.le_current ?_
  rw [List.map_append, ← List.cons_append]
  exact List.mem_append_left _ current_mem

end Lineage

end AeepRouter.Lib

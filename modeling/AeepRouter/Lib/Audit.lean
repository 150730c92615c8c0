import Mathlib.Tactic
import Mathlib.Data.List.Sort

/-!
# Audit logs of state machines

A log records the moves of many machines, each under a key, from a source to a target state.
`Chained s moves t` says that the moves lead from `s` to `t`, each from where the one before it
ended. `Moves` replays moves on the states of the machines; a log is `Audited` when the moves of
every machine lead from the initial state to its state. A replay keeps a log audited and leads every
machine along its own moves (`Audited.moves`, `Moves.chained`).
-/

namespace AeepRouter.Lib

variable {α κ σ : Type}

/-! ## Chains -/

section Chained

variable (src tgt : α → σ)

/-- The moves lead from one state to another, each from the target of the one before it. -/
def Chained : σ → List α → σ → Prop
  | s, [], t => s = t
  | s, a :: as, t => src a = s ∧ Chained (tgt a) as t

instance Chained.decidable [DecidableEq σ] :
    ∀ (s : σ) (as : List α) (t : σ), Decidable (Chained src tgt s as t)
  | s, [], t => inferInstanceAs (Decidable (s = t))
  | s, a :: as, t =>
    have := Chained.decidable (tgt a) as t
    inferInstanceAs (Decidable (src a = s ∧ Chained src tgt (tgt a) as t))

variable {src tgt} {s t : σ} {as bs : List α}

theorem chained_append :
    Chained src tgt s (as ++ bs) t ↔ ∃ u, Chained src tgt s as u ∧ Chained src tgt u bs t := by
  induction as generalizing s with
  | nil => simp [Chained]
  | cons a as ih => simp [Chained, ih, and_assoc]

theorem chained_singleton {a : α} : Chained src tgt s [a] t ↔ src a = s ∧ tgt a = t := Iff.rfl

/-- Moves that each take something off a total lead from the total to what is left of it. -/
theorem Chained.sum {M : Type} [AddCommMonoid M] {src tgt w : α → M} {s t : M} {as : List α}
    (h : Chained src tgt s as t) (hw : ∀ a, src a = w a + tgt a) : s = (as.map w).sum + t := by
  induction as generalizing s with
  | nil =>
    obtain rfl : s = t := h
    simp
  | cons a as ih =>
    obtain ⟨rfl, h⟩ := h
    rw [List.map_cons, List.sum_cons, add_assoc, ← ih h, hw]

end Chained

/-! ## Logs -/

section Logs

variable [DecidableEq κ] (src tgt : α → σ) (key : α → κ)

/-- The moves of one machine. -/
def movesOf (k : κ) (log : List α) : List α := log.filter fun a => key a = k

@[simp] theorem movesOf_append (k : κ) (log as : List α) :
    movesOf key k (log ++ as) = movesOf key k log ++ movesOf key k as :=
  List.filter_append log as

@[simp] theorem movesOf_nil (k : κ) : movesOf key k [] = [] := rfl

theorem movesOf_cons_self (a : α) (as : List α) :
    movesOf key (key a) (a :: as) = a :: movesOf key (key a) as := by
  simp [movesOf]

theorem movesOf_cons_ne {k : κ} {a : α} (h : key a ≠ k) (as : List α) :
    movesOf key k (a :: as) = movesOf key k as := by
  simp [movesOf, h]

/-- Replays moves on the states of the machines. -/
def Moves : (κ → Option σ) → List α → (κ → Option σ) → Prop
  | state, [], state' => state' = state
  | state, a :: as, state' =>
    state (key a) = some (src a) ∧ Moves (Function.update state (key a) (some (tgt a))) as state'

/-- Every move is of a machine that exists, and the moves of each machine lead from the initial
state to its state. -/
structure Audited (init : σ) (state : κ → Option σ) (log : List α) : Prop where
  known : ∀ a ∈ log, (state (key a)).isSome
  chain : ∀ k s, state k = some s → Chained src tgt init (movesOf key k log) s

variable {src tgt key} {init s : σ} {state state' : κ → Option σ} {log links : List α} {k : κ}

theorem audited_empty : Audited src tgt key init (fun _ => none) [] where
  known _ h := nomatch h
  chain _ _ h := nomatch h

/-- A new machine has no move. -/
theorem Audited.create (h : Audited src tgt key init state log) (hk : state k = none) :
    Audited src tgt key init (Function.update state k (some init)) log where
  known a ha := by
    by_cases hkey : key a = k
    · simp [hkey]
    · rw [Function.update_of_ne hkey]
      exact h.known a ha
  chain k' s hs := by
    by_cases hkey : k' = k
    · subst hkey
      rw [Function.update_self] at hs
      have hnone : movesOf key k' log = [] := by
        refine List.filter_eq_nil_iff.mpr fun a ha => ?_
        have hknown := h.known a ha
        intro hkey
        rw [decide_eq_true_eq] at hkey
        rw [hkey, hk] at hknown
        cases hknown
      rw [hnone]
      exact Option.some.inj hs
    · rw [Function.update_of_ne hkey] at hs
      exact h.chain k' s hs

/-- One more move, from the state of its machine. -/
theorem Audited.record (h : Audited src tgt key init state log) {a : α}
    (ha : state (key a) = some (src a)) :
    Audited src tgt key init (Function.update state (key a) (some (tgt a))) (log ++ [a]) where
  known b hb := by
    by_cases hkey : key b = key a
    · simp [hkey]
    · rw [Function.update_of_ne hkey]
      rcases List.mem_append.mp hb with hb | hb
      · exact h.known b hb
      · rw [List.mem_singleton.mp hb] at hkey
        exact absurd rfl hkey
  chain k s hs := by
    by_cases hkey : key a = k
    · subst hkey
      rw [Function.update_self] at hs
      rw [movesOf_append, movesOf_cons_self, movesOf_nil, chained_append]
      exact ⟨src a, h.chain _ _ ha, chained_singleton.mpr ⟨rfl, Option.some.inj hs⟩⟩
    · rw [Function.update_of_ne (Ne.symm hkey)] at hs
      rw [movesOf_append, movesOf_cons_ne key hkey, movesOf_nil, List.append_nil]
      exact h.chain k s hs

theorem Audited.moves (h : Audited src tgt key init state log)
    (hmoves : Moves src tgt key state links state') :
    Audited src tgt key init state' (log ++ links) := by
  induction links generalizing state log with
  | nil =>
    obtain rfl : state' = state := hmoves
    rwa [List.append_nil]
  | cons a links ih =>
    obtain ⟨ha, hmoves⟩ := hmoves
    have hrest := ih (h.record ha) hmoves
    rwa [List.append_assoc, List.singleton_append] at hrest

/-- A replay leads every machine along its own moves. -/
theorem Moves.chained (h : Moves src tgt key state links state') (hk : state k = some s) :
    ∃ s', state' k = some s' ∧ Chained src tgt s (movesOf key k links) s' := by
  induction links generalizing state s with
  | nil =>
    obtain rfl : state' = state := h
    exact ⟨s, hk, rfl⟩
  | cons a links ih =>
    obtain ⟨ha, h⟩ := h
    by_cases hkey : key a = k
    · subst hkey
      obtain ⟨s', hs', hchain⟩ := ih h (Function.update_self ..)
      obtain rfl : src a = s := Option.some.inj (ha.symm.trans hk)
      rw [movesOf_cons_self]
      exact ⟨s', hs', rfl, hchain⟩
    · rw [movesOf_cons_ne key hkey]
      exact ih h ((Function.update_of_ne (Ne.symm hkey) ..).trans hk)

end Logs

end AeepRouter.Lib

import AeepRouter.Lib.Run
import Mathlib.Logic.Relation

/-!
# Processes that raise and crash

A process works on a state `σ` that outlives it. It returns a value, raises an exception, or crashes,
and in each case leaves the state as far as it got; a handler sees exceptions and no crash.

`Does step P m Q E` says what a process does from the states that meet `P`: it changes the state by
steps of `step` however it ends, leaves `Q` when it returns and `E` when it raises. What the steps
keep (`Stable`) is thus kept by every process made of them, at every point where it may crash.
-/

namespace AeepRouter.Lib

/-- How a process ends. -/
inductive Ending (ε α : Type) where
  | returned (a : α)
  | raised (e : ε)
  | crashed
  deriving DecidableEq, Repr

/-- A process over a state. -/
def Process (ε σ α : Type) := σ → Ending ε α × σ

namespace Process

variable {ε σ α β : Type}

protected def pure (a : α) : Process ε σ α := fun s => (.returned a, s)

protected def bind (m : Process ε σ α) (f : α → Process ε σ β) : Process ε σ β := fun s =>
  match m s with
  | (.returned a, s') => f a s'
  | (.raised e, s') => (.raised e, s')
  | (.crashed, s') => (.crashed, s')

instance : Monad (Process ε σ) where
  pure := Process.pure
  bind := Process.bind

/-- Raises without touching the state. -/
def raise (e : ε) : Process ε σ α := fun s => (.raised e, s)

/-- Reads the state. -/
def get : Process ε σ σ := fun s => (.returned s, s)

/-- Rewrites the state. -/
def update (f : σ → σ) : Process ε σ Unit := fun s => (.returned (), f s)

def rescue (m : Process ε σ α) (handler : ε → Process ε σ α) : Process ε σ α := fun s =>
  match m s with
  | (.raised e, s') => handler e s'
  | ended => ended

/-- Hands what a process raises to a handler, if it is of a kind the handler takes. -/
def guarded (caught : ε → Bool) (m : Process ε σ α) (handler : ε → Process ε σ α) :
    Process ε σ α :=
  m.rescue fun e => if caught e then handler e else raise e

/-- A predicate every step keeps. -/
def Stable (step : σ → σ → Prop) (F : σ → Prop) : Prop := ∀ s s', step s s' → F s → F s'

theorem Stable.moves {step : σ → σ → Prop} {F : σ → Prop} (hF : Stable step F) {s s' : σ}
    (h : Relation.ReflTransGen step s s') (hs : F s) : F s' := by
  induction h with
  | refl => exact hs
  | tail _ hstep ih => exact hF _ _ hstep ih

/-- What a process does from the states that meet `P`. -/
structure Does (step : σ → σ → Prop) (P : σ → Prop) (m : Process ε σ α) (Q : α → σ → Prop)
    (E : ε → σ → Prop) : Prop where
  moves : ∀ s, P s → Relation.ReflTransGen step s (m s).2
  returns : ∀ s a s', P s → m s = (.returned a, s') → Q a s'
  raises : ∀ s e s', P s → m s = (.raised e, s') → E e s'

namespace Does

variable {step : σ → σ → Prop} {P P' F : σ → Prop} {Q Q' : α → σ → Prop} {E E' : ε → σ → Prop}
  {m : Process ε σ α}

theorem mono (h : Does step P m Q E) (hP : ∀ s, P' s → P s) (hQ : ∀ a s, Q a s → Q' a s)
    (hE : ∀ e s, E e s → E' e s) : Does step P' m Q' E' where
  moves s hs := h.moves s (hP s hs)
  returns s a s' hs heq := hQ a s' (h.returns s a s' (hP s hs) heq)
  raises s e s' hs heq := hE e s' (h.raises s e s' (hP s hs) heq)

/-- A precondition is met by one state at a time. -/
theorem from_state (h : ∀ s, P s → Does step (· = s) m Q E) : Does step P m Q E where
  moves s hs := (h s hs).moves s rfl
  returns s a s' hs heq := (h s hs).returns s a s' rfl heq
  raises s e s' hs heq := (h s hs).raises s e s' rfl heq

/-- What the steps keep, a process keeps. -/
theorem frame (hF : Stable step F) (h : Does step P m Q E) :
    Does step (fun s => P s ∧ F s) m (fun a s => Q a s ∧ F s) (fun e s => E e s ∧ F s) := by
  have hkept : ∀ s ending s', P s ∧ F s → m s = (ending, s') → F s' := fun s ending s' hs heq =>
    hF.moves (by simpa [heq] using h.moves s hs.1) hs.2
  exact ⟨fun s hs => h.moves s hs.1,
    fun s a s' hs heq => ⟨h.returns s a s' hs.1 heq, hkept s _ s' hs heq⟩,
    fun s e s' hs heq => ⟨h.raises s e s' hs.1 heq, hkept s _ s' hs heq⟩⟩

theorem pure {a : α} (h : ∀ s, P s → Q a s) : Does step P (Pure.pure a : Process ε σ α) Q E where
  moves _ _ := .refl
  returns s _ _ hs heq := by
    cases heq
    exact h s hs
  raises _ _ _ _ heq := by cases heq

theorem raise {e : ε} (h : ∀ s, P s → E e s) :
    Does step P (Process.raise e : Process ε σ α) Q E where
  moves _ _ := .refl
  returns _ _ _ _ heq := by cases heq
  raises s _ _ hs heq := by
    cases heq
    exact h s hs

theorem update {f : σ → σ} {Q : Unit → σ → Prop} (hstep : ∀ s, P s → step s (f s))
    (h : ∀ s, P s → Q () (f s)) : Does step P (Process.update f : Process ε σ Unit) Q E where
  moves s hs := .single (hstep s hs)
  returns s _ _ hs heq := by
    cases heq
    exact h s hs
  raises _ _ _ _ heq := by cases heq

theorem bind {f : α → Process ε σ β} {T : β → σ → Prop} (hm : Does step P m Q E)
    (hf : ∀ a, Does step (Q a) (f a) T E) : Does step P (m >>= f) T E := by
  constructor
  · intro s hs
    have hfirst := hm.moves s hs
    change Relation.ReflTransGen step s (m.bind f s).2
    unfold Process.bind
    split
    · next a s' heq =>
      rw [heq] at hfirst
      exact hfirst.trans ((hf a).moves s' (hm.returns s a s' hs heq))
    · next heq =>
      rw [heq] at hfirst
      exact hfirst
    · next heq =>
      rw [heq] at hfirst
      exact hfirst
  · intro s b s' hs heq
    change m.bind f s = _ at heq
    unfold Process.bind at heq
    split at heq
    · next a t hfirst => exact (hf a).returns t b s' (hm.returns s a t hs hfirst) heq
    · cases heq
    · cases heq
  · intro s e s' hs heq
    change m.bind f s = _ at heq
    unfold Process.bind at heq
    split at heq
    · next a t hfirst => exact (hf a).raises t e s' (hm.returns s a t hs hfirst) heq
    · next e' t hfirst =>
      cases heq
      exact hm.raises s e s' hs hfirst
    · cases heq

theorem rescue {handler : ε → Process ε σ α} (hm : Does step P m Q E)
    (hhandler : ∀ e, Does step (E e) (handler e) Q E') : Does step P (m.rescue handler) Q E' := by
  constructor
  · intro s hs
    have hfirst := hm.moves s hs
    unfold Process.rescue
    split
    · next e s' heq =>
      rw [heq] at hfirst
      exact hfirst.trans ((hhandler e).moves s' (hm.raises s e s' hs heq))
    · exact hfirst
  · intro s a s' hs heq
    unfold Process.rescue at heq
    split at heq
    · next e t hfirst => exact (hhandler e).returns t a s' (hm.raises s e t hs hfirst) heq
    · exact hm.returns s a s' hs heq
  · intro s e s' hs heq
    unfold Process.rescue at heq
    split at heq
    · next e' t hfirst => exact (hhandler e').raises t e s' (hm.raises s e' t hs hfirst) heq
    · next hnot => exact absurd heq (hnot e s')

theorem guarded {caught : ε → Bool} {handler : ε → Process ε σ α} (hm : Does step P m Q E)
    (hhandler : ∀ e, caught e → Does step (E e) (handler e) Q E')
    (hpass : ∀ e s, ¬ caught e → E e s → E' e s) : Does step P (m.guarded caught handler) Q E' := by
  refine hm.rescue fun e => ?_
  by_cases hcaught : caught e
  · rw [if_pos hcaught]
    exact hhandler e hcaught
  · rw [if_neg hcaught]
    exact .raise fun s hs => hpass e s hcaught hs

end Does

end Process

end AeepRouter.Lib

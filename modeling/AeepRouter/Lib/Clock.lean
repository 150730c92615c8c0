import AeepRouter.Lib.Run

/-!
# Runs under a clock

A timed state is a state and the instant the clock reads. Time passes or an input is applied; the
clock never goes back. A property of the state and the instant that time cannot falsify and every
input keeps holds over every run (`Timed.run_invariant`).
-/

namespace AeepRouter.Lib

/-- A state and the clock, in microseconds. -/
structure Timed (σ : Type) where
  now : Int
  state : σ
  deriving DecidableEq

inductive TimedEvent (ι : Type) where
  | elapse (microseconds : ℕ)
  | act (input : ι)
  deriving DecidableEq

namespace Timed

variable {σ ι : Type} (apply : σ → ι → σ)

def step (c : Timed σ) : TimedEvent ι → Timed σ
  | .elapse microseconds => { c with now := c.now + microseconds }
  | .act input => { c with state := apply c.state input }

/-- An input meets a condition on the instant and the state it finds. -/
def Meets (P : Int → σ → ι → Prop) (c : Timed σ) : TimedEvent ι → Prop
  | .elapse _ => True
  | .act input => P c.now c.state input

instance (P : Int → σ → ι → Prop) [∀ now s i, Decidable (P now s i)] (c : Timed σ)
    (event : TimedEvent ι) : Decidable (Meets P c event) := by
  cases event <;> unfold Meets <;> infer_instance

variable {apply} {P : Int → σ → ι → Prop} (Inv : Int → σ → Prop)

/-- What neither the clock nor an input falsifies holds over every run. -/
theorem run_invariant (helapse : ∀ now later s, now ≤ later → Inv now s → Inv later s)
    (hact : ∀ now s i, Inv now s → P now s i → Inv now (apply s i)) {c : Timed σ}
    {events : List (TimedEvent ι)} (hadm : Admissible (step apply) (Meets P) c events)
    (hc : Inv c.now c.state) :
    Inv (run (step apply) c events).now (run (step apply) c events).state := by
  refine @run_invariant_of_admissible _ _ _ _ (fun c : Timed σ => Inv c.now c.state) ?_ _ _ hc hadm
  intro c event hc hevent
  cases event with
  | elapse microseconds =>
    have hle : c.now ≤ c.now + microseconds := by omega
    exact helapse c.now _ c.state hle hc
  | act input => exact hact c.now c.state input hc hevent

end Timed

end AeepRouter.Lib

import AeepRouter.Attempt.Lifecycle

/-!
# The attempt tables as a machine

`AttemptOp` lists the transactions on holds, attempts and task scopes, each with the times its caller
gives it or reads from the clock. A transaction that raises leaves the store as it was.
-/

namespace AeepRouter

open Lib

inductive AttemptOp where
  | reserveCapacity (reservation : CapacityReservation) (knownAvailable : Option ℚ) (now : Int)
  | claimCapacity (reservationId claimToken : String) (expectedVersion now : Int)
  | releaseCapacity (reservationId : String) (expectedVersion now : Int)
  | create (attempt : ExecutionAttempt) (now : Int)
  | claim (attemptId ownerId : String) (claimedAt leaseExpiresAt : Int)
  | transition (call : AttemptCall)
  | put (kind identity : String) (value : AssessmentValue)
  | review (digest : String) (revoke : Bool) (now : Int)

/-- A transaction with its result dropped. -/
def AttemptM.drop {α : Type} (m : AttemptM α) : AttemptM Unit := fun s =>
  (m s).map fun p => ((), p.2)

theorem AttemptM.drop_ok {α : Type} {m : AttemptM α} {s s' : AttemptStore} {u : Unit} :
    m.drop s = .ok (u, s') ↔ ∃ a, m s = .ok (a, s') := by
  unfold AttemptM.drop
  cases h : m s with
  | error e => simp [Except.map]
  | ok p =>
    obtain ⟨a, t⟩ := p
    simp [Except.map]

def AttemptM.onDefinitions (f : Definitions → Result Definitions) : AttemptM Unit := fun s =>
  (f s.definitions).map fun d => ((), { s with definitions := d })

theorem AttemptM.onDefinitions_ok {f : Definitions → Result Definitions} {s s' : AttemptStore}
    {u : Unit} : AttemptM.onDefinitions f s = .ok (u, s') ↔
      ∃ d, f s.definitions = .ok d ∧ s' = { s with definitions := d } := by
  unfold AttemptM.onDefinitions
  cases h : f s.definitions with
  | error e => simp [Except.map]
  | ok d => simp [Except.map, eq_comm]

section Machine

variable (contentDigest : AssessmentValue → String)

/-- Runs a transaction. -/
def AttemptOp.exec : AttemptOp → AttemptM Unit
  | reserveCapacity reservation knownAvailable now =>
    (AeepRouter.reserveCapacity reservation knownAvailable now).drop
  | claimCapacity reservationId claimToken expectedVersion now =>
    (claimCapacityReservation reservationId claimToken expectedVersion now).drop
  | releaseCapacity reservationId expectedVersion now =>
    (releaseCapacityReservation reservationId expectedVersion now).drop
  | create attempt now => (createExecutionAttempt attempt now).drop
  | claim attemptId ownerId claimedAt leaseExpiresAt =>
    (claimExecutionAttempt attemptId ownerId claimedAt leaseExpiresAt).drop
  | transition call => (transitionExecutionAttempt call).drop
  | put kind identity value =>
    .onDefinitions fun d => (d.put contentDigest kind identity value).map (·.2)
  | review digest revoke now => .onDefinitions fun d => d.review digest revoke now

/-- The store after a transaction, which a failure leaves as it was. -/
def AttemptStore.apply (s : AttemptStore) (op : AttemptOp) : AttemptStore :=
  commit (op.exec contentDigest s) s

theorem AttemptStore.apply_ok {s s' : AttemptStore} {op : AttemptOp}
    (h : op.exec contentDigest s = .ok ((), s')) : s.apply contentDigest op = s' := by
  unfold apply
  rw [h]
  rfl

theorem AttemptStore.apply_error {s : AttemptStore} {op : AttemptOp} {e : Err}
    (h : op.exec contentDigest s = .error e) : s.apply contentDigest op = s := by
  unfold apply
  rw [h]
  rfl

/-- What every successful transaction keeps. -/
theorem AttemptStore.apply_induction {P : AttemptStore → Prop} {s : AttemptStore} {op : AttemptOp}
    (h : P s) (hok : ∀ s', op.exec contentDigest s = .ok ((), s') → P s') :
    P (s.apply contentDigest op) :=
  commit_induction h fun _ s' hs' => hok s' hs'

end Machine

end AeepRouter

import AeepRouter.Assessment.Records

/-!
# Capacity holds and execution attempts

The rows of `capacity_reservations`, `execution_attempts` and `execution_attempt_transitions`. A
hold is the model `_capacity_reservation_from_row` rebuilds: its payload under the columns a
transaction updates. An attempt is its payload, which every update writes with the columns. Patterns
and lengths of the fields that no transaction writes are left out; all instants are aware.
-/

namespace AeepRouter

open Lib

/-! ## Holds -/

inductive CapacityReservationStatus where
  | reserved
  | claimed
  | released
  | expired
  | consumed
  deriving DecidableEq, Repr

/-- The value of the enumeration member. -/
def CapacityReservationStatus.text : CapacityReservationStatus → String
  | reserved => "reserved"
  | claimed => "claimed"
  | released => "released"
  | expired => "expired"
  | consumed => "consumed"

@[ext] structure CapacityReservation where
  reservationId : String
  resourceId : String
  executionId : String
  maximumQuantity : ℚ
  unit : String
  expiresAt : Int
  status : CapacityReservationStatus
  idempotencyKey : String
  claimToken : Option String
  version : ℕ
  createdAt : Int
  updatedAt : Int
  nonneg : 0 ≤ maximumQuantity

instance : DecidableEq CapacityReservation := fun _ _ =>
  decidable_of_iff _ CapacityReservation.ext_iff.symm

abbrev HoldTable := Table CapacityReservation (·.reservationId)

abbrev HoldRewrite := Table.Rewrite (α := CapacityReservation) (·.reservationId)

namespace CapacityReservation

/-- What a retry under the idempotency key must repeat. -/
def binding (hold : CapacityReservation) : String × String × ℚ × String × Int :=
  (hold.resourceId, hold.executionId, hold.maximumQuantity, hold.unit, hold.expiresAt)

/-- The row of a new hold. -/
def opened (hold : CapacityReservation) : CapacityReservation :=
  { hold with status := .reserved, claimToken := none, version := 0 }

/-- A hold counted against its resource at an instant. -/
def Live (now : Int) (hold : CapacityReservation) : Prop :=
  hold.status = .reserved ∧ now < hold.expiresAt ∨ hold.status = .claimed

instance (now : Int) : DecidablePred (Live now) := fun _ => by unfold Live; infer_instance

def claim (token : Option String) (now : Int) : HoldRewrite where
  toFun row :=
    { row with status := .claimed, claimToken := token, version := row.version + 1, updatedAt := now }
  keeps _ := rfl

def release (now : Int) : HoldRewrite where
  toFun row := { row with status := .released, version := row.version + 1, updatedAt := now }
  keeps _ := rfl

end CapacityReservation

/-! ## Attempts -/

inductive ExecutionAttemptState where
  | created
  | claimed
  | reserved
  | invoking
  | validating
  | settling
  | completed
  | failed
  | rejected
  | cancelled
  | indeterminate
  | disputed
  deriving DecidableEq, Repr

namespace ExecutionAttemptState

/-- The value of the enumeration member. -/
def text : ExecutionAttemptState → String
  | created => "CREATED"
  | claimed => "CLAIMED"
  | reserved => "RESERVED"
  | invoking => "INVOKING"
  | validating => "VALIDATING"
  | settling => "SETTLING"
  | completed => "COMPLETED"
  | failed => "FAILED"
  | rejected => "REJECTED"
  | cancelled => "CANCELLED"
  | indeterminate => "INDETERMINATE"
  | disputed => "DISPUTED"

def transitions : ExecutionAttemptState → List ExecutionAttemptState
  | created => [claimed, cancelled, rejected, failed]
  | claimed => [reserved, cancelled, failed]
  | reserved => [invoking, cancelled, failed, indeterminate]
  | invoking => [validating, failed, indeterminate, disputed]
  | validating => [settling, failed, rejected, indeterminate]
  | settling => [completed, failed, rejected, indeterminate, disputed]
  | indeterminate => [settling, disputed]
  | disputed => [settling]
  | completed | failed | rejected | cancelled => []

/-- The states the store counts as final. -/
def terminal : ExecutionAttemptState → Bool
  | completed | failed | rejected | cancelled => true
  | _ => false

theorem transitions_of_terminal {state : ExecutionAttemptState} (h : state.terminal) :
    state.transitions = [] := by
  cases state <;> first | rfl | cases h

/-- An attempt never comes back to `CREATED`. -/
theorem created_not_mem_transitions (state : ExecutionAttemptState) :
    created ∉ state.transitions := by
  cases state <;> decide

theorem eq_created_of_claimed_mem {state : ExecutionAttemptState}
    (h : claimed ∈ state.transitions) : state = created := by
  cases state <;> first | rfl | exact absurd h (by decide)

end ExecutionAttemptState

structure AttemptFields where
  taskScopeDigest : Option String
  attemptId : String
  decisionId : String
  preparedId : Option String
  actionDigest : String
  executorId : String
  executorFingerprint : String
  sideEffect : SideEffect
  idempotent : Bool
  ownerId : Option String
  leaseExpiresAt : Option Int
  heartbeatAt : Option Int
  version : ℕ
  state : ExecutionAttemptState
  externalAttemptDigest : Option String
  externalThreadDigest : Option String
  externalTurnDigest : Option String
  cashReservationIds : List String
  capacityReservationIds : List String
  invocationStartDigest : Option String
  retryEligible : Bool
  recoveryReason : Option String
  terminalReceiptIds : List String
  createdAt : Int
  updatedAt : Int
  deriving DecidableEq

/-- A text that matches `^sha256:[a-f0-9]{64}$`. -/
def isSha256 (text : String) : Bool :=
  text.toList.take 7 = "sha256:".toList ∧ (text.toList.drop 7).length = 64 ∧
    (text.toList.drop 7).all fun c => c.isDigit || ('a' ≤ c && c ≤ 'f')

namespace AttemptFields

/-- The first fault of the fields a transaction may set and of `valid_attempt`. -/
def fault (a : AttemptFields) : Option String :=
  if a.ownerId.any (200 < ·.length) then some "String should have at most 200 characters"
  else if [a.externalAttemptDigest, a.externalThreadDigest, a.externalTurnDigest,
      a.invocationStartDigest].any (·.any (!isSha256 ·)) then
    some "String should match pattern '^sha256:[a-f0-9]\x7b64\x7d$'"
  else if a.recoveryReason.any (2000 < ·.length) then
    some "String should have at most 2000 characters"
  else if a.updatedAt < a.createdAt then some "execution attempt cannot be updated before creation"
  else if a.state ≠ .created ∧ a.ownerId = none then some "claimed execution attempts require an owner"
  else if a.state = .invoking ∧ a.invocationStartDigest = none then
    some "INVOKING requires durable invocation-start evidence"
  else if a.retryEligible ∧ (¬ a.idempotent ∨ SideEffect.read.rank < a.sideEffect.rank) then
    some "only idempotent read-or-safer attempts may be retry eligible"
  else if ¬ a.cashReservationIds.Nodup then some "cash reservation IDs must be unique"
  else if ¬ a.capacityReservationIds.Nodup then some "capacity reservation IDs must be unique"
  else none

theorem nodup_of_fault {a : AttemptFields} (h : a.fault = none) :
    a.capacityReservationIds.Nodup := by
  unfold fault at h
  simp only [ite_some_eq_none, not_not] at h
  tauto

end AttemptFields

structure ExecutionAttempt extends AttemptFields where
  valid : toAttemptFields.fault = none
  deriving DecidableEq

namespace ExecutionAttempt

def modelValidate (fields : AttemptFields) : Result ExecutionAttempt :=
  match h : fields.fault with
  | none => .ok ⟨fields, h⟩
  | some message => .error (.value message)

theorem modelValidate_ok {fields : AttemptFields} {a : ExecutionAttempt} :
    modelValidate fields = .ok a ↔ a.toAttemptFields = fields := by
  obtain ⟨b, hb⟩ := a
  unfold modelValidate
  split
  · simp [eq_comm]
  · next h =>
    constructor
    · intro hr
      cases hr
    · rintro rfl
      rw [hb] at h
      cases h

theorem capacity_nodup (a : ExecutionAttempt) : a.capacityReservationIds.Nodup :=
  AttemptFields.nodup_of_fault a.valid

end ExecutionAttempt

/-- A row of `execution_attempt_transitions`. -/
structure AttemptTransition where
  attemptId : String
  fromState : ExecutionAttemptState
  toState : ExecutionAttemptState
  version : ℕ
  occurredAt : Int
  reason : Option String
  deriving DecidableEq, Repr

/-- The primary key, `f"{attempt_id}:{version}"`. -/
def AttemptTransition.transitionId (t : AttemptTransition) : String :=
  t.attemptId ++ ":" ++ toString t.version

/-! ## The tables -/

structure AttemptStore where
  reservations : HoldTable
  attempts : Table ExecutionAttempt (·.attemptId)
  transitions : Table AttemptTransition AttemptTransition.transitionId
  definitions : Definitions

/-- A store just created. -/
def AttemptStore.empty : AttemptStore := ⟨∅, ∅, ∅, .empty⟩

end AeepRouter

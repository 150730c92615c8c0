import AeepRouter.Router.World

/-!
# Keys and attempts as the router moves them

What the calls of the router share: the transactions on the record of an action's key, and the durable
attempt, which is advanced together with a capacity hold.
-/

namespace AeepRouter

/-- The value of the enumeration member. -/
def SideEffect.text : SideEffect → String
  | none => "none"
  | read => "read"
  | write => "write"
  | destructive => "destructive"
  | financial => "financial"

namespace Router

open Lib

def textContains (needle text : String) : Bool :=
  text.toList.tails.any (needle.toList.isPrefixOf ·)

/-- A result wrapped and dropped is dropped. -/
theorem wrap_drop {α β : Type} (m : StoreM α) (f : α → β) (s : Store) :
    ((m.wrap f).wrap fun _ => ()) s = (m.wrap fun _ => ()) s := by
  unfold StoreM.wrap
  cases m s <;> rfl

namespace Transaction

def onAction {α : Type} (op : ActionOp) (m : StoreM α) (f : α → KeyOutcome)
    (h : op.exec = m.wrap f) : Transaction α where
  op := .action op
  run _ := m
  runs _ s := by
    show (op.exec.wrap fun _ => ()) s = _
    rw [h]
    exact wrap_drop m f s

def markIdempotencyExecuting (key : String) : Transaction Unit :=
  .onAction (.markExecuting key) (AeepRouter.markIdempotencyExecuting key) (fun _ => .done) rfl

def markIdempotencyIndeterminate (key : String) : Transaction Unit :=
  .onAction (.markIndeterminate key) (AeepRouter.markIdempotencyIndeterminate key) (fun _ => .done)
    rfl

def completeIdempotency (key decisionId status : String) (receiptIds : List String) :
    Transaction Unit :=
  .onAction (.complete key decisionId status receiptIds)
    (AeepRouter.completeIdempotency key decisionId status receiptIds) (fun _ => .done) rfl

end Transaction

namespace AttemptTransaction

def create (attempt : ExecutionAttempt) (now : Int) : AttemptTransaction ExecutionAttempt where
  op := .create attempt now
  run := createExecutionAttempt attempt now
  runs _ _ := rfl

def claim (attemptId ownerId : String) (claimedAt leaseExpiresAt : Int) :
    AttemptTransaction ExecutionAttempt where
  op := .claim attemptId ownerId claimedAt leaseExpiresAt
  run := claimExecutionAttempt attemptId ownerId claimedAt leaseExpiresAt
  runs _ _ := rfl

def transition (call : AttemptCall) : AttemptTransaction ExecutionAttempt where
  op := .transition call
  run := transitionExecutionAttempt call
  runs _ _ := rfl

def reserveCapacity (hold : CapacityReservation) (known : Option ℚ) (now : Int) :
    AttemptTransaction CapacityReservation where
  op := .reserveCapacity hold known now
  run := AeepRouter.reserveCapacity hold known now
  runs _ _ := rfl

def releaseCapacity (reservationId : String) (expectedVersion now : Int) :
    AttemptTransaction CapacityReservation where
  op := .releaseCapacity reservationId expectedVersion now
  run := releaseCapacityReservation reservationId expectedVersion now
  runs _ _ := rfl

end AttemptTransaction

/-! ## Attempts -/

/-- The attempt updated last; of several, the one created last. -/
def latestAttempt (attempts : List ExecutionAttempt) : Option ExecutionAttempt :=
  attempts.foldl (fun best attempt =>
    if ∀ other ∈ best, other.updatedAt ≤ attempt.updatedAt then some attempt else best) none

def executionAttemptForDecision (attempts : AttemptStore) (decisionId : String) :
    Option ExecutionAttempt :=
  latestAttempt (attempts.attempts.rows.filter (·.decisionId = decisionId))

/-- The keyword updates a call of `_advance_attempt` passes. -/
structure AttemptUpdates where
  cashReservationIds : Option (List String) := none
  invocationStartDigest : Option String := none
  terminalReceiptIds : Option (List String) := none

def AttemptUpdates.call (updates : AttemptUpdates) (attempt : ExecutionAttempt)
    (target : ExecutionAttemptState) (updatedAt : Int) (reason : String)
    (hold : Option CapacityReservation) : AttemptCall where
  attemptId := attempt.attemptId
  expectedState := attempt.state
  expectedVersion := attempt.version
  targetState := target
  updatedAt := updatedAt
  reason := some reason
  cashReservationIds := updates.cashReservationIds
  capacityReservationIds := hold.map fun h => [h.reservationId]
  invocationStartDigest := updates.invocationStartDigest
  externalAttemptDigest := none
  externalThreadDigest := none
  externalTurnDigest := none
  terminalReceiptIds := updates.terminalReceiptIds

section Steps

variable (site : Site)

def reserveAttemptCapacity (attempt : ExecutionAttempt) (spec : ExecutorSpec) :
    RouterM (Option CapacityReservation) := do
  if ¬ spec.isManagedHost then pure none
  else do
    proceed site
    match ← draw Env.capacity with
    | none => pure none
    | some (hold, known) => do
      let now ← economicNow
      let held ← attemptTransact site (.reserveCapacity
        { hold with
          executionId := attempt.attemptId
          idempotencyKey := attempt.attemptId ++ ":capacity" } known now)
      pure (some held)

/-- The hold an attempt takes when it becomes `RESERVED`. -/
def attemptHold (attempt : ExecutionAttempt) (target : ExecutionAttemptState)
    (capacitySpec : Option ExecutorSpec) : RouterM (Option CapacityReservation) :=
  match capacitySpec with
  | some spec =>
    if target = .reserved then reserveAttemptCapacity site attempt spec else pure none
  | none => pure none

/-- Gives back the hold of an attempt that could not be advanced. -/
def giveBack (hold : Option CapacityReservation) : RouterM Unit :=
  match hold with
  | none => pure ()
  | some h => do
    let now ← economicNow
    let _ ← attemptTransact site (.releaseCapacity h.reservationId h.version now)

def advanceAttempt (attempt : ExecutionAttempt) (target : ExecutionAttemptState) (reason : String)
    (updates : AttemptUpdates) (capacitySpec : Option ExecutorSpec) : RouterM ExecutionAttempt := do
  let hold ← attemptHold site attempt target capacitySpec
  let now ← economicNow
  (attemptTransact site (.transition (updates.call attempt target now reason hold))).guarded
    Fault.isException fun fault => do
      giveBack site hold
      Process.raise fault

def newAttempt (preparedId actionDigest : String) (spec : ExecutorSpec) (attemptId : String)
    (taskScopeDigest : Option String) (now : Int) : AttemptFields where
  taskScopeDigest := taskScopeDigest
  attemptId := attemptId
  decisionId := preparedId
  preparedId := some preparedId
  actionDigest := actionDigest
  executorId := spec.id
  executorFingerprint := spec.fingerprint
  sideEffect := spec.sideEffect
  idempotent := spec.idempotent
  ownerId := none
  leaseExpiresAt := none
  heartbeatAt := none
  version := 0
  state := .created
  externalAttemptDigest := none
  externalThreadDigest := none
  externalTurnDigest := none
  cashReservationIds := []
  capacityReservationIds := []
  invocationStartDigest := none
  retryEligible := spec.idempotent ∧ spec.sideEffect.rank ≤ SideEffect.read.rank
  recoveryReason := none
  terminalReceiptIds := []
  createdAt := now
  updatedAt := now

def hour : Int := 3600000000

def terminalAttemptState (receipt : LocalReceipt) (spec : ExecutorSpec) (attempt : ExecutionAttempt) :
    ExecutionAttemptState :=
  if receipt.status ∈ [.success, .delegated, .hostSelected] ∧ receipt.outputValid ≠ some false ∧
      receipt.taskValid ≠ some false then .completed
  else if attempt.taskScopeDigest.isSome ∧ SideEffect.read.rank < attempt.sideEffect.rank then
    .indeterminate
  else if receipt.status = .rejected then .rejected
  else if receipt.status ∈ [.timeout, .unknown] ∧ (spec.isManagedHost ∨ ¬ attempt.retryEligible) then
    .indeterminate
  else .failed

end Steps

end Router

end AeepRouter

import AeepRouter.Store.Prepared

/-!
# Reservations

`reservePaymentV2` adds up what the store has committed and inserts the reservation if the total
stays within the limits; `transitionPaymentReservationV2` moves a hold between its open states;
`claimPaymentIntentV2` records that a release or a settlement is under way, before the rail is
asked for it.
-/

namespace AeepRouter

open Lib

/-! ## Committed cash -/

/-- The states in which a reservation no longer holds its maximum. -/
def PaymentReservationState.closed (state : PaymentReservationState) : Bool :=
  state ∈ [.settled, .released]

namespace Store

variable (s : Store)

/-- Whether the reservation of an id is settled, as the joins on its state ask. -/
def isSettled (reservationId : String) : Prop :=
  ∃ row ∈ s.reservations.find? reservationId, row.state = .settled

instance (reservationId : String) : Decidable (s.isSettled reservationId) := by
  unfold isSettled; infer_instance

/-- Whether the settlement of an id belongs to a settled reservation. -/
def isCaptured (settlementId : String) : Prop :=
  ∃ receipt ∈ s.settlements.find? settlementId, s.isSettled receipt.reservationId

instance (settlementId : String) : Decidable (s.isCaptured settlementId) := by
  unfold isCaptured; infer_instance

/-- The maxima of the reservations still open in a currency. -/
def outstanding (currency : String) : List ℚ :=
  s.reservations.select
    (fun row => row.payload.maximumAmount.currency = currency ∧ ¬ row.state.closed)
    (·.payload.maximumAmount.amount)

def captures (currency : String) (since : Option Int) : List ℚ :=
  s.settlements.select
    (fun receipt => receipt.reservedAmount.currency = currency ∧
      s.isSettled receipt.reservationId ∧ ∀ start ∈ since, start ≤ receipt.settledAt)
    (·.capturedAmount.amount)

def refundedAmounts (currency : String) (since : Option Int) : List ℚ :=
  s.refunds.select
    (fun refund => refund.amount.currency = currency ∧ s.isCaptured refund.settlementId ∧
      ∀ start ∈ since, start ≤ refund.refundedAt)
    (·.amount.amount)

def missingSettlement (currency : String) : Prop :=
  ∃ row ∈ s.reservations.rows, row.payload.maximumAmount.currency = currency ∧
    row.state = .settled ∧ ∀ receipt ∈ s.settlements.rows, receipt.reservationId ≠ row.reservationId

instance (currency : String) : Decidable (s.missingSettlement currency) := by
  unfold missingSettlement; infer_instance

def committedAmount (currency : String) (since : Option Int) : Result ℚ := do
  refuseIf (s.missingSettlement currency)
    "settled reservation is missing immutable settlement evidence"
  let captured := decSum (s.captures currency since)
  let refunded := decSum (s.refundedAmounts currency since)
  pure (dec (decSum (s.outstanding currency) + max 0 (dec (captured - refunded))))

/-- Refuses an amount that does not fit under a limit. -/
def requireWithin (limit : Option CurrencyAmount) (amount : CurrencyAmount) (since : Option Int)
    (message : String) : Result Unit :=
  match limit with
  | none => pure ()
  | some limit => do
    let committed ← s.committedAmount amount.currency since
    refuseIf (limit.amount < dec (committed + amount.amount)) message

end Store

/-! ## Reserving -/

/-- The arguments of `reserve_payment_v2`. -/
structure ReserveCall where
  reservation : PaymentReservationV2
  claimToken : String
  budgetLimit : Option CurrencyAmount
  prepaidLimit : Option CurrencyAmount
  unlimitedBudget : Bool
  periodStart : Option Int
  transitionId : String

/-- The checks made before the transaction begins. -/
def ReserveCall.checkArguments (call : ReserveCall) : Result Unit := do
  refuseIf (call.reservation.state ≠ .reserved) "a new payment reservation must be RESERVED"
  refuseIf (call.claimToken = "" ∨ 256 < call.claimToken.length)
    "payment reservation requires a bounded prepared claim token"
  refuseIf (call.unlimitedBudget = call.budgetLimit.isSome)
    "choose exactly one finite or unlimited budget policy"
  refuseIf (∃ limit ∈ call.budgetLimit, call.reservation.maximumAmount.currency ≠ limit.currency)
    "payment reservation currency does not match budget currency"
  refuseIf (∃ limit ∈ call.prepaidLimit, call.reservation.maximumAmount.currency ≠ limit.currency)
    "payment reservation currency does not match prepaid currency"

def Store.existingReservation (s : Store) (reservation : PaymentReservationV2) : Option PaymentRow :=
  s.reservations.rows.find? fun row =>
    row.payload.reservationId = reservation.reservationId ∨
      row.payload.idempotencyKey = reservation.idempotencyKey

def ReserveCall.checkDecision (call : ReserveCall) (row : PreparedRow) : Result Unit := do
  let reservation := call.reservation
  refuseIf (∀ claimed ∈ row.claimedAt, reservation.updatedAt < claimed)
    "payment reservation predates its prepared claim"
  refuseIf (row.payload.expiresAt ≤ reservation.updatedAt)
    "payment reservation prepared decision has expired"
  refuseIf (row.payload.actionId ≠ reservation.actionId)
    "payment reservation is not bound to the prepared action"
  refuseIf (row.payload.basis ≠ some reservation.basis)
    "payment reservation authorization does not match prepared decision"
  refuseIf (row.payload.maximumCashAuthorization ≠ some reservation.maximumAmount)
    "payment reservation must equal the prepared maximum authorization"

def ReserveCall.transition (call : ReserveCall) : PreparedRouteTransition where
  transitionId := call.transitionId
  preparedId := call.reservation.preparedId
  fromState := .prepared
  toState := .reserved
  occurredAt := call.reservation.updatedAt
  reason := some ("payment reservation " ++ call.reservation.reservationId)
  legal := by decide

def ReserveCall.insert (call : ReserveCall) (s : Store) : Result Store := do
  s.requireWithin call.budgetLimit call.reservation.maximumAmount call.periodStart
    "payment reservation exceeds available daily budget"
  s.requireWithin call.prepaidLimit call.reservation.maximumAmount none
    "payment reservation exceeds available prepaid balance"
  let reservations ← immutableInsert "payment_reservations_v2" PaymentRow.payload PaymentRow.clash
    s.reservations (.ofReservation call.reservation)
  Store.transitionPreparedLocked { s with reservations := reservations } call.transition
    (some call.claimToken)

def reservePaymentV2 (crypto : Crypto) (call : ReserveCall) : StoreM PaymentReservationV2 :=
  fun s => do
    call.checkArguments
    let reservation := call.reservation
    let prepared ← demand (s.prepared.find? reservation.preparedId)
      "payment reservation prepared decision is missing"
    refuseIf (prepared.claimToken ≠ some call.claimToken)
      "payment reservation does not own the prepared claim"
    let checked : Result Unit := do
      call.checkDecision prepared
      let maximum ← s.evidence.authorizeReservation crypto prepared.decision reservation
      refuseIf (maximum ≠ reservation.maximumAmount)
        "payment reservation does not equal its immutable authorization maximum"
    match s.existingReservation reservation with
    | some existing => do
      refuseIf (existing.payload ≠ reservation)
        "payment reservation ID or idempotency key conflicts with existing content"
      if existing.state.closed ∧ prepared.state ∈ [.settled, .released] then
        pure (existing.reservation, s)
      else do
        refuseIf (prepared.state = .prepared) "reservation exists without its prepared transition"
        checked
        pure (existing.reservation, s)
    | none => do
      refuseIf (prepared.state ≠ .prepared) "payment reservation requires a PREPARED decision"
      checked
      let s' ← call.insert s
      pure (reservation, s')

/-! ## Moving an open hold -/

def PaymentReservationState.allowed : PaymentReservationState → List PaymentReservationState
  | reserved => [indeterminate, disputed]
  | settling => [indeterminate, disputed]
  | indeterminate => [reserved, disputed]
  | disputed | settled | released => []

/-- Rewrites the columns of a hold. -/
def Store.setReservation (s : Store) (reservationId : String)
    (f : Table.Rewrite PaymentRow.reservationId) : Store :=
  { s with reservations := s.reservations.modify reservationId f }

/-- The columns of a hold an update may move. -/
def PaymentRow.update (state : PaymentReservationState) (updatedAt : Int) (reason : Option String) :
    Table.Rewrite PaymentRow.reservationId where
  toFun row :=
    { row with state := state, updatedAt := updatedAt, indeterminateReason := reason }
  keeps _ := rfl

def transitionPaymentReservationV2 (reservationId : String)
    (expectedState : PaymentReservationState) (updated : PaymentReservationV2) :
    StoreM PaymentReservationV2 := fun s => do
  refuseIf (updated.reservationId ≠ reservationId) "updated reservation identity does not match"
  refuseIf (updated.state ∈ [.settling, .settled, .released])
    "payment operation state requires an operation-specific atomic method"
  refuseIf (updated.state ∉ expectedState.allowed)
    ("illegal payment reservation transition: " ++ expectedState.text ++ " -> " ++ updated.state.text)
  let row ← demand (s.reservations.find? reservationId) "payment reservation does not exist"
  refuseIf ({ row.payload with
      state := updated.state
      updatedAt := updated.updatedAt
      indeterminateReason := updated.indeterminateReason } ≠ updated)
    "payment reservation immutable fields cannot change"
  refuseIf (updated.updatedAt < row.updatedAt)
    "payment reservation update cannot move backward in time"
  if row.state ≠ expectedState then do
    refuseIf (¬ (row.state = updated.state ∧ row.updatedAt = updated.updatedAt ∧
        row.indeterminateReason = updated.indeterminateReason))
      "payment reservation transition lost its state race"
    pure (row.reservation, s)
  else
    pure (updated, s.setReservation reservationId
      (PaymentRow.update updated.state updated.updatedAt updated.indeterminateReason))

/-! ## Operation intents -/

/-- The arguments of `_claim_payment_intent_v2`. -/
structure IntentCall where
  reservationId : String
  intent : OperationIntent
  updatedAt : Int

/-- The state a decision must be in for an operation to begin. -/
def IntentType.requiredPreparedState : IntentType → PreparedDecisionState
  | release => .reserved
  | settle => .settling

/-- The columns of a hold whose operation is under way. -/
def IntentCall.claimed (call : IntentCall) : Table.Rewrite PaymentRow.reservationId where
  toFun row :=
    { row with
      state := .settling
      updatedAt := call.updatedAt
      indeterminateReason := if row.state = .indeterminate then none else row.indeterminateReason
      operationIntent := some call.intent }
  keeps _ := rfl

/-- The checks on a hold whose intent is not claimed yet: it recovers from an indeterminate state
with its own intent, or without any from durable evidence of the execution, or it starts from
`RESERVED`. -/
def IntentCall.checkRow (call : IntentCall) (evidence : Evidence) (row : PaymentRow)
    (prepared : PreparedRow) : Result Unit :=
  let type := call.intent.type
  if row.state = .indeterminate ∧ row.operationIntent = some call.intent then
    refuseIf (prepared.state ≠ type.requiredPreparedState)
      (type.text ++ " recovery requires prepared state " ++ type.requiredPreparedState.text)
  else if row.state = .indeterminate ∧ row.operationIntent = none then do
    refuseIf (type ≠ .settle ∨ prepared.state ≠ .settling)
      "an intent-free indeterminate hold may only resume settlement"
    let basisReproduced ← evidence.reproducesBasis prepared.payload row.payload
    refuseIf (¬ basisReproduced ∨ ¬ evidence.receiptExists prepared.payload row.payload)
      "indeterminate settlement recovery lacks durable execution evidence"
  else do
    refuseIf (row.state ≠ .reserved) "payment reservation operation intent lost its state race"
    refuseIf (row.operationIntent.isSome) "payment reservation already has an operation intent"
    refuseIf (prepared.state ≠ type.requiredPreparedState)
      (type.text ++ " intent requires prepared state " ++ type.requiredPreparedState.text)

def claimPaymentIntentV2 (call : IntentCall) : StoreM PaymentReservationV2 := fun s => do
  refuseIf (call.intent.key = "" ∨ 256 < call.intent.key.length)
    "payment operation intent requires a bounded idempotency key"
  let row ← demand (s.reservations.find? call.reservationId) "payment reservation does not exist"
  let prepared ← demand (s.prepared.find? row.payload.preparedId)
    "payment reservation does not exist"
  if row.state = .settling ∧ row.operationIntent = some call.intent then
    pure (row.reservation, s)
  else do
    call.checkRow s.evidence row prepared
    refuseIf (call.updatedAt < row.updatedAt) "payment intent cannot move backward in time"
    pure ((call.claimed row).reservation, s.setReservation call.reservationId call.claimed)

def claimPaymentReleaseV2 (reservationId idempotencyKey : String) (updatedAt : Int) :
    StoreM PaymentReservationV2 :=
  claimPaymentIntentV2 ⟨reservationId, ⟨.release, idempotencyKey⟩, updatedAt⟩

def claimPaymentSettlementV2 (reservationId idempotencyKey : String) (updatedAt : Int) :
    StoreM PaymentReservationV2 :=
  claimPaymentIntentV2 ⟨reservationId, ⟨.settle, idempotencyKey⟩, updatedAt⟩

end AeepRouter

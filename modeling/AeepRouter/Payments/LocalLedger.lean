import AeepRouter.Lib.Dictionary
import AeepRouter.Router.Payments

/-!
# The local ledger

`LocalLedgerPaymentAdapter` keeps its reservations, settlements and refunds in memory. Every
operation is run through a cache under its idempotency key; an exception leaves the ledger as far as
it got. `Answer` is what the operation asks of outside: the clock, and the reference the rail of a
subclass returns. A digest is the request it is of.
-/

namespace AeepRouter.Payments

open Lib Router

/-! ## The ledger -/

structure LocalLedgerPaymentAdapter where
  name : String
  settlementCurrency : String
  unlimitedBudget : Bool
  freeOnly : Bool
  stableOperationId : String → String → String

/-- The requests the cache tells apart. -/
inductive LedgerRequest where
  | reserve (reservation : PaymentReservationV2)
  | settle (reservation : ReservationIdentity) (actualAmount : CurrencyAmount)
      (evidence : SettlementEvidence) (evidenceReference : Option String)
  | release (reservation : ReservationIdentity) (reason : String)
  | refund (settlement : SettlementReceipt) (amount : CurrencyAmount) (reason : String)
  deriving DecidableEq

def LedgerRequest.operation : LedgerRequest → String
  | reserve _ => "reserve"
  | settle .. => "settle"
  | release .. => "release"
  | refund .. => "refund"

/-- `V2PaymentResult`, of the operations below. -/
inductive LedgerResult where
  | reservation (reservation : PaymentReservationV2)
  | settlement (receipt : SettlementReceipt)
  | refund (receipt : RefundReceiptV2)
  deriving DecidableEq

structure CachedOperation where
  operationKey : String
  request : LedgerRequest
  result : LedgerResult
  deriving DecidableEq

/-- The fields of the adapter an operation changes. -/
structure Ledger where
  balance : ℚ
  operations : Table CachedOperation (·.operationKey)
  reservations : Table PaymentReservationV2 (·.reservationId)
  chargeReservations : List (String × String)
  settlements : Table SettlementReceipt (·.settlementId)
  reservationSettlements : List (String × String)
  refunds : Table RefundReceiptV2 (·.refundId)
  deriving DecidableEq

/-- The clock, and what the callback of the rail refers to. -/
structure Answer where
  clock : Int
  reference : Result (Option String)

abbrev LedgerM := Process Err Ledger

def outstanding (state : PaymentReservationState) : Bool :=
  state ∈ [.reserved, .settling, .indeterminate, .disputed]

def LocalLedgerPaymentAdapter.availableBalance (adapter : LocalLedgerPaymentAdapter)
    (ledger : Ledger) : Option ℚ :=
  if adapter.unlimitedBudget then none
  else
    let held := decSum (ledger.reservations.select (fun r => outstanding r.state)
      (·.maximumAmount.amount))
    some (max 0 (dec (ledger.balance - held)))

/-! ## Steps of an operation -/

/-- A check that changes nothing. -/
def ensure {α : Type} (r : Result α) : LedgerM α := fun s =>
  match r with
  | .ok a => (.returned a, s)
  | .error e => (.raised e, s)

/-- `_OperationCache.run`. -/
def cached (request : LedgerRequest) (key : String) (call : LedgerM LedgerResult) :
    LedgerM LedgerResult := do
  let s ← Process.get
  match s.operations.find? (request.operation ++ ":" ++ key) with
  | some existing =>
    ensure (refuseIf (existing.request ≠ request)
      ("payment idempotency key '" ++ key ++ "' was reused with different arguments"))
    pure existing.result
  | none => do
    let result ← call
    Process.update fun s => { s with
      operations := s.operations.assign ⟨request.operation ++ ":" ++ key, request, result⟩ }
    pure result

/-- `_known_reservation`: a reservation the rail does not know is adopted. -/
def knownReservation (reservation : PaymentReservationV2) : LedgerM PaymentReservationV2 := do
  let s ← Process.get
  match s.reservations.find? reservation.reservationId with
  | none => do
    Process.update fun s => { s with
      reservations := s.reservations.assign reservation
      chargeReservations :=
        (reservation.chargeId, reservation.reservationId) :: s.chargeReservations }
    pure reservation
  | some known => do
    ensure (refuseIf (identityPayload known ≠ identityPayload reservation)
      "payment reservation identity changed")
    pure known

def settlementReceipt (adapter : LocalLedgerPaymentAdapter) (settlementId : String)
    (reservation : PaymentReservationV2) (captured released : CurrencyAmount)
    (reference : Option String) (status : SettlementStatus) (settledAt : Int) :
    Result SettlementReceipt :=
  if ∃ text ∈ reference, 500 < text.length then
    .error (.value "String should have at most 500 characters")
  else if hc : captured.currency ≠ reservation.maximumAmount.currency then
    .error (.value "settlement amounts must use one currency")
  else if hr : released.currency ≠ reservation.maximumAmount.currency then
    .error (.value "settlement amounts must use one currency")
  else if hle : reservation.maximumAmount.amount < captured.amount then
    .error (.value "captured amount cannot exceed reserved amount")
  else if ha : reservation.maximumAmount.amount < dec (captured.amount + released.amount) then
    .error (.value "captured plus released cannot exceed reserved amount")
  else if hf : status.final ∧
      dec (captured.amount + released.amount) ≠ reservation.maximumAmount.amount then
    .error (.value "completed settlement must account for the full reservation")
  else
    .ok
      { settlementId := settlementId
        chargeId := reservation.chargeId
        preparedId := reservation.preparedId
        basis := reservation.basis
        reservationId := reservation.reservationId
        attemptId := reservation.attemptId
        reservedAmount := reservation.maximumAmount
        capturedAmount := captured
        releasedAmount := released
        paymentRail := adapter.name
        externalReference := reference
        status := status
        settledAt := settledAt
        rest := ""
        captured_currency := not_not.mp hc
        released_currency := not_not.mp hr
        captured_le := not_lt.mp hle
        accounted_le := not_lt.mp ha
        accounted := fun hfinal => not_not.mp fun hne => hf ⟨hfinal, hne⟩ }

/-- The reservation after its settlement or release, with the receipt. -/
def record (reservation : PaymentReservationV2) (receipt : SettlementReceipt) (s : Ledger) :
    Ledger :=
  { s with
    reservations := s.reservations.assign reservation
    settlements := s.settlements.assign receipt
    reservationSettlements :=
      (reservation.reservationId, receipt.settlementId) :: s.reservationSettlements }

/-! ## Operations -/

section Operations

variable (adapter : LocalLedgerPaymentAdapter) (answer : Answer)

def validateMaximum (maximum : CurrencyAmount) : Result Unit := do
  refuseIf (maximum.currency ≠ adapter.settlementCurrency)
    "payment reservation currency does not match adapter"
  refuseIf (adapter.freeOnly ∧ maximum.amount ≠ 0) "free adapter cannot reserve a paid amount"

def reserveChecks (reservation : PaymentReservationV2) (s : Ledger) :
    Result (Option PaymentReservationV2) := do
  refuseIf (reservation.adapter ≠ adapter.name) "payment reservation adapter does not match"
  validateMaximum adapter reservation.maximumAmount
  refuseIf (reservation.state ≠ .reserved) "new payment reservation must be RESERVED"
  match s.reservations.find? reservation.reservationId with
  | some existing =>
    refuseIf (existing ≠ reservation) "payment reservation ID collision"
    pure (some existing)
  | none =>
    refuseIf ((s.chargeReservations.lookup reservation.chargeId).isSome)
      "payment charge already has a reservation"
    refuseIf (∃ available ∈ adapter.availableBalance s,
        available < reservation.maximumAmount.amount) "insufficient payment balance"
    let _ ← answer.reference
    pure none

def reserve (reservation : PaymentReservationV2) : LedgerM LedgerResult :=
  cached (.reserve reservation) reservation.idempotencyKey do
    let s ← Process.get
    match ← ensure (reserveChecks adapter answer reservation s) with
    | some existing => pure (.reservation existing)
    | none => do
      Process.update fun s => { s with
        reservations := s.reservations.assign reservation
        chargeReservations :=
          (reservation.chargeId, reservation.reservationId) :: s.chargeReservations }
      pure (.reservation reservation)

/-- `reference or evidence.external_reference`. -/
def orElse (reference fallback : Option String) : Option String :=
  match reference with
  | none | some "" => fallback
  | some text => some text

def settleReceipt (reservation known : PaymentReservationV2) (actual : CurrencyAmount)
    (evidenceReference : Option String) (key : String) (s : Ledger) : Result SettlementReceipt := do
  refuseIf (known.state ∉ [.reserved, .settling, .indeterminate])
    "payment reservation cannot be settled in its current state"
  refuseIf ((s.reservationSettlements.lookup reservation.reservationId).isSome)
    "payment reservation was already settled"
  let reference ← answer.reference
  let released ← CurrencyAmount.make (dec (reservation.maximumAmount.amount - actual.amount))
    reservation.maximumAmount.currency
  settlementReceipt adapter (adapter.stableOperationId "settlement" key) reservation actual released
    (orElse reference evidenceReference) .settled answer.clock

def capturedBalance (actual : CurrencyAmount) (s : Ledger) : Result ℚ :=
  if adapter.unlimitedBudget then .ok s.balance
  else do
    refuseIf (s.balance < actual.amount) "insufficient payment balance at settlement"
    pure (dec (s.balance - actual.amount))

def settleKnown (reservation known : PaymentReservationV2) (actual : CurrencyAmount)
    (evidenceReference : Option String) (key : String) : LedgerM LedgerResult := do
  let s ← Process.get
  let receipt ← ensure (settleReceipt adapter answer reservation known actual evidenceReference
    key s)
  let balance ← ensure (capturedBalance adapter actual s)
  Process.update fun s => { s with balance := balance }
  let settled ← ensure (reservationWithState reservation .settled receipt.settledAt none)
  Process.update (record settled receipt)
  pure (.settlement receipt)

def settle (reservation : PaymentReservationV2) (actual : CurrencyAmount)
    (evidence : SettlementEvidence) (evidenceReference : Option String) (key : String) :
    LedgerM LedgerResult :=
  cached (.settle (identityPayload reservation) actual evidence evidenceReference) key do
    ensure (validateSettlementRequest reservation actual evidence)
    let known ← knownReservation reservation
    settleKnown adapter answer reservation known actual evidenceReference key

def releaseReceipt (reservation known : PaymentReservationV2) (key : String) (s : Ledger) :
    Result SettlementReceipt := do
  refuseIf (known.state ∉ [.reserved, .settling])
    "payment reservation cannot be released in its current state"
  refuseIf ((s.reservationSettlements.lookup reservation.reservationId).isSome)
    "payment reservation was already settled"
  let reference ← answer.reference
  settlementReceipt adapter (adapter.stableOperationId "release" key) reservation
    ⟨0, reservation.maximumAmount.currency, zero_amount_nonneg⟩ reservation.maximumAmount reference .released
    answer.clock

def releaseKnown (reservation known : PaymentReservationV2) (key : String) :
    LedgerM LedgerResult := do
  let s ← Process.get
  let receipt ← ensure (releaseReceipt adapter answer reservation known key s)
  let released ← ensure (reservationWithState reservation .released receipt.settledAt none)
  Process.update (record released receipt)
  pure (.settlement receipt)

def release (reservation : PaymentReservationV2) (reason key : String) : LedgerM LedgerResult := do
  ensure (refuseIf (reason = "") "payment release requires a reason")
  cached (.release (identityPayload reservation) reason) key do
    let known ← knownReservation reservation
    releaseKnown adapter answer reservation known key

/-- The settlement of a refund: one the rail does not know is adopted. -/
def knownSettlement (settlement : SettlementReceipt) : LedgerM Unit := do
  let s ← Process.get
  match s.settlements.find? settlement.settlementId with
  | none => Process.update fun s => { s with settlements := s.settlements.assign settlement }
  | some known => ensure (refuseIf (known ≠ settlement) "settlement identity changed")

def refundReceipt (settlement : SettlementReceipt) (amount : CurrencyAmount)
    (reason key : String) (s : Ledger) : Result RefundReceiptV2 := do
  let refunded := decSum (s.refunds.select (·.settlementId = settlement.settlementId)
    (·.amount.amount))
  refuseIf (settlement.capturedAmount.amount < dec (refunded + amount.amount))
    "refund exceeds unrefunded captured amount"
  let reference ← answer.reference
  raiseIf (2000 < reason.length) (.value "String should have at most 2000 characters")
  raiseIf (key.length < 1) (.value "String should have at least 1 character")
  raiseIf (256 < key.length) (.value "String should have at most 256 characters")
  raiseIf (∃ text ∈ reference, 500 < text.length)
    (.value "String should have at most 500 characters")
  pure
    { refundId := adapter.stableOperationId "refund" key
      settlementId := settlement.settlementId
      chargeId := settlement.chargeId
      amount := amount
      reason := reason
      idempotencyKey := key
      refundedAt := answer.clock
      rest := reference.getD "" }

def refundKnown (settlement : SettlementReceipt) (amount : CurrencyAmount) (reason key : String) :
    LedgerM LedgerResult := do
  let s ← Process.get
  let receipt ← ensure (refundReceipt adapter answer settlement amount reason key s)
  Process.update fun s => { s with
    refunds := s.refunds.assign receipt
    balance := if adapter.unlimitedBudget then s.balance else dec (s.balance + amount.amount) }
  pure (.refund receipt)

def refund (settlement : SettlementReceipt) (amount : CurrencyAmount) (reason key : String) :
    LedgerM LedgerResult := do
  ensure (refuseIf (reason = "") "payment refund requires a reason")
  cached (.refund settlement amount reason) key do
    ensure (refuseIf (amount.currency ≠ settlement.capturedAmount.currency)
      "refund currency does not match settlement")
    knownSettlement settlement
    refundKnown adapter answer settlement amount reason key

inductive LedgerCall where
  | reserve (reservation : PaymentReservationV2)
  | settle (reservation : PaymentReservationV2) (actual : CurrencyAmount)
      (evidence : SettlementEvidence) (evidenceReference : Option String) (key : String)
  | release (reservation : PaymentReservationV2) (reason key : String)
  | refund (settlement : SettlementReceipt) (amount : CurrencyAmount) (reason key : String)

def LedgerCall.run : LedgerCall → LedgerM LedgerResult
  | reserve reservation => Payments.reserve adapter answer reservation
  | settle reservation actual evidence reference key =>
    Payments.settle adapter answer reservation actual evidence reference key
  | release reservation reason key => Payments.release adapter answer reservation reason key
  | refund settlement amount reason key =>
    Payments.refund adapter answer settlement amount reason key

end Operations

end AeepRouter.Payments

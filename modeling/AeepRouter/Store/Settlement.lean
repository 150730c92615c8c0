import AeepRouter.Store.Reservation

/-!
# Settlements

`saveSettlementReceipt` stores the receipt of an operation the rail carried out and closes the hold
and the decision it belongs to, in one transaction. The status of the receipt fixes both target
states; the sources each target may be reached from are tables of the source.
-/

namespace AeepRouter

open Lib

def SettlementStatus.reservationTarget : SettlementStatus → PaymentReservationState
  | completed | settled | refunded => .settled
  | released => .released
  | disputed => .disputed
  | pending | indeterminate | failed => .indeterminate

def SettlementStatus.preparedTarget : SettlementStatus → PreparedDecisionState
  | completed | settled | refunded => .settled
  | released => .released
  | disputed => .disputed
  | pending | indeterminate | failed => .indeterminate

def allowedSources : PaymentReservationState → List PaymentReservationState
  | .settled => [.settling, .indeterminate, .disputed]
  | .released => [.settling, .indeterminate]
  | .disputed => [.reserved, .settling, .indeterminate]
  | .indeterminate => [.reserved, .settling]
  | _ => []

def preparedSources : PreparedDecisionState → List PreparedDecisionState
  | .settled => [.settling, .indeterminate, .disputed]
  | .released => [.reserved]
  | .disputed => [.invoking, .awaitingUsage, .settling, .indeterminate]
  | .indeterminate => [.invoking, .awaitingUsage, .settling]
  | _ => []

theorem preparedSources_legal {status : SettlementStatus} {source : PreparedDecisionState}
    (h : source ∈ preparedSources status.preparedTarget) :
    status.preparedTarget ∈ source.transitions := by
  cases status <;> cases source <;> revert h <;> decide

/-- The first binding of a receipt that its reservation or decision does not share. -/
def SettlementReceipt.mismatch (receipt : SettlementReceipt) (row : PaymentRow)
    (prepared : PreparedRow) : Option String :=
  let hold := row.payload
  let decision := prepared.payload
  let currency := receipt.reservedAmount.currency
  if receipt.chargeId ≠ hold.chargeId then some "charge"
  else if receipt.preparedId ≠ hold.preparedId then some "prepared decision"
  else if receipt.quoteId ≠ hold.quoteId then some "quote"
  else if receipt.basis.kind ≠ hold.basis.kind then some "authorization kind"
  else if receipt.basis.id ≠ hold.basis.id then some "authorization ID"
  else if decision.basis.map (·.kind) ≠ some receipt.basis.kind then
    some "prepared authorization kind"
  else if decision.basis.map (·.id) ≠ some receipt.basis.id then some "prepared authorization ID"
  else if receipt.attemptId ≠ hold.attemptId then some "attempt"
  else if currency ≠ hold.maximumAmount.currency then some "reservation currency"
  else if decision.maximumCashAuthorization.map (·.currency) ≠ some currency then
    some "prepared currency"
  else none

/-- What the maximum of a receipt is called in a message. -/
def SettlementReceipt.basisText (receipt : SettlementReceipt) (other : String) : String :=
  if receipt.basis.kind = .signedQuote then "signed quote" else other

/-- The checks of a receipt's amounts against the hold, the decision and the quote. -/
def SettlementReceipt.checkAmounts (receipt : SettlementReceipt) (evidence : Evidence)
    (row : PaymentRow) (prepared : PreparedRow) : Result Unit := do
  let maximum := row.payload.maximumAmount.amount
  refuseIf (prepared.payload.maximumCashAuthorization.map (·.amount) ≠ some maximum ∨
      receipt.reservedAmount.amount ≠ maximum)
    ("settlement reservation must equal the " ++ receipt.basisText "prepared authorization" ++
      " maximum")
  refuseIf (receipt.basis.kind = .signedQuote ∧
      ¬ ∃ quote ∈ evidence.boundedQuotes.find? receipt.basis.id,
        quote.maximumAmount.amount = maximum ∧
        quote.maximumAmount.currency = receipt.reservedAmount.currency)
    "settlement reservation must equal the signed quote maximum"
  refuseIf (maximum < receipt.capturedAmount.amount)
    ("settlement capture exceeds the " ++ receipt.basisText "authorization" ++ " maximum")

def Store.existingSettlement (s : Store) (receipt : SettlementReceipt) : Option SettlementReceipt :=
  s.settlements.rows.find? fun stored =>
    stored.settlementId = receipt.settlementId ∨ stored.reservationId = receipt.reservationId ∨
      stored.chargeId = receipt.chargeId

def OperationIntent.resultId (crypto : Crypto) (intent : OperationIntent) : String :=
  match intent.type with
  | .settle => stableOperationId crypto "settlement" intent.key
  | .release => stableOperationId crypto "release" intent.key

/-- The operation a receipt must have been claimed under. -/
def SettlementReceipt.expectedIntent (receipt : SettlementReceipt)
    (preparedSource : PreparedDecisionState) : IntentType :=
  if receipt.status.reservationTarget = .released ∨ preparedSource = .reserved then .release
  else .settle

/-- The checks of a new receipt against the operation under way. -/
def SettlementReceipt.checkIntent (crypto : Crypto) (receipt : SettlementReceipt)
    (row : PaymentRow) (prepared : PreparedRow) : Result Unit := do
  refuseIf (row.operationIntent.map (·.type) ≠ some (receipt.expectedIntent prepared.state))
    "settlement does not match the claimed payment operation intent"
  refuseIf (∀ intent ∈ row.operationIntent,
      intent.key = "" ∨ receipt.settlementId ≠ intent.resultId crypto)
    "settlement ID does not match the claimed payment operation"
  refuseIf (receipt.settledAt < row.updatedAt) "settlement cannot precede the reservation update"

def SettlementReceipt.close (receipt : SettlementReceipt) :
    Table.Rewrite PaymentRow.reservationId where
  toFun row :=
    { row with
      state := receipt.status.reservationTarget
      updatedAt := receipt.settledAt
      indeterminateReason :=
        if receipt.status.reservationTarget = .indeterminate then
          some ("settlement status " ++ receipt.status.text)
        else none
      operationIntent := none }
  keeps _ := rfl

/-- Two receipts one of the unique columns forbids side by side, their ids apart. -/
def SettlementReceipt.clash (a b : SettlementReceipt) : Prop :=
  a.chargeId = b.chargeId ∨ a.reservationId = b.reservationId

instance : DecidableRel SettlementReceipt.clash := fun _ _ => by
  unfold SettlementReceipt.clash; infer_instance

def SettlementReceipt.transition (receipt : SettlementReceipt) (transitionId : String)
    (source : PreparedDecisionState) (h : source ∈ preparedSources receipt.status.preparedTarget) :
    PreparedRouteTransition where
  transitionId := transitionId
  preparedId := receipt.preparedId
  fromState := source
  toState := receipt.status.preparedTarget
  occurredAt := receipt.settledAt
  reason := some ("settlement " ++ receipt.settlementId ++ ": " ++ receipt.status.text)
  legal := preparedSources_legal h

/-- The writes of a new receipt. -/
def SettlementReceipt.insert (receipt : SettlementReceipt) (transitionId : String)
    (prepared : PreparedRow) (h : prepared.state ∈ preparedSources receipt.status.preparedTarget)
    (s : Store) : Result Store := do
  let settlements ← immutableInsert "settlement_receipts" id SettlementReceipt.clash s.settlements
    receipt
  let transitions ← immutableInsert "prepared_route_transitions" id (fun _ _ => False) s.transitions
    (receipt.transition transitionId prepared.state h)
  let s' := s.setReservation receipt.reservationId receipt.close
  pure { s'.setPreparedState receipt.preparedId receipt.status.preparedTarget with
    settlements := settlements
    transitions := transitions }

/-- `save_settlement_receipt`; `transitionId` is the id drawn for the transition. -/
def saveSettlementReceipt (crypto : Crypto) (receipt : SettlementReceipt) (transitionId : String) :
    StoreM SettlementReceipt := fun s => do
  let row ← demand (s.reservations.find? receipt.reservationId)
    "settlement reservation or prepared decision does not exist"
  let prepared ← demand (s.prepared.find? row.payload.preparedId)
    "settlement reservation or prepared decision does not exist"
  match receipt.mismatch row prepared with
  | some label => .error (.configuration ("settlement " ++ label ++ " does not match reservation"))
  | none => do
    receipt.checkAmounts s.evidence row prepared
    match s.existingSettlement receipt with
    | some stored => do
      refuseIf (stored ≠ receipt) "settlement ID or reservation was reused with different content"
      refuseIf (row.state ≠ receipt.status.reservationTarget)
        "settlement exists without its reservation transition"
      refuseIf (prepared.state ≠ receipt.status.preparedTarget)
        "settlement exists without its prepared-decision transition"
      pure (receipt, s)
    | none => do
      refuseIf (row.state ∉ allowedSources receipt.status.reservationTarget)
        ("reservation cannot settle from state " ++ row.state.text)
      if h : prepared.state ∈ preparedSources receipt.status.preparedTarget then do
        receipt.checkIntent crypto row prepared
        let s' ← receipt.insert transitionId prepared h s
        pure (receipt, s')
      else
        .error (.configuration
          ("prepared decision cannot settle from state " ++ prepared.state.text))

end AeepRouter

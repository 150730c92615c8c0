import AeepRouter.Store.Idempotency

/-!
# The store as a machine

`StoreOp` lists the transactions on the payment tables; `StoreOp.exec` runs one. A transaction that
raises leaves the store as it was. `writeEvidence` stands for every writer of the evidence tables,
which may put anything there.
-/

namespace AeepRouter

open Lib

/-- A transaction on the record of a key a caller chose for an action. -/
inductive ActionOp where
  | claim (key requestHash : String)
  | complete (key decisionId status : String) (receiptIds : List String)
  | abandon (key : String)
  | markExecuting (key : String)
  | markIndeterminate (key : String)
  | claimPrepared (call : ActionClaim)
  | bindPrepared (call : BindCall)
  | abandonPrepared (call : AbandonCall)
  | completePrepared (call : CompleteActionCall)

/-- A transaction on the record of a payment operation. -/
inductive PaymentKeyOp where
  | claim (operation key requestDigest : String)
  | complete (operation key resultType resultId : String)
  | markExecuting (operation key : String)
  | markIndeterminate (operation key : String)
  | abandon (operation key : String)
  | get (operation key : String)

inductive StoreOp where
  | writeEvidence (evidence : Evidence)
  | savePreparedDecision (decision : PreparedRouteDecision)
  | claimPreparedDecision (preparedId claimToken : String) (claimedAt : Int)
  | savePreparedTransition (transition : PreparedRouteTransition)
  | claimPreparedForInvocation (call : FreeInvocation)
  | claimPreparedForPaidInvocation (call : PaidInvocation)
  | reservePayment (call : ReserveCall)
  | transitionPaymentReservation (reservationId : String) (expectedState : PaymentReservationState)
      (updated : PaymentReservationV2)
  | claimPaymentIntent (call : IntentCall)
  | saveSettlementReceipt (receipt : SettlementReceipt) (transitionId : String)
  | authorizeRefund (call : RefundCall)
  | completeRefund (refund : RefundReceiptV2)
  | markRefundIndeterminate (refundId : String) (updatedAt : Int)
  | releaseRefund (refundId requestDigest : String) (releasedAt : Int)
  | saveRefundReceipt (refund : RefundReceiptV2)
  | action (op : ActionOp)
  | paymentKey (op : PaymentKeyOp)
  | settleRecoveredFree (call : FreeRecovery)

/-- What a transaction on an idempotency record returns. -/
inductive KeyOutcome where
  | report (report : Option IdempotencyReport)
  | record (record : Option IdempotencyRecord)
  | decision (decision : PreparedRouteDecision)
  | binding (binding : PreparedActionIdempotencyRecord)
  | done
  deriving DecidableEq

/-- A transaction with its result wrapped. -/
def StoreM.wrap {α β : Type} (m : StoreM α) (f : α → β) : StoreM β := fun s =>
  (m s).map fun p => (f p.1, p.2)

theorem StoreM.wrap_ok {α β : Type} {m : StoreM α} {f : α → β} {s s' : Store} {b : β} :
    m.wrap f s = .ok (b, s') ↔ ∃ a, m s = .ok (a, s') ∧ f a = b := by
  unfold StoreM.wrap
  cases h : m s with
  | error e => simp [Except.map]
  | ok p =>
    obtain ⟨a, t⟩ := p
    simp [Except.map, and_comm]

def ActionOp.exec : ActionOp → StoreM KeyOutcome
  | claim key requestHash => (claimIdempotency key requestHash).wrap .report
  | complete key decisionId status receiptIds =>
    (completeIdempotency key decisionId status receiptIds).wrap fun _ => .done
  | abandon key => (abandonIdempotency key).wrap fun _ => .done
  | markExecuting key => (markIdempotencyExecuting key).wrap fun _ => .done
  | markIndeterminate key => (markIdempotencyIndeterminate key).wrap fun _ => .done
  | claimPrepared call => (claimPreparedDecisionWithActionIdempotency call).wrap .decision
  | bindPrepared call => (bindPreparedActionIdempotency call).wrap .binding
  | abandonPrepared call => (abandonPreparedActionIdempotency call).wrap .decision
  | completePrepared call => (completePreparedActionIdempotency call).wrap fun _ => .done

def PaymentKeyOp.exec : PaymentKeyOp → StoreM KeyOutcome
  | claim operation key requestDigest =>
    (claimPaymentOperation operation key requestDigest).wrap .report
  | complete operation key resultType resultId =>
    (completePaymentOperation operation key resultType resultId).wrap fun _ => .done
  | markExecuting operation key => (markPaymentOperationExecuting operation key).wrap fun _ => .done
  | markIndeterminate operation key =>
    (markPaymentOperationIndeterminate operation key).wrap fun _ => .done
  | abandon operation key => (abandonPaymentOperation operation key).wrap fun _ => .done
  | get operation key => (getPaymentOperation operation key).wrap .record

def PaymentKeyOp.name : PaymentKeyOp → String × String
  | claim operation key _ | complete operation key _ _ | markExecuting operation key
  | markIndeterminate operation key | abandon operation key | get operation key => (operation, key)

/-- Runs a transaction and drops its result. -/
def StoreOp.exec (crypto : Crypto) : StoreOp → StoreM Unit
  | writeEvidence evidence => fun s => .ok ((), { s with evidence := evidence })
  | savePreparedDecision decision => (AeepRouter.savePreparedDecision decision).wrap fun _ => ()
  | claimPreparedDecision preparedId claimToken claimedAt =>
    (AeepRouter.claimPreparedDecision preparedId claimToken claimedAt).wrap fun _ => ()
  | savePreparedTransition transition =>
    (AeepRouter.savePreparedTransition transition).wrap fun _ => ()
  | claimPreparedForInvocation call => (AeepRouter.claimPreparedForInvocation call).wrap fun _ => ()
  | claimPreparedForPaidInvocation call =>
    (AeepRouter.claimPreparedForPaidInvocation crypto call).wrap fun _ => ()
  | reservePayment call => (reservePaymentV2 crypto call).wrap fun _ => ()
  | transitionPaymentReservation reservationId expectedState updated =>
    (transitionPaymentReservationV2 reservationId expectedState updated).wrap fun _ => ()
  | claimPaymentIntent call => (claimPaymentIntentV2 call).wrap fun _ => ()
  | saveSettlementReceipt receipt transitionId =>
    (AeepRouter.saveSettlementReceipt crypto receipt transitionId).wrap fun _ => ()
  | authorizeRefund call => (authorizeRefundV2 call).wrap fun _ => ()
  | completeRefund refund => (completeRefundV2 refund).wrap fun _ => ()
  | markRefundIndeterminate refundId updatedAt =>
    (markRefundAuthorizationIndeterminate refundId updatedAt).wrap fun _ => ()
  | releaseRefund refundId requestDigest releasedAt =>
    (releaseRefundAuthorizationV2 refundId requestDigest releasedAt).wrap fun _ => ()
  | saveRefundReceipt refund => (saveRefundReceiptV2 refund).wrap fun _ => ()
  | action op => op.exec.wrap fun _ => ()
  | paymentKey op => op.exec.wrap fun _ => ()
  | settleRecoveredFree call => (settleRecoveredFreePrepared call).wrap fun _ => ()

/-- The transactions on the records of keys. -/
def StoreOp.onKeys : StoreOp → Bool
  | action _ | paymentKey _ => true
  | _ => false

/-- The store after a transaction, which a failure leaves as it was. -/
def Store.apply (crypto : Crypto) (s : Store) (op : StoreOp) : Store := commit (op.exec crypto s) s

/-! ## One paid action -/

/-- An action to be paid at a pinned rate of one dollar a call. -/
structure PaidAction where
  name : String
  maximum : CurrencyAmount
  startedAt : Int

def unitRates : RateCardSnapshot where
  snapshotId := "rate_0000000000000000000000000000000000000000000000000000000000000001"
  effectiveFrom := 0
  effectiveUntil := none
  currency := some "USD"
  rates := [⟨"call", .toolCall, "calls", "call", 1, 1, none, none, none, none, none, none, none⟩]
  rest := ""

namespace PaidAction

variable (action : PaidAction)

def basis : AuthorizationBasis := ⟨.pinnedRateCard, unitRates.snapshotId⟩

def fingerprint : String :=
  "sha256:0000000000000000000000000000000000000000000000000000000000000002"

def decision : PreparedRouteDecision where
  preparedId := action.name
  actionId := action.name
  actionDigest := fingerprint
  effectivePolicyDigest := fingerprint
  selectedExecutorId := some "executor"
  selectedExecutorFingerprint := some fingerprint
  basis := some basis
  authorizationMeterQuantities := [⟨"call", "calls", "call", action.maximum.amount⟩]
  disclosedQuoteFeatures := []
  expectedCash := ⟨.unavailable, []⟩
  maximumCashAuthorization := some action.maximum
  state := .prepared
  expiresAt := action.startedAt + day
  rest := ""

def reservation : PaymentReservationV2 where
  reservationId := action.name
  chargeId := action.name
  preparedId := action.name
  basis := basis
  actionId := action.name
  attemptId := action.name
  maximumAmount := action.maximum
  adapter := "local"
  idempotencyKey := action.name
  state := .reserved
  createdAt := action.startedAt
  updatedAt := action.startedAt
  indeterminateReason := none
  rest := ""

def reserve (budgetLimit prepaidLimit : Option CurrencyAmount) (periodStart : Option Int) :
    List StoreOp :=
  [.savePreparedDecision action.decision,
    .claimPreparedDecision action.name action.name action.startedAt,
    .reservePayment ⟨action.reservation, action.name, budgetLimit, prepaidLimit,
      budgetLimit.isNone, periodStart, action.name ++ "-reserve"⟩]

def invocation : PaidInvocation :=
  ⟨action.name, action.name, fingerprint, fingerprint, "executor", fingerprint, basis,
    action.startedAt, action.name ++ "-invoke"⟩

/-- The claim of a release or a settlement. -/
def intent (type : IntentType) : IntentCall := ⟨action.name, ⟨type, action.name⟩, action.startedAt⟩

/-- The calls that invoke the action and settle what it captured. -/
def settle (receipt : SettlementReceipt) : List StoreOp :=
  [.claimPreparedForPaidInvocation action.invocation,
    .savePreparedTransition ⟨action.name ++ "-finish", action.name, .invoking, .settling,
      action.startedAt, none, PreparedDecisionState.settling_mem_invoking⟩,
    .claimPaymentIntent (action.intent .settle),
    .saveSettlementReceipt receipt (action.name ++ "-settle")]

def receipt (crypto : Crypto) (settledAt : Int)
    (h : dec (action.maximum.amount + 0) = action.maximum.amount) : SettlementReceipt where
  settlementId := (action.intent .settle).intent.resultId crypto
  chargeId := action.name
  preparedId := action.name
  basis := basis
  reservationId := action.name
  attemptId := action.name
  reservedAmount := action.maximum
  capturedAmount := action.maximum
  releasedAmount := ⟨0, action.maximum.currency, zero_amount_nonneg⟩
  paymentRail := "local"
  externalReference := none
  status := .completed
  settledAt := settledAt
  rest := ""
  captured_currency := rfl
  released_currency := rfl
  captured_le := le_rfl
  accounted_le := h.le
  accounted _ := h

def refund (crypto : Crypto) (refundId : String) (amount : CurrencyAmount) : RefundCall :=
  ⟨refundId, (action.intent .settle).intent.resultId crypto, amount, refundId, fingerprint,
    action.startedAt⟩

end PaidAction

def dollarAction : PaidAction := ⟨"action", ⟨1, "USD", unit_amount_nonneg⟩, 0⟩

theorem dollarAction_exact :
    dec (dollarAction.maximum.amount + 0) = dollarAction.maximum.amount := by decide +kernel

/-- A cryptography library that knows the digests of some texts and no signature. -/
def Crypto.ofDigests (digests : List (String × String)) : Crypto where
  verifyQuote _ _ := false
  verifyOffer _ _ := false
  sha256 text := (digests.lookup text).getD ""

/-- A library that knows the digest of the key the action settles under. -/
def actionCrypto : Crypto :=
  .ofDigests [("settlement\x00action",
    "130d0e679763002aa367130c07613fa1fee1a97e42a8ba26adaccbef00d7a4bb")]

def StoreOp.importRates : StoreOp :=
  .writeEvidence { Evidence.empty with rateCardSnapshots := (∅ : Table _ _).insert unitRates }

end AeepRouter

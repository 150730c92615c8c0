import AeepRouter.Store.Settlement

/-!
# Refunds

A refund is authorized against what a settlement captured before the rail is asked for it, and
completed with the receipt of the rail; evidence of refunds made elsewhere is imported beside. Every
path adds up the stored receipts and the authorizations still pending.
-/

namespace AeepRouter

open Lib

/-- An authorization the rail may still act on. -/
def RefundAuthorizationState.pending (state : RefundAuthorizationState) : Bool :=
  state ∈ [.authorized, .indeterminate]

namespace Store

variable (s : Store)

/-- The amounts of the stored refund receipts of a settlement. -/
def completedRefunds (settlementId : String) : List ℚ :=
  s.refunds.select (·.settlementId = settlementId) (·.amount.amount)

def pendingRefunds (settlementId : String) (completing : Option String) : List ℚ :=
  s.refundAuthorizations.select
    (fun record => record.settlementId = settlementId ∧ record.state.pending ∧
      some record.refundId ≠ completing)
    (·.amount.amount)

/-- `completed + pending + amount`, as the code adds it up. -/
def refundTotal (settlementId : String) (completing : Option String) (amount : ℚ) : ℚ :=
  dec (dec (decSum (s.completedRefunds settlementId) +
    decSum (s.pendingRefunds settlementId completing)) + amount)

def existingAuthorization (refundId idempotencyKey : String) : Option RefundAuthorizationRecord :=
  s.refundAuthorizations.rows.find? fun record =>
    record.refundId = refundId ∨ record.idempotencyKey = idempotencyKey

def existingRefund (refund : RefundReceiptV2) : Option RefundReceiptV2 :=
  s.refunds.rows.find? fun stored =>
    stored.refundId = refund.refundId ∨ stored.idempotencyKey = refund.idempotencyKey

end Store

/-! ## Authorizing -/

/-- The arguments of `authorize_refund_v2`. -/
structure RefundCall where
  refundId : String
  settlementId : String
  amount : CurrencyAmount
  idempotencyKey : String
  requestDigest : String
  authorizedAt : Int

/-- Whether a stored authorization is the one a call asks for. -/
def RefundAuthorizationRecord.matchesCall (record : RefundAuthorizationRecord) (call : RefundCall) :
    Prop :=
  record.refundId = call.refundId ∧ record.settlementId = call.settlementId ∧
    record.amount = call.amount ∧ record.idempotencyKey = call.idempotencyKey ∧
    record.requestDigest = call.requestDigest

instance (record : RefundAuthorizationRecord) (call : RefundCall) :
    Decidable (record.matchesCall call) := by
  unfold RefundAuthorizationRecord.matchesCall; infer_instance

/-- The row of a new authorization. -/
def RefundCall.record (call : RefundCall) (settlement : SettlementReceipt) :
    RefundAuthorizationRecord where
  refundId := call.refundId
  settlementId := call.settlementId
  chargeId := settlement.chargeId
  amount := call.amount
  idempotencyKey := call.idempotencyKey
  requestDigest := call.requestDigest
  state := .authorized
  authorizedAt := call.authorizedAt
  updatedAt := call.authorizedAt

def authorizeRefundV2 (call : RefundCall) : StoreM RefundAuthorizationRecord := fun s => do
  refuseIf (call.amount.amount ≤ 0) "refund authorization amount must be positive"
  refuseIf (call.refundId = "" ∨ 200 < call.refundId.length ∨ call.idempotencyKey = "" ∨
      256 < call.idempotencyKey.length ∨ call.requestDigest.length ≠ 71 ∨
      ¬ "sha256:".toList.isPrefixOf call.requestDigest.toList)
    "refund authorization identifiers must be non-empty"
  match s.existingAuthorization call.refundId call.idempotencyKey with
  | some record => do
    refuseIf (¬ record.matchesCall call) "refund authorization ID or idempotency key conflicts"
    pure (record, s)
  | none => do
    let settlement ← demand (s.settlements.find? call.settlementId)
      "refund settlement does not exist"
    refuseIf (settlement.reservedAmount.currency ≠ call.amount.currency)
      "refund currency does not match settlement currency"
    refuseIf (settlement.capturedAmount.amount <
        s.refundTotal call.settlementId none call.amount.amount)
      "refund exceeds unrefunded captured amount"
    let record := call.record settlement
    pure (record, { s with refundAuthorizations := s.refundAuthorizations.insert record })

/-! ## Receipts -/

/-- Two receipts one of the unique columns forbids side by side, their ids apart. -/
def RefundReceiptV2.clash (a b : RefundReceiptV2) : Prop := a.idempotencyKey = b.idempotencyKey

instance : DecidableRel RefundReceiptV2.clash := fun _ _ => by
  unfold RefundReceiptV2.clash; infer_instance

def Store.insertRefundReceiptLocked (s : Store) (refund : RefundReceiptV2)
    (completing : Option String) : Result Store :=
  match s.existingRefund refund with
  | some stored =>
    if stored = refund then .ok s
    else .error (.configuration "refund ID or idempotency key was reused with different content")
  | none => do
    let settlement ← demand (s.settlements.find? refund.settlementId)
      "refund settlement does not exist"
    refuseIf (settlement.chargeId ≠ refund.chargeId)
      "refund charge does not match settlement charge"
    refuseIf (settlement.reservedAmount.currency ≠ refund.amount.currency)
      "refund currency does not match settlement currency"
    refuseIf (settlement.capturedAmount.amount <
        s.refundTotal refund.settlementId completing refund.amount.amount)
      "refund exceeds captured settlement amount"
    let refunds ← immutableInsert "refund_receipts_v2" id RefundReceiptV2.clash s.refunds refund
    pure { s with refunds := refunds }

/-- A refund receipt is found again, or is new, belongs to a settlement and fits under it. -/
theorem Store.insertRefundReceiptLocked_ok {s s' : Store} {refund : RefundReceiptV2}
    {completing : Option String} (h : s.insertRefundReceiptLocked refund completing = .ok s') :
    (s' = s ∧ s.existingRefund refund = some refund) ∨
    (s' = { s with refunds := s.refunds.insert refund } ∧ s.existingRefund refund = none ∧
      s.refunds.find? refund.refundId = none ∧
      ∃ settlement, s.settlements.find? refund.settlementId = some settlement ∧
        settlement.reservedAmount.currency = refund.amount.currency ∧
        s.refundTotal refund.settlementId completing refund.amount.amount ≤
          settlement.capturedAmount.amount) := by
  unfold Store.insertRefundReceiptLocked at h
  split at h
  · next stored hstored =>
    split at h
    · next heq =>
      cases h
      exact .inl ⟨rfl, heq ▸ hstored⟩
    · cases h
  · next habsent =>
    simp only [bind_ok, raiseIf_ok, require_ok, pure_ok, exists_const, ne_eq, not_not, not_lt] at h
    obtain ⟨settlement, hfound, -, hcurrency, htotal, refunds, hins, rfl⟩ := h
    have hnone : s.refunds.find? refund.refundId = none := by
      refine Table.find?_eq_none.mpr fun stored hstored hid => ?_
      simpa [hid] using List.find?_eq_none.mp habsent stored hstored
    obtain ⟨-, y, hy, -⟩ | ⟨rfl, -⟩ := immutableInsert_ok.mp hins
    · rw [hnone] at hy
      cases hy
    · exact .inr ⟨rfl, habsent, hnone, settlement, hfound, hcurrency, htotal⟩

def saveRefundReceiptV2 (refund : RefundReceiptV2) : StoreM RefundReceiptV2 := fun s => do
  let s' ← s.insertRefundReceiptLocked refund none
  pure (refund, s')

/-! ## Completing, suspending, releasing -/

def Store.setAuthorization (s : Store) (refundId : String) (state : RefundAuthorizationState)
    (updatedAt : Int) : Store :=
  { s with
    refundAuthorizations := s.refundAuthorizations.modify refundId
      ⟨fun record => { record with state := state, updatedAt := updatedAt }, fun _ => rfl⟩ }

def RefundAuthorizationRecord.allows (record : RefundAuthorizationRecord)
    (refund : RefundReceiptV2) : Prop :=
  record.refundId = refund.refundId ∧ record.settlementId = refund.settlementId ∧
    record.chargeId = refund.chargeId ∧ record.amount = refund.amount ∧
    record.idempotencyKey = refund.idempotencyKey

instance (record : RefundAuthorizationRecord) (refund : RefundReceiptV2) :
    Decidable (record.allows refund) := by
  unfold RefundAuthorizationRecord.allows; infer_instance

def completeRefundV2 (refund : RefundReceiptV2) : StoreM RefundReceiptV2 := fun s => do
  let record ← demand (s.existingAuthorization refund.refundId refund.idempotencyKey)
    "refund was not authorized before external execution"
  refuseIf (¬ record.allows refund) "refund receipt does not match its authorization"
  refuseIf (record.state = .released) "released refund authorization cannot complete"
  let s' ← s.insertRefundReceiptLocked refund (some refund.refundId)
  pure (refund, s'.setAuthorization refund.refundId .completed refund.refundedAt)

def markRefundAuthorizationIndeterminate (refundId : String) (updatedAt : Int) :
    StoreM RefundAuthorizationRecord := fun s => do
  let record ← demand (s.refundAuthorizations.find? refundId)
    "refund authorization cannot become indeterminate"
  refuseIf (¬ record.state.pending) "refund authorization cannot become indeterminate"
  pure ({ record with state := .indeterminate, updatedAt := updatedAt },
    s.setAuthorization refundId .indeterminate updatedAt)

def releaseRefundAuthorizationV2 (refundId requestDigest : String) (releasedAt : Int) :
    StoreM RefundAuthorizationRecord := fun s => do
  let record ← demand (s.refundAuthorizations.find? refundId) "refund authorization does not exist"
  refuseIf (record.requestDigest ≠ requestDigest) "refund authorization request digest conflicts"
  refuseIf (record.state = .completed) "completed refund authorization cannot be released"
  pure ({ record with state := .released, updatedAt := releasedAt },
    s.setAuthorization refundId .released releasedAt)

end AeepRouter

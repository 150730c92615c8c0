import AeepRouter.Store.Refund

/-!
# Idempotency records

One table records the keys callers choose for their actions and the keys of payment operations,
which are prefixed texts. `PaymentOperation` names a payment operation; its key is
`payment:operation:key`. The operations on a bound action move a prepared decision and the record of
its key in one transaction; `settleRecoveredFreePrepared` finishes a free action from its receipt.
-/

namespace AeepRouter

open Lib

/-- What a claim reports of a record it found. -/
structure IdempotencyReport where
  state : IdempotencyState
  decisionId : Option String
  status : Option String
  receiptIds : List String
  deriving DecidableEq, Repr

def IdempotencyRecord.report (record : IdempotencyRecord) : IdempotencyReport :=
  ⟨record.state, record.decisionId, record.status, record.receiptIds⟩

def IdempotencyRecord.new (key requestHash : String) : IdempotencyRecord :=
  ⟨key, requestHash, .claimed, none, none, []⟩

def IdempotencyRecord.completed (decisionId status : String) (receiptIds : List String) :
    Table.Rewrite IdempotencyRecord.idempotencyKey where
  toFun record :=
    { record with
      state := .complete
      decisionId := some decisionId
      status := some status
      receiptIds := receiptIds }
  keeps _ := rfl

def IdempotencyRecord.inState (state : IdempotencyState) :
    Table.Rewrite IdempotencyRecord.idempotencyKey where
  toFun record := { record with state := state }
  keeps _ := rfl

def Store.setIdempotency (s : Store) (key : String)
    (f : Table.Rewrite IdempotencyRecord.idempotencyKey) : Store :=
  { s with idempotency := s.idempotency.modify key f }

/-- Whether the record of a key is stored in one of some states. -/
def Store.idempotencyIn (s : Store) (key : String) (states : List IdempotencyState) : Prop :=
  ∃ record ∈ s.idempotency.find? key, record.state ∈ states

instance (s : Store) (key : String) (states : List IdempotencyState) :
    Decidable (s.idempotencyIn key states) := by
  unfold Store.idempotencyIn; infer_instance

/-! ## Caller keys -/

def claimIdempotency (key requestHash : String) : StoreM (Option IdempotencyReport) := fun s =>
  match s.idempotency.find? key with
  | none => .ok (none, { s with idempotency := s.idempotency.insert (.new key requestHash) })
  | some record =>
    if record.requestHash ≠ requestHash then
      .error (.configuration
        ("idempotency key '" ++ key ++ "' was already used for a different action"))
    else .ok (some record.report, s)

def completeIdempotency (key decisionId status : String) (receiptIds : List String) : StoreM Unit :=
  fun s =>
    if s.idempotencyIn key [.claimed, .executing] then
      .ok ((), s.setIdempotency key (IdempotencyRecord.completed decisionId status receiptIds))
    else .ok ((), s)

/-- The records the binding of a prepared action keeps from being deleted. -/
def Store.isBound (s : Store) (key : String) : Prop :=
  ∃ binding ∈ s.actionBindings.rows, binding.idempotencyKey = key

instance (s : Store) (key : String) : Decidable (s.isBound key) := by
  unfold Store.isBound; infer_instance

def abandonIdempotency (key : String) : StoreM Unit := fun s =>
  if s.idempotencyIn key [.claimed] then do
    raiseIf (s.isBound key) .integrity
    pure ((), { s with idempotency := s.idempotency.erase key })
  else .ok ((), s)

def markIdempotencyExecuting (key : String) : StoreM Unit := fun s => do
  refuseIf (¬ s.idempotencyIn key [.claimed]) "idempotency claim is not executable"
  pure ((), s.setIdempotency key (IdempotencyRecord.inState .executing))

def markIdempotencyIndeterminate (key : String) : StoreM Unit := fun s =>
  if s.idempotencyIn key [.executing] then
    .ok ((), s.setIdempotency key (IdempotencyRecord.inState .indeterminate))
  else .ok ((), s)

/-! ## Payment operations -/

def paymentOperationKey (operation idempotencyKey : String) : Result String := do
  refuseIf (operation = "" ∨ ':' ∈ operation.toList ∨ idempotencyKey = "")
    "payment operation and idempotency key must be non-empty"
  pure ("payment:" ++ operation ++ ":" ++ idempotencyKey)

def claimPaymentOperation (operation idempotencyKey requestDigest : String) :
    StoreM (Option IdempotencyReport) := fun s => do
  let key ← paymentOperationKey operation idempotencyKey
  claimIdempotency key requestDigest s

def completePaymentOperation (operation idempotencyKey resultType resultId : String) : StoreM Unit :=
  fun s => do
    refuseIf (resultType = "" ∨ resultId = "") "payment operation result must be identified"
    let key ← paymentOperationKey operation idempotencyKey
    let record ← demand (s.idempotency.find? key) "payment operation was not claimed"
    if record.state = .complete then do
      refuseIf (¬ (record.decisionId = some operation ∧ record.status = some resultType ∧
          record.receiptIds = [resultId]))
        "payment operation idempotency key conflicts with an existing result"
      pure ((), s)
    else
      pure ((), s.setIdempotency key (IdempotencyRecord.completed operation resultType [resultId]))

def markPaymentOperationExecuting (operation idempotencyKey : String) : StoreM Unit := fun s => do
  let key ← paymentOperationKey operation idempotencyKey
  refuseIf (¬ s.idempotencyIn key [.claimed, .indeterminate])
    "payment operation claim is not executable"
  pure ((), s.setIdempotency key (IdempotencyRecord.inState .executing))

def markPaymentOperationIndeterminate (operation idempotencyKey : String) : StoreM Unit :=
  fun s => do
    let key ← paymentOperationKey operation idempotencyKey
    markIdempotencyIndeterminate key s

def abandonPaymentOperation (operation idempotencyKey : String) : StoreM Unit := fun s => do
  let key ← paymentOperationKey operation idempotencyKey
  abandonIdempotency key s

def getPaymentOperation (operation idempotencyKey : String) : StoreM (Option IdempotencyRecord) :=
  fun s => do
    let key ← paymentOperationKey operation idempotencyKey
    pure (s.idempotency.find? key, s)

/-! ## Bound actions -/

/-- The arguments of `claim_prepared_decision_with_action_idempotency`. -/
structure ActionClaim where
  preparedId : String
  claimToken : String
  claimedAt : Int
  idempotencyKey : String
  actionDigest : String

/-- The bindings that share the decision or the key of a claim. -/
def Store.bindingsOf (s : Store) (preparedId idempotencyKey : String) :
    List PreparedActionIdempotencyRecord :=
  s.actionBindings.rows.filter fun binding =>
    binding.preparedId = preparedId ∨ binding.idempotencyKey = idempotencyKey

def ActionClaim.checkArguments (call : ActionClaim) : Result Unit := do
  refuseIf (call.claimToken = "" ∨ 256 < call.claimToken.length)
    "prepared claim token must be non-empty and bounded"
  refuseIf (call.idempotencyKey = "" ∨ 256 < call.idempotencyKey.length)
    "action idempotency key must be non-empty and bounded"
  refuseIf (call.actionDigest.length ≠ 71 ∨
      ¬ "sha256:".toList.isPrefixOf call.actionDigest.toList)
    "prepared action digest must be canonical SHA-256"

def ActionClaim.checkDecision (call : ActionClaim) (row : PreparedRow) : Result Unit := do
  refuseIf (row.payload.actionDigest ≠ call.actionDigest)
    "prepared action idempotency digest does not match"
  refuseIf (row.state ≠ .prepared) "prepared decision is not claimable"
  refuseIf (row.payload.expiresAt ≤ call.claimedAt) "prepared decision has expired"
  refuseIf (∃ token ∈ row.claimToken, token ≠ call.claimToken) "prepared decision is not claimable"

def ActionClaim.checkKey (call : ActionClaim) (s : Store) : Result Unit := do
  refuseIf (∃ record ∈ s.idempotency.find? call.idempotencyKey,
      record.requestHash ≠ call.actionDigest ∨ record.state ≠ .claimed)
    "action idempotency key is already bound to another result"
  refuseIf (¬ ∀ binding ∈ s.bindingsOf call.preparedId call.idempotencyKey,
      binding.preparedId = call.preparedId ∧ binding.idempotencyKey = call.idempotencyKey ∧
        binding.actionDigest = call.actionDigest)
    "prepared action idempotency binding conflicts"

def ActionClaim.bind (call : ActionClaim) (s : Store) : Store :=
  { s with
    idempotency := s.idempotency.insert (.new call.idempotencyKey call.actionDigest)
    actionBindings := s.actionBindings.insert
      ⟨call.preparedId, call.idempotencyKey, call.actionDigest, call.claimedAt⟩ }

def claimPreparedDecisionWithActionIdempotency (call : ActionClaim) : StoreM PreparedRouteDecision :=
  fun s => do
    call.checkArguments
    let row ← demand (s.prepared.find? call.preparedId) "prepared decision does not exist"
    call.checkDecision row
    call.checkKey s
    if row.claimToken = none then do
      refuseIf (s.tokenTaken call.preparedId call.claimToken) "atomic prepared action claim failed"
      pure (row.decision, (call.bind s).setClaim call.preparedId call.claimToken call.claimedAt)
    else
      pure (row.decision, call.bind s)

/-- The arguments of `bind_prepared_action_idempotency`. -/
structure BindCall where
  preparedId : String
  idempotencyKey : String
  actionDigest : String

/-- Finds a binding again; a new one is made by the claim alone. -/
def bindPreparedActionIdempotency (call : BindCall) : StoreM PreparedActionIdempotencyRecord :=
  fun s => do
    refuseIf (call.idempotencyKey = "" ∨ 256 < call.idempotencyKey.length)
      "action idempotency key must be non-empty and bounded"
    refuseIf (call.actionDigest.length ≠ 71 ∨
        ¬ "sha256:".toList.isPrefixOf call.actionDigest.toList)
      "prepared action digest must be canonical SHA-256"
    let row ← demand (s.prepared.find? call.preparedId)
      "prepared action idempotency decision is missing"
    refuseIf (row.payload.actionDigest ≠ call.actionDigest)
      "prepared action idempotency digest does not match"
    match s.bindingsOf call.preparedId call.idempotencyKey with
    | [] =>
      .error (.configuration "new action idempotency binding requires atomic prepared claim")
    | [binding] => do
      refuseIf (binding.preparedId ≠ call.preparedId ∨
          binding.idempotencyKey ≠ call.idempotencyKey ∨
          binding.actionDigest ≠ call.actionDigest)
        "prepared action idempotency binding conflicts"
      pure (binding, s)
    | _ => .error (.configuration "prepared action idempotency binding conflicts")

def Store.settlementOf (s : Store) (reservationId : String) : Option SettlementReceipt :=
  s.settlements.rows.find? (·.reservationId = reservationId)

/-- The evidence that a released decision was never charged. -/
def Store.fullyReleased (s : Store) (preparedId : String) : Prop :=
  ∃ row ∈ s.reservationOf preparedId, row.state = .released ∧
    ∃ receipt ∈ s.settlementOf row.reservationId,
      receipt.status = .released ∧ receipt.capturedAmount.amount = 0

instance (s : Store) (preparedId : String) : Decidable (s.fullyReleased preparedId) := by
  unfold Store.fullyReleased; infer_instance

/-- The arguments of `abandon_prepared_action_idempotency`. -/
structure AbandonCall where
  preparedId : String
  actionDigest : String
  abandonedAt : Int
  claimToken : Option String
  transitionId : String

/-- Cancels the decision of an abandoned action, or finds it released in full. -/
def AbandonCall.retire (call : AbandonCall) (s : Store) (row : PreparedRow) : Result Store :=
  match row.state with
  | .prepared => do
    refuseIf (call.claimToken = none ∧ call.abandonedAt < row.payload.expiresAt)
      "live prepared action cannot be abandoned by recovery"
    refuseIf (s.reservationOf call.preparedId).isSome
      "prepared action with a reservation cannot be abandoned"
    s.transitionPreparedLocked
      { transitionId := call.transitionId
        preparedId := call.preparedId
        fromState := .prepared
        toState := .cancelled
        occurredAt := call.abandonedAt
        reason := some "pre-invocation action idempotency claim abandoned"
        legal := by decide }
      none
  | .released => do
    refuseIf (¬ s.fullyReleased call.preparedId)
      "released prepared action lacks full-release evidence"
    pure s
  | state =>
    .error (.configuration ("prepared action cannot be abandoned from state " ++ state.text))

def abandonPreparedActionIdempotency (call : AbandonCall) : StoreM PreparedRouteDecision :=
  fun s => do
    let missing := "prepared action idempotency binding is unavailable"
    let row ← demand (s.prepared.find? call.preparedId) missing
    let binding ← demand (s.actionBindings.find? call.preparedId) missing
    let record ← demand (s.idempotency.find? binding.idempotencyKey) missing
    refuseIf (binding.actionDigest ≠ call.actionDigest ∨ record.requestHash ≠ call.actionDigest)
      "prepared action abandonment digest does not match"
    refuseIf (∃ token ∈ call.claimToken, row.claimToken ≠ some token)
      "prepared action abandonment does not own the claim"
    refuseIf (record.state ≠ .claimed)
      "executing or completed action idempotency cannot be abandoned"
    let s' ← call.retire s row
    let retired ← demand (s'.prepared.find? call.preparedId) missing
    pure (retired.decision, { s' with
      actionBindings := s'.actionBindings.erase call.preparedId
      idempotency := s'.idempotency.erase binding.idempotencyKey })

/-- The arguments of `complete_prepared_action_idempotency`. -/
structure CompleteActionCall where
  preparedId : String
  actionDigest : String
  decisionId : String
  status : String
  receiptId : String

def PreparedRouteDecision.confirmedFree (decision : PreparedRouteDecision) : Prop :=
  decision.basis = none ∧ ∃ maximum ∈ decision.maximumCashAuthorization, maximum.amount = 0 ∧
    decision.expectedCash.actualCashCost maximum.currency = some 0

instance (decision : PreparedRouteDecision) : Decidable decision.confirmedFree := by
  unfold PreparedRouteDecision.confirmedFree; infer_instance

def ExecutionReceipt.isFree (receipt : ExecutionReceipt) : Bool :=
  receipt.names "attempt_id" && receipt.names "charge_id" && receipt.lacks "settlement_id"

/-- The checks of a final receipt against the settlement of a paid action, or its absence. -/
def CompleteActionCall.checkReceipt (call : CompleteActionCall) (s : Store) (row : PreparedRow)
    (receipt : ExecutionReceipt) : Result Unit := do
  refuseIf (receipt.decisionId ≠ call.decisionId ∨ receipt.status ≠ call.status ∨
      receipt.actionId ≠ row.payload.actionId ∨
      some receipt.executorId ≠ row.payload.selectedExecutorId ∨
      ¬ receipt.says "prepared_id" call.preparedId)
    "prepared action final receipt binding does not match its decision"
  match s.reservationOf call.preparedId with
  | none =>
    refuseIf (¬ row.payload.confirmedFree ∨ ¬ receipt.isFree)
      "prepared action free-route evidence is incomplete"
  | some payment =>
    refuseIf (payment.state ≠ .settled ∨
        ¬ (∃ settlement ∈ s.settlementOf payment.reservationId,
          settlement.status ∈ [SettlementStatus.completed, .settled] ∧
          receipt.says "settlement_id" settlement.settlementId) ∨
        ¬ receipt.says "attempt_id" payment.payload.attemptId ∨
        ¬ receipt.says "charge_id" payment.payload.chargeId)
      "prepared action final receipt binding does not match settlement"

def completePreparedActionIdempotency (call : CompleteActionCall) : StoreM Unit := fun s => do
  let missing := "settled prepared action idempotency evidence is incomplete"
  let binding ← demand (s.actionBindings.find? call.preparedId) missing
  let row ← demand (s.prepared.find? call.preparedId) missing
  refuseIf (binding.actionDigest ≠ call.actionDigest ∨ row.state ≠ .settled)
    "prepared action idempotency is not bound to a settled action"
  let receipt ← demand (s.evidence.receipts.find? call.receiptId)
    "prepared action final receipt is missing"
  call.checkReceipt s row receipt
  let record ← demand ((s.idempotency.find? binding.idempotencyKey).filter
      (·.requestHash = call.actionDigest))
    "prepared action idempotency claim is missing"
  if record.state = .complete then do
    refuseIf (¬ (record.decisionId = some call.decisionId ∧ record.status = some call.status ∧
        record.receiptIds = [call.receiptId]))
      "prepared action idempotency completion conflicts with durable result"
    pure ((), s)
  else
    pure ((), s.setIdempotency binding.idempotencyKey
      (IdempotencyRecord.completed call.decisionId call.status [call.receiptId]))

/-! ## Free actions -/

/-- The arguments of `settle_recovered_free_prepared` and the ids its transitions draw. -/
structure FreeRecovery where
  preparedId : String
  receiptId : String
  recoveredAt : Int
  settlingId : String
  settledId : String

def FreeRecovery.settling (call : FreeRecovery) (source : PreparedDecisionState)
    (h : .settling ∈ source.transitions) : PreparedRouteTransition where
  transitionId := call.settlingId
  preparedId := call.preparedId
  fromState := source
  toState := .settling
  occurredAt := call.recoveredAt
  reason := some "durable confirmed-free receipt recovered"
  legal := h

def FreeRecovery.settled (call : FreeRecovery) : PreparedRouteTransition where
  transitionId := call.settledId
  preparedId := call.preparedId
  fromState := .settling
  toState := .settled
  occurredAt := call.recoveredAt
  reason := some "confirmed-free recovery finalized accounting"
  legal := by decide

def FreeRecovery.check (call : FreeRecovery) (s : Store) (row : PreparedRow) : Result Unit := do
  refuseIf (¬ row.payload.confirmedFree) "recovered prepared action is not confirmed free"
  refuseIf (s.reservationOf call.preparedId).isSome
    "recovered free prepared action cannot have a payment reservation"
  let receipt ← demand (s.evidence.receipts.find? call.receiptId)
    "recovered free action receipt is missing"
  refuseIf (receipt.actionId ≠ row.payload.actionId ∨
      some receipt.executorId ≠ row.payload.selectedExecutorId ∨
      ¬ receipt.says "prepared_id" call.preparedId ∨ ¬ receipt.isFree)
    "recovered free action receipt binding does not match"

/-- The moves of a recovery from the state it finds. -/
def FreeRecovery.move (call : FreeRecovery) (s : Store) : PreparedDecisionState → Result Store
  | .settled => pure s
  | .settling => s.transitionPreparedLocked call.settled none
  | .invoking => do
    let s' ← s.transitionPreparedLocked (call.settling .invoking (by decide)) none
    s'.transitionPreparedLocked call.settled none
  | .indeterminate => do
    let s' ← s.transitionPreparedLocked (call.settling .indeterminate (by decide)) none
    s'.transitionPreparedLocked call.settled none
  | state =>
    .error (.configuration ("free prepared action cannot recover from state " ++ state.text))

def settleRecoveredFreePrepared (call : FreeRecovery) : StoreM PreparedRouteDecision := fun s => do
  let row ← demand (s.prepared.find? call.preparedId)
    "recovered free prepared decision is missing"
  call.check s row
  let s' ← call.move s row.state
  let settled ← demand (s'.prepared.find? call.preparedId)
    "recovered free prepared decision is missing"
  pure (settled.decision, s')

/-! ## What an operation on a record changes -/

def Store.TouchesKey (key : String) (s s' : Store) : Prop :=
  ∃ records f, s' = { s with idempotency := records } ∧ Table.Edits key f s.idempotency records

theorem Store.TouchesKey.refl (key : String) (s : Store) : s.TouchesKey key s := by
  refine ⟨s.idempotency, id, rfl, fun k => ?_⟩
  split
  · next h => rw [h, id]
  · rfl

section Touches

variable {s s' : Store} {key : String}

theorem Store.touchesKey_setIdempotency (f : Table.Rewrite IdempotencyRecord.idempotencyKey) :
    s.TouchesKey key (s.setIdempotency key f) :=
  ⟨_, _, rfl, Table.edits_modify _ _ _⟩

theorem claimIdempotency_touches {hash : String} {r : Option IdempotencyReport}
    (h : claimIdempotency key hash s = .ok (r, s')) : s.TouchesKey key s' := by
  unfold claimIdempotency at h
  split at h
  · cases h
    exact ⟨_, _, rfl, Table.edits_insert s.idempotency (.new key hash)⟩
  · split at h
    · cases h
    · cases h
      exact .refl key s

theorem completeIdempotency_touches {decisionId status : String} {receiptIds : List String}
    {u : Unit} (h : completeIdempotency key decisionId status receiptIds s = .ok (u, s')) :
    s.TouchesKey key s' := by
  unfold completeIdempotency at h
  split at h <;> cases h
  · exact Store.touchesKey_setIdempotency _
  · exact .refl key s

theorem abandonIdempotency_touches {u : Unit} (h : abandonIdempotency key s = .ok (u, s')) :
    s.TouchesKey key s' := by
  unfold abandonIdempotency at h
  split at h
  · simp only [bind_ok, raiseIf_ok, pure_ok, exists_const, Prod.mk.injEq] at h
    obtain ⟨-, -, rfl⟩ := h
    exact ⟨_, _, rfl, Table.edits_erase _ _⟩
  · cases h
    exact .refl key s

theorem markIdempotencyExecuting_touches {u : Unit}
    (h : markIdempotencyExecuting key s = .ok (u, s')) : s.TouchesKey key s' := by
  simp only [markIdempotencyExecuting, bind_ok, raiseIf_ok, pure_ok, exists_const,
    Prod.mk.injEq] at h
  obtain ⟨-, -, rfl⟩ := h
  exact Store.touchesKey_setIdempotency _

theorem markIdempotencyIndeterminate_touches {u : Unit}
    (h : markIdempotencyIndeterminate key s = .ok (u, s')) : s.TouchesKey key s' := by
  unfold markIdempotencyIndeterminate at h
  split at h <;> cases h
  · exact Store.touchesKey_setIdempotency _
  · exact .refl key s

end Touches

end AeepRouter

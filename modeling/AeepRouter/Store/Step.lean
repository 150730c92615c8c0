import AeepRouter.Store.Machine

/-!
# What one transaction can do

`Step P s s'` lists the ways the payment tables change, each with the guards its transaction
checked; `P` selects the reservations, settlements and refunds admitted. `StoreOp.exec_steps` says
that a successful transaction is a sequence of such steps (one, but for those that change two
independent tables), so an invariant of the steps is an invariant of the code.
-/

namespace AeepRouter

open Lib

/-- A move that closes a decision, as a settlement or a release does. -/
def PreparedRouteTransition.closes (transition : PreparedRouteTransition) : Prop :=
  transition.toState = .settled ∨ transition.toState = .released

instance (transition : PreparedRouteTransition) : Decidable transition.closes := by
  unfold PreparedRouteTransition.closes; infer_instance

/-- The targets of the moves that operations of their own make: an invocation, an abandonment, and
the recovery of a free action. -/
def operationTargets : List PreparedDecisionState := [.invoking, .cancelled, .settling, .settled]

/-- A store with a decision moved and the move recorded. -/
def Store.moved (s : Store) (transition : PreparedRouteTransition) : Store :=
  { s.setPreparedState transition.preparedId transition.toState with
    transitions := s.transitions.insert transition }

def Store.hold (s : Store) (reservation : PaymentReservationV2) : Store :=
  { s with reservations := s.reservations.insert (.ofReservation reservation) }

/-- A store with the columns of a hold moved. -/
def Store.changed (s : Store) (reservationId : String) (state : PaymentReservationState)
    (updatedAt : Int) (reason : Option String) : Store :=
  s.setReservation reservationId (PaymentRow.update state updatedAt reason)

def Store.intended (s : Store) (call : IntentCall) : Store :=
  s.setReservation call.reservationId call.claimed

/-- A store with a receipt added and its hold and decision closed. -/
def Store.settled (s : Store) (receipt : SettlementReceipt)
    (transitions : Table PreparedRouteTransition (·.transitionId)) : Store :=
  { (s.setReservation receipt.reservationId receipt.close).setPreparedState receipt.preparedId
      receipt.status.preparedTarget with
    settlements := s.settlements.insert receipt
    transitions := transitions }

structure IntentCall.Admitted (call : IntentCall) (row : PaymentRow) (prepared : PreparedRow) :
    Prop where
  prepared_state : prepared.state = call.intent.type.requiredPreparedState
  source : row.state = .indeterminate ∧ row.operationIntent = some call.intent ∨
    (row.state = .indeterminate ∨ row.state = .reserved) ∧ row.operationIntent = none
  forward : row.updatedAt ≤ call.updatedAt

/-- The guards of a new reservation. -/
structure ReserveCall.Admitted (call : ReserveCall) (s : Store) (prepared : PreparedRow) :
    Prop where
  arguments : call.checkArguments = .ok ()
  found : s.prepared.find? call.reservation.preparedId = some prepared
  prepared_state : prepared.state = .prepared
  decision : call.checkDecision prepared = .ok ()
  absent : s.existingReservation call.reservation = none
  budget : ∃ message, s.requireWithin call.budgetLimit call.reservation.maximumAmount
    call.periodStart message = .ok ()
  prepaid : ∃ message, s.requireWithin call.prepaidLimit call.reservation.maximumAmount none
    message = .ok ()
  unique : ∀ row ∈ s.reservations, ¬ row.clash (.ofReservation call.reservation)

structure SettlementReceipt.Admitted (receipt : SettlementReceipt) (s : Store) (row : PaymentRow)
    (prepared : PreparedRow) : Prop where
  found : s.reservations.find? receipt.reservationId = some row
  decision : s.prepared.find? row.payload.preparedId = some prepared
  bound : receipt.mismatch row prepared = none
  amounts : receipt.checkAmounts s.evidence row prepared = .ok ()
  absent : s.existingSettlement receipt = none
  source : row.state ∈ allowedSources receipt.status.reservationTarget
  prepared_source : prepared.state ∈ preparedSources receipt.status.preparedTarget
  intent : row.operationIntent.map (·.type) = some (receipt.expectedIntent prepared.state)
  forward : row.updatedAt ≤ receipt.settledAt

inductive Step (P : Store → StoreOp → Prop) (s : Store) : Store → Prop where
  | evidence (evidence : Evidence) : Step P s { s with evidence := evidence }
  | keys (op : StoreOp) (idempotency : Table IdempotencyRecord IdempotencyRecord.idempotencyKey)
      (actionBindings : Table PreparedActionIdempotencyRecord (·.preparedId)) :
      op.onKeys → P s op → Step P s { s with idempotency := idempotency, actionBindings := actionBindings }
  | saved (row : PreparedRow) : s.prepared.find? row.preparedId = none →
      row.state = row.payload.state → P s (.savePreparedDecision row.payload) →
      Step P s { s with prepared := s.prepared.insert row }
  | claimed (preparedId token : String) (claimedAt : Int) :
      Step P s (s.setClaim preparedId token claimedAt)
  | moved (transition : PreparedRouteTransition) (row : PreparedRow) :
      s.prepared.find? transition.preparedId = some row → row.state = transition.fromState →
      (transition.fromState = .prepared → transition.toState ≠ .reserved) →
      (transition.fromState = .reserved → transition.toState = .invoking →
        ∃ payment ∈ s.reservationOf transition.preparedId, payment.idle) →
      (transition.closes → s.reservationOf transition.preparedId = none ∨
        P s (.savePreparedTransition transition)) →
      s.transitions.find? transition.transitionId = none →
      (transition.toState ∈ operationTargets ∨ P s (.savePreparedTransition transition)) →
      Step P s (s.moved transition)
  | held (call : ReserveCall) (prepared : PreparedRow) : P s (.reservePayment call) →
      call.Admitted s prepared → s.transitions.find? call.transitionId = none →
      Step P s ((s.hold call.reservation).moved call.transition)
  /-- The same, when the id drawn for the transition is that of the same transition. -/
  | heldAgain (call : ReserveCall) (prepared : PreparedRow) : P s (.reservePayment call) →
      call.Admitted s prepared → s.transitions.find? call.transitionId = some call.transition →
      Step P s (s.hold call.reservation)
  | changed (reservationId : String) (row : PaymentRow) (state : PaymentReservationState)
      (updatedAt : Int) (reason : Option String) :
      s.reservations.find? reservationId = some row → state ∈ row.state.allowed →
      row.updatedAt ≤ updatedAt → Step P s (s.changed reservationId state updatedAt reason)
  | intended (call : IntentCall) (row : PaymentRow) (prepared : PreparedRow) :
      s.reservations.find? call.reservationId = some row →
      s.prepared.find? row.payload.preparedId = some prepared → call.Admitted row prepared →
      Step P s (s.intended call)
  | settled (receipt : SettlementReceipt) (transitionId : String) (row : PaymentRow)
      (prepared : PreparedRow) (transitions : Table PreparedRouteTransition (·.transitionId))
      (h : receipt.Admitted s row prepared) : P s (.saveSettlementReceipt receipt transitionId) →
      immutableInsert "prepared_route_transitions" id (fun _ _ => False) s.transitions
        (receipt.transition transitionId prepared.state h.prepared_source) = .ok transitions →
      Step P s (s.settled receipt transitions)
  | authorized (call : RefundCall) (settlement : SettlementReceipt) : P s (.authorizeRefund call) →
      s.existingAuthorization call.refundId call.idempotencyKey = none → 0 < call.amount.amount →
      s.settlements.find? call.settlementId = some settlement →
      settlement.reservedAmount.currency = call.amount.currency →
      s.refundTotal call.settlementId none call.amount.amount ≤ settlement.capturedAmount.amount →
      Step P s { s with
        refundAuthorizations := s.refundAuthorizations.insert (call.record settlement) }
  | refunded (refund : RefundReceiptV2) (s' : Store) : P s (.saveRefundReceipt refund) →
      s.insertRefundReceiptLocked refund none = .ok s' → Step P s s'
  | completed (refund : RefundReceiptV2) (record : RefundAuthorizationRecord) (s' : Store) :
      P s (.completeRefund refund) →
      s.existingAuthorization refund.refundId refund.idempotencyKey = some record →
      record.allows refund → record.state ≠ .released →
      s.insertRefundReceiptLocked refund (some refund.refundId) = .ok s' →
      Step P s (s'.setAuthorization refund.refundId .completed refund.refundedAt)
  | suspended (refundId : String) (record : RefundAuthorizationRecord) (updatedAt : Int) :
      s.refundAuthorizations.find? refundId = some record → record.state.pending →
      Step P s (s.setAuthorization refundId .indeterminate updatedAt)
  | released (refundId : String) (record : RefundAuthorizationRecord) (updatedAt : Int) :
      s.refundAuthorizations.find? refundId = some record → record.state ≠ .completed →
      Step P s (s.setAuthorization refundId .released updatedAt)

abbrev Steps (P : Store → StoreOp → Prop) : Store → Store → Prop := Relation.ReflTransGen (Step P)

/-! ## Moves of prepared decisions -/

section Exec

variable {P : Store → StoreOp → Prop} {crypto : Crypto} {s s' : Store}

/-- A recorded transition is found again; a new one moves the decision from its source. -/
theorem transitionPreparedLocked_ok {transition : PreparedRouteTransition} {token : Option String}
    (h : s.transitionPreparedLocked transition token = .ok s') :
    (s' = s ∧ s.transitions.find? transition.transitionId = some transition) ∨
    (s' = s.moved transition ∧ s.transitions.find? transition.transitionId = none ∧
      (∃ row, s.prepared.find? transition.preparedId = some row ∧
        row.state = transition.fromState) ∧
      (transition.fromState = .reserved → transition.toState = .invoking →
        ∃ payment ∈ s.reservationOf transition.preparedId, payment.idle)) := by
  unfold Store.transitionPreparedLocked at h
  split at h
  · next existing hfound =>
    split at h
    · next heq =>
      cases h
      exact .inl ⟨rfl, heq ▸ hfound⟩
    · cases h
  · next hnone =>
    simp only [bind_ok, raiseIf_ok, pure_ok, exists_const, not_and, not_not] at h
    obtain ⟨hidle, ⟨row, hrow, hstate, -⟩, transitions, hins, rfl⟩ := h
    obtain ⟨-, y, hy, -⟩ | ⟨rfl, -, -⟩ := immutableInsert_ok.mp hins
    · rw [hnone] at hy
      cases hy
    · exact .inr ⟨rfl, hnone, ⟨row, hrow, hstate⟩, hidle⟩

theorem transitionPreparedLocked_steps {transition : PreparedRouteTransition}
    {token : Option String} (h : s.transitionPreparedLocked transition token = .ok s')
    (hnot : transition.fromState = .prepared → transition.toState ≠ .reserved)
    (hcloses : transition.closes → s.reservationOf transition.preparedId = none ∨
      P s (.savePreparedTransition transition))
    (htarget : transition.toState ∈ operationTargets ∨ P s (.savePreparedTransition transition)) :
    Steps P s s' := by
  obtain ⟨rfl, -⟩ | ⟨rfl, hnone, ⟨row, hrow, hstate⟩, hidle⟩ := transitionPreparedLocked_ok h
  · exact .refl
  · exact .single (.moved transition row hrow hstate hnot hidle hcloses hnone htarget)

/-- A move of a decision leaves the reservations alone. -/
theorem transitionPreparedLocked_reservations {transition : PreparedRouteTransition}
    {token : Option String} (h : s.transitionPreparedLocked transition token = .ok s') :
    s'.reservations = s.reservations := by
  obtain ⟨rfl, -⟩ | ⟨rfl, -⟩ := transitionPreparedLocked_ok h <;> rfl

theorem savePreparedDecision_steps {decision result : PreparedRouteDecision}
    (hP : P s (.savePreparedDecision decision))
    (h : savePreparedDecision decision s = .ok (result, s')) : Steps P s s' := by
  simp only [savePreparedDecision, bind_ok, raiseIf_ok, require_ok, pure_ok, exists_const,
    Prod.mk.injEq] at h
  obtain ⟨-, prepared, hins, -, -, -, rfl⟩ := h
  obtain ⟨rfl, -⟩ | ⟨rfl, hnone, -⟩ := immutableInsert_ok.mp hins
  · exact .refl
  · exact .single (.saved _ hnone rfl hP)

theorem claimPreparedDecision_steps {preparedId token : String} {claimedAt : Int}
    {result : PreparedRouteDecision}
    (h : claimPreparedDecision preparedId token claimedAt s = .ok (result, s')) :
    Steps P s s' := by
  simp only [claimPreparedDecision, bind_ok, raiseIf_ok, require_ok, exists_const] at h
  obtain ⟨-, row, -, h⟩ := h
  split at h
  · simp only [bind_ok, raiseIf_ok, pure_ok, exists_const, Prod.mk.injEq] at h
    obtain ⟨-, -, rfl⟩ := h
    exact .single (.claimed _ _ _)
  · simp only [bind_ok, raiseIf_ok, pure_ok, exists_const, Prod.mk.injEq] at h
    obtain ⟨-, -, -, rfl⟩ := h
    exact .refl

theorem savePreparedTransition_steps {transition result : PreparedRouteTransition}
    (hP : P s (.savePreparedTransition transition))
    (h : savePreparedTransition transition s = .ok (result, s')) : Steps P s s' := by
  simp only [savePreparedTransition, bind_ok, raiseIf_ok, pure_ok, exists_const, Prod.mk.injEq] at h
  obtain ⟨hhold, -, -, t, hmove, -, rfl⟩ := h
  exact transitionPreparedLocked_steps hmove (fun hfrom hto => hhold ⟨hfrom, hto⟩)
    (fun _ => .inr hP) (.inr hP)

theorem claimPreparedForInvocation_steps {call : FreeInvocation} {result : PreparedRouteDecision}
    (h : claimPreparedForInvocation call s = .ok (result, s')) : Steps P s s' := by
  simp only [claimPreparedForInvocation, bind_ok, raiseIf_ok, require_ok, pure_ok, exists_const,
    Prod.mk.injEq] at h
  obtain ⟨-, row, -, -, -, -, -, -, amount, -, -, -, t, hmove, -, rfl⟩ := h
  exact transitionPreparedLocked_steps hmove (fun _ => nofun) nofun
    (.inl (show PreparedDecisionState.invoking ∈ operationTargets by decide))

def PaidInvocation.transition (call : PaidInvocation) : PreparedRouteTransition where
  transitionId := call.transitionId
  preparedId := call.preparedId
  fromState := .reserved
  toState := .invoking
  occurredAt := call.invokedAt
  reason := some "claimed paid invocation after atomic route and trust revalidation"
  legal := PreparedDecisionState.invoking_mem_reserved

theorem claimPreparedForPaidInvocation_ok {call : PaidInvocation} {result : PreparedRouteDecision}
    (h : claimPreparedForPaidInvocation crypto call s = .ok (result, s')) :
    ∃ row payment token, s.prepared.find? call.preparedId = some row ∧ row.state = .reserved ∧
      s.reservationOf call.preparedId = some payment ∧ payment.idle ∧
      s.transitionPreparedLocked call.transition token = .ok s' := by
  simp only [claimPreparedForPaidInvocation, bind_ok, raiseIf_ok, require_ok, exists_const] at h
  obtain ⟨-, row, hrow, h⟩ := h
  split at h
  · cases h
  · simp only [bind_ok, raiseIf_ok, require_ok, pure_ok, exists_const, Prod.mk.injEq, not_or,
      ne_eq, not_not] at h
    obtain ⟨hstate, -, -, payment, hpayment, ⟨hidle, -⟩, -, maximum, -, -, t, hmove, -, rfl⟩ := h
    exact ⟨row, payment, _, hrow, hstate, hpayment, hidle, hmove⟩

theorem claimPreparedForPaidInvocation_steps {call : PaidInvocation}
    {result : PreparedRouteDecision}
    (h : claimPreparedForPaidInvocation crypto call s = .ok (result, s')) : Steps P s s' := by
  obtain ⟨row, payment, token, -, -, -, -, hmove⟩ := claimPreparedForPaidInvocation_ok h
  exact transitionPreparedLocked_steps hmove nofun nofun
    (.inl (show PreparedDecisionState.invoking ∈ operationTargets by decide))

/-- What a recovered decision goes through: nothing, or its moves to `SETTLED`. -/
theorem settleRecoveredFreePrepared_ok {call : FreeRecovery} {result : PreparedRouteDecision}
    (h : settleRecoveredFreePrepared call s = .ok (result, s')) :
    s' = s ∨ s.transitionPreparedLocked call.settled none = .ok s' ∨
      ∃ source hsource t, source ∈ [PreparedDecisionState.invoking, .indeterminate] ∧
        s.transitionPreparedLocked (call.settling source hsource) none = .ok t ∧
        t.transitionPreparedLocked call.settled none = .ok s' := by
  simp only [settleRecoveredFreePrepared, bind_ok, require_ok, pure_ok, Prod.mk.injEq] at h
  obtain ⟨row, -, ⟨⟩, -, t, hmove, settled, -, -, rfl⟩ := h
  unfold FreeRecovery.move at hmove
  split at hmove
  · rw [pure_ok] at hmove
    exact .inl hmove.symm
  · exact .inr (.inl hmove)
  · obtain ⟨u, hfirst, hlast⟩ := bind_ok.mp hmove
    exact .inr (.inr ⟨_, _, u, by decide, hfirst, hlast⟩)
  · obtain ⟨u, hfirst, hlast⟩ := bind_ok.mp hmove
    exact .inr (.inr ⟨_, _, u, by decide, hfirst, hlast⟩)
  · cases hmove

theorem settleRecoveredFreePrepared_unheld {call : FreeRecovery} {result : PreparedRouteDecision}
    (h : settleRecoveredFreePrepared call s = .ok (result, s')) :
    s.reservationOf call.preparedId = none := by
  simp only [settleRecoveredFreePrepared, FreeRecovery.check, bind_ok, require_ok, raiseIf_ok,
    exists_const] at h
  obtain ⟨row, -, ⟨-, hnone, -⟩, -⟩ := h
  simpa using hnone

theorem settleRecoveredFreePrepared_steps {call : FreeRecovery} {result : PreparedRouteDecision}
    (h : settleRecoveredFreePrepared call s = .ok (result, s')) : Steps P s s' := by
  have hunheld := settleRecoveredFreePrepared_unheld h
  obtain rfl | hlast | ⟨source, hsource, t, -, hfirst, hlast⟩ := settleRecoveredFreePrepared_ok h
  · exact .refl
  · exact transitionPreparedLocked_steps hlast (fun _ => nofun) (fun _ => .inl hunheld)
      (.inl (show PreparedDecisionState.settled ∈ operationTargets by decide))
  · have hstill : t.reservationOf call.preparedId = none := by
      rw [Store.reservationOf, transitionPreparedLocked_reservations hfirst]
      exact hunheld
    exact (transitionPreparedLocked_steps hfirst (fun _ => nofun) nofun
        (.inl (show PreparedDecisionState.settling ∈ operationTargets by decide))).trans
      (transitionPreparedLocked_steps hlast (fun _ => nofun) (fun _ => .inl hstill)
        (.inl (show PreparedDecisionState.settled ∈ operationTargets by decide)))

/-! ## Holds -/

theorem reservePaymentV2_steps {call : ReserveCall} {result : PaymentReservationV2}
    (hP : P s (.reservePayment call)) (h : reservePaymentV2 crypto call s = .ok (result, s')) :
    Steps P s s' := by
  simp only [reservePaymentV2, bind_ok, raiseIf_ok, require_ok, exists_const] at h
  obtain ⟨⟨⟩, hargs, prepared, hprepared, -, h⟩ := h
  split at h
  · next existing hexisting =>
    simp only [bind_ok, raiseIf_ok, exists_const] at h
    obtain ⟨-, h⟩ := h
    split at h
    · simp only [pure_ok, Prod.mk.injEq] at h
      obtain ⟨-, rfl⟩ := h
      exact .refl
    · simp only [bind_ok, raiseIf_ok, pure_ok, exists_const, Prod.mk.injEq] at h
      obtain ⟨-, -, -, rfl⟩ := h
      exact .refl
  · next habsent =>
    simp only [bind_ok, raiseIf_ok, pure_ok, exists_const, Prod.mk.injEq, ne_eq, not_not,
      ReserveCall.insert] at h
    obtain ⟨hstate, ⟨⟨⟩, hdecision, -⟩, t, ⟨⟨⟩, hbudget, ⟨⟩, hprepaid, reservations, hins, hmove⟩,
      -, rfl⟩ := h
    obtain ⟨rfl, hnone, hunique⟩ : reservations = s.reservations.insert
        (.ofReservation call.reservation) ∧
        s.reservations.find? call.reservation.reservationId = none ∧
        ∀ row ∈ s.reservations, ¬ row.clash (.ofReservation call.reservation) := by
      obtain ⟨-, y, hy, -⟩ | hnew := immutableInsert_ok.mp hins
      · -- a row of that id would have been found as existing
        have hrow := List.find?_eq_none.mp habsent y (Table.mem_of_find? hy)
        have hid : y.reservationId = call.reservation.reservationId := Table.key_of_find? hy
        simp [show y.payload.reservationId = _ from hid] at hrow
      · exact hnew
    have hadm : call.Admitted s prepared :=
      ⟨hargs, hprepared, hstate, hdecision, habsent, ⟨_, hbudget⟩, ⟨_, hprepaid⟩, hunique⟩
    obtain ⟨rfl, hfound⟩ | ⟨rfl, hnew, -⟩ := transitionPreparedLocked_ok hmove
    · exact .single (.heldAgain call prepared hP hadm hfound)
    · exact .single (.held call prepared hP hadm hnew)

theorem transitionPaymentReservationV2_steps {reservationId : String}
    {expectedState : PaymentReservationState} {updated result : PaymentReservationV2}
    (h : transitionPaymentReservationV2 reservationId expectedState updated s = .ok (result, s')) :
    Steps P s s' := by
  simp only [transitionPaymentReservationV2, bind_ok, raiseIf_ok, require_ok, exists_const] at h
  obtain ⟨-, -, hallowed, row, hrow, -, hforward, h⟩ := h
  split at h
  · simp only [bind_ok, raiseIf_ok, pure_ok, exists_const, Prod.mk.injEq] at h
    obtain ⟨-, -, rfl⟩ := h
    exact .refl
  · next hstate =>
    simp only [pure_ok, Prod.mk.injEq] at h
    obtain ⟨-, rfl⟩ := h
    rw [ne_eq, not_not] at hstate
    rw [not_not, ← hstate] at hallowed
    exact .single (.changed reservationId row _ _ _ hrow hallowed (not_lt.mp hforward))

/-- A claim that passes its checks finds the decision where its operation begins. -/
theorem IntentCall.admitted_of_checkRow {call : IntentCall} {evidence : Evidence}
    {row : PaymentRow} {prepared : PreparedRow} (h : call.checkRow evidence row prepared = .ok ())
    (hforward : row.updatedAt ≤ call.updatedAt) : call.Admitted row prepared := by
  unfold IntentCall.checkRow at h
  split at h
  · next hown =>
    simp only [raiseIf_ok, ne_eq, not_not] at h
    exact ⟨h, .inl hown, hforward⟩
  · split at h
    · next hfree =>
      simp only [bind_ok, raiseIf_ok, exists_const, not_or, ne_eq, not_not] at h
      obtain ⟨⟨htype, hprepared⟩, -⟩ := h
      exact ⟨by rw [htype]; exact hprepared, .inr ⟨.inl hfree.1, hfree.2⟩, hforward⟩
    · simp only [bind_ok, raiseIf_ok, exists_const, ne_eq, not_not, Bool.not_eq_true,
        Option.isSome_eq_false_iff, Option.isNone_iff_eq_none] at h
      obtain ⟨hstate, hintent, hprepared⟩ := h
      exact ⟨hprepared, .inr ⟨.inr hstate, hintent⟩, hforward⟩

theorem claimPaymentIntentV2_steps {call : IntentCall} {result : PaymentReservationV2}
    (h : claimPaymentIntentV2 call s = .ok (result, s')) : Steps P s s' := by
  simp only [claimPaymentIntentV2, bind_ok, raiseIf_ok, require_ok, exists_const] at h
  obtain ⟨-, row, hrow, prepared, hprepared, h⟩ := h
  split at h
  · simp only [pure_ok, Prod.mk.injEq] at h
    obtain ⟨-, rfl⟩ := h
    exact .refl
  · simp only [bind_ok, raiseIf_ok, pure_ok, exists_const, Prod.mk.injEq, not_lt] at h
    obtain ⟨⟨⟩, hcheck, hforward, -, rfl⟩ := h
    exact .single (.intended call row prepared hrow hprepared
      (IntentCall.admitted_of_checkRow hcheck hforward))

/-! ## Settlements and refunds -/

theorem saveSettlementReceipt_steps {receipt result : SettlementReceipt} {transitionId : String}
    (hP : P s (.saveSettlementReceipt receipt transitionId))
    (h : saveSettlementReceipt crypto receipt transitionId s = .ok (result, s')) :
    Steps P s s' := by
  simp only [saveSettlementReceipt, bind_ok, require_ok] at h
  obtain ⟨row, hrow, prepared, hprepared, h⟩ := h
  split at h
  · cases h
  next hbound =>
  simp only [bind_ok] at h
  obtain ⟨⟨⟩, hamounts, h⟩ := h
  split at h
  · simp only [bind_ok, raiseIf_ok, pure_ok, exists_const, Prod.mk.injEq] at h
    obtain ⟨-, -, -, -, rfl⟩ := h
    exact .refl
  next habsent =>
  simp only [bind_ok, raiseIf_ok, exists_const, not_not] at h
  obtain ⟨hsource, h⟩ := h
  split at h
  · next hprep =>
    simp only [SettlementReceipt.checkIntent, SettlementReceipt.insert, bind_ok, raiseIf_ok,
      pure_ok, exists_const, Prod.mk.injEq, ne_eq, not_not, not_lt] at h
    obtain ⟨⟨hintent, -, hforward⟩, t, ⟨settlements, hset, transitions, htrans, rfl⟩, -, rfl⟩ := h
    obtain rfl : settlements = s.settlements.insert receipt := by
      obtain ⟨-, y, hy, -⟩ | ⟨hnew, -⟩ := immutableInsert_ok.mp hset
      · -- a receipt of that id would have been found as existing
        have hno := List.find?_eq_none.mp habsent y (Table.mem_of_find? hy)
        simp [show y.settlementId = receipt.settlementId from Table.key_of_find? hy] at hno
      · exact hnew
    have hadm : receipt.Admitted s row prepared :=
      ⟨hrow, hprepared, hbound, hamounts, habsent, hsource, hprep, hintent, hforward⟩
    exact .single (.settled receipt transitionId row prepared transitions hadm hP htrans)
  · cases h

theorem authorizeRefundV2_steps {call : RefundCall} {record : RefundAuthorizationRecord}
    (hP : P s (.authorizeRefund call)) (h : authorizeRefundV2 call s = .ok (record, s')) :
    Steps P s s' := by
  simp only [authorizeRefundV2, bind_ok, raiseIf_ok, exists_const] at h
  obtain ⟨hpos, -, h⟩ := h
  split at h
  · simp only [bind_ok, raiseIf_ok, pure_ok, exists_const, Prod.mk.injEq] at h
    obtain ⟨-, -, rfl⟩ := h
    exact .refl
  · next habsent =>
    simp only [bind_ok, raiseIf_ok, require_ok, pure_ok, exists_const, Prod.mk.injEq, ne_eq,
      not_not, not_lt] at h
    obtain ⟨settlement, hfound, hcurrency, htotal, -, rfl⟩ := h
    exact .single (.authorized call settlement hP habsent (not_le.mp hpos) hfound hcurrency htotal)

theorem saveRefundReceiptV2_steps {refund result : RefundReceiptV2}
    (hP : P s (.saveRefundReceipt refund)) (h : saveRefundReceiptV2 refund s = .ok (result, s')) :
    Steps P s s' := by
  simp only [saveRefundReceiptV2, bind_ok, pure_ok, Prod.mk.injEq] at h
  obtain ⟨t, hins, -, rfl⟩ := h
  exact .single (.refunded refund t hP hins)

theorem completeRefundV2_steps {refund result : RefundReceiptV2}
    (hP : P s (.completeRefund refund)) (h : completeRefundV2 refund s = .ok (result, s')) :
    Steps P s s' := by
  simp only [completeRefundV2, bind_ok, raiseIf_ok, require_ok, pure_ok, exists_const,
    Prod.mk.injEq, not_not] at h
  obtain ⟨record, hfound, hallows, hstate, t, hins, -, rfl⟩ := h
  exact .single (.completed refund record t hP hfound hallows hstate hins)

theorem markRefundAuthorizationIndeterminate_steps {refundId : String} {updatedAt : Int}
    {record : RefundAuthorizationRecord}
    (h : markRefundAuthorizationIndeterminate refundId updatedAt s = .ok (record, s')) :
    Steps P s s' := by
  simp only [markRefundAuthorizationIndeterminate, bind_ok, raiseIf_ok, require_ok, pure_ok,
    exists_const, Prod.mk.injEq, not_not] at h
  obtain ⟨stored, hfound, hpending, -, rfl⟩ := h
  exact .single (.suspended refundId stored updatedAt hfound hpending)

theorem releaseRefundAuthorizationV2_steps {refundId digest : String} {releasedAt : Int}
    {record : RefundAuthorizationRecord}
    (h : releaseRefundAuthorizationV2 refundId digest releasedAt s = .ok (record, s')) :
    Steps P s s' := by
  simp only [releaseRefundAuthorizationV2, bind_ok, raiseIf_ok, require_ok, pure_ok,
    exists_const, Prod.mk.injEq] at h
  obtain ⟨stored, hfound, -, hstate, -, rfl⟩ := h
  exact .single (.released refundId stored releasedAt hfound hstate)

/-! ## Idempotency records -/

theorem Store.TouchesKey.steps {key : String} {op : StoreOp} (hop : op.onKeys) (hP : P s op)
    (h : s.TouchesKey key s') : Steps P s s' := by
  obtain ⟨records, -, rfl, -⟩ := h
  exact .single (.keys op _ _ hop hP)

theorem PaymentKeyOp.exec_touches {op : PaymentKeyOp} {r : KeyOutcome}
    (h : op.exec s = .ok (r, s')) :
    ∃ key, paymentOperationKey op.name.1 op.name.2 = .ok key ∧ s.TouchesKey key s' := by
  cases op with
  | claim operation key digest =>
    simp only [exec, StoreM.wrap_ok, claimPaymentOperation, bind_ok] at h
    obtain ⟨_, ⟨key, hkey, h⟩, -⟩ := h
    exact ⟨key, hkey, claimIdempotency_touches h⟩
  | complete operation key resultType resultId =>
    simp only [exec, StoreM.wrap_ok, completePaymentOperation, bind_ok, raiseIf_ok, require_ok,
      exists_const] at h
    obtain ⟨_, ⟨-, key, hkey, record, -, h⟩, -⟩ := h
    refine ⟨key, hkey, ?_⟩
    split at h
    · simp only [bind_ok, raiseIf_ok, pure_ok, exists_const, Prod.mk.injEq] at h
      obtain ⟨-, -, rfl⟩ := h
      exact .refl key s
    · simp only [pure_ok, Prod.mk.injEq] at h
      obtain ⟨-, rfl⟩ := h
      exact Store.touchesKey_setIdempotency _
  | markExecuting operation key =>
    simp only [exec, StoreM.wrap_ok, markPaymentOperationExecuting, bind_ok, raiseIf_ok, pure_ok,
      exists_const, Prod.mk.injEq] at h
    obtain ⟨⟨key, hkey, -, -, rfl⟩, -⟩ := h
    exact ⟨key, hkey, Store.touchesKey_setIdempotency _⟩
  | markIndeterminate operation key =>
    simp only [exec, StoreM.wrap_ok, markPaymentOperationIndeterminate, bind_ok] at h
    obtain ⟨_, ⟨key, hkey, h⟩, -⟩ := h
    exact ⟨key, hkey, markIdempotencyIndeterminate_touches h⟩
  | abandon operation key =>
    simp only [exec, StoreM.wrap_ok, abandonPaymentOperation, bind_ok] at h
    obtain ⟨_, ⟨key, hkey, h⟩, -⟩ := h
    exact ⟨key, hkey, abandonIdempotency_touches h⟩
  | get operation key =>
    simp only [exec, StoreM.wrap_ok, getPaymentOperation, bind_ok, pure_ok, Prod.mk.injEq] at h
    obtain ⟨_, ⟨key, hkey, -, rfl⟩, -⟩ := h
    exact ⟨key, hkey, .refl key s⟩

theorem ActionOp.exec_steps {op : ActionOp} {r : KeyOutcome} (hP : P s (.action op))
    (h : op.exec s = .ok (r, s')) : Steps P s s' := by
  cases op with
  | claim key hash =>
    simp only [exec, StoreM.wrap_ok] at h
    obtain ⟨_, h, -⟩ := h
    exact (claimIdempotency_touches h).steps rfl hP
  | complete key decisionId status receiptIds =>
    simp only [exec, StoreM.wrap_ok] at h
    obtain ⟨_, h, -⟩ := h
    exact (completeIdempotency_touches h).steps rfl hP
  | abandon key =>
    simp only [exec, StoreM.wrap_ok] at h
    obtain ⟨_, h, -⟩ := h
    exact (abandonIdempotency_touches h).steps rfl hP
  | markExecuting key =>
    simp only [exec, StoreM.wrap_ok] at h
    obtain ⟨_, h, -⟩ := h
    exact (markIdempotencyExecuting_touches h).steps rfl hP
  | markIndeterminate key =>
    simp only [exec, StoreM.wrap_ok] at h
    obtain ⟨_, h, -⟩ := h
    exact (markIdempotencyIndeterminate_touches h).steps rfl hP
  | claimPrepared call =>
    simp only [exec, StoreM.wrap_ok, claimPreparedDecisionWithActionIdempotency, bind_ok,
      require_ok] at h
    obtain ⟨_, ⟨-, -, row, -, -, -, -, -, h⟩, -⟩ := h
    have hbind : Steps P s (call.bind s) := .single (.keys _ _ _ rfl hP)
    split at h
    · simp only [bind_ok, raiseIf_ok, pure_ok, exists_const, Prod.mk.injEq] at h
      obtain ⟨-, -, rfl⟩ := h
      exact hbind.tail (.claimed _ _ _)
    · simp only [pure_ok, Prod.mk.injEq] at h
      obtain ⟨-, rfl⟩ := h
      exact hbind
  | bindPrepared call =>
    simp only [exec, StoreM.wrap_ok, bindPreparedActionIdempotency, bind_ok, require_ok] at h
    obtain ⟨_, ⟨-, -, -, -, row, -, -, -, h⟩, -⟩ := h
    split at h
    · cases h
    · simp only [bind_ok, raiseIf_ok, pure_ok, exists_const, Prod.mk.injEq] at h
      obtain ⟨-, -, rfl⟩ := h
      exact .refl
    · cases h
  | abandonPrepared call =>
    simp only [exec, StoreM.wrap_ok, abandonPreparedActionIdempotency, bind_ok, raiseIf_ok,
      require_ok, pure_ok, exists_const, Prod.mk.injEq] at h
    obtain ⟨_, ⟨row, -, binding, -, record, -, -, -, -, t, hretire, retired, -, -, rfl⟩, -⟩ := h
    have hkeys : Steps P s { s with
        actionBindings := s.actionBindings.erase call.preparedId
        idempotency := s.idempotency.erase binding.idempotencyKey } :=
      .single (.keys _ _ _ rfl hP)
    unfold AbandonCall.retire at hretire
    split at hretire
    · simp only [bind_ok, raiseIf_ok, exists_const] at hretire
      obtain ⟨-, -, hmove⟩ := hretire
      obtain ⟨rfl, -⟩ | ⟨rfl, hnone, ⟨found, hfound, hstate⟩, hidle⟩ :=
        transitionPreparedLocked_ok hmove
      · exact hkeys
      · exact hkeys.tail (.moved _ found hfound hstate (fun _ => nofun) hidle nofun hnone
          (.inl (show PreparedDecisionState.cancelled ∈ operationTargets by decide)))
    · simp only [bind_ok, raiseIf_ok, pure_ok, exists_const] at hretire
      obtain ⟨-, rfl⟩ := hretire
      exact hkeys
    · cases hretire
  | completePrepared call =>
    simp only [exec, StoreM.wrap_ok, completePreparedActionIdempotency, bind_ok, raiseIf_ok,
      require_ok, exists_const] at h
    obtain ⟨_, ⟨binding, -, row, -, -, receipt, -, -, -, record, -, h⟩, -⟩ := h
    split at h
    · simp only [bind_ok, raiseIf_ok, pure_ok, exists_const, Prod.mk.injEq] at h
      obtain ⟨-, -, rfl⟩ := h
      exact .refl
    · simp only [pure_ok, Prod.mk.injEq] at h
      obtain ⟨-, rfl⟩ := h
      exact .single (.keys _ _ _ rfl hP)

/-! ## Every transaction -/

/-- A successful transaction is a sequence of steps. -/
theorem StoreOp.exec_steps {op : StoreOp} {u : Unit} (hP : P s op)
    (h : op.exec crypto s = .ok (u, s')) : Steps P s s' := by
  cases op with
  | writeEvidence evidence =>
    cases h
    exact .single (.evidence evidence)
  | savePreparedDecision decision =>
    simp only [exec, StoreM.wrap_ok] at h
    obtain ⟨_, h, -⟩ := h
    exact savePreparedDecision_steps hP h
  | claimPreparedDecision preparedId token claimedAt =>
    simp only [exec, StoreM.wrap_ok] at h
    obtain ⟨_, h, -⟩ := h
    exact claimPreparedDecision_steps h
  | savePreparedTransition transition =>
    simp only [exec, StoreM.wrap_ok] at h
    obtain ⟨_, h, -⟩ := h
    exact savePreparedTransition_steps hP h
  | claimPreparedForInvocation call =>
    simp only [exec, StoreM.wrap_ok] at h
    obtain ⟨_, h, -⟩ := h
    exact claimPreparedForInvocation_steps h
  | claimPreparedForPaidInvocation call =>
    simp only [exec, StoreM.wrap_ok] at h
    obtain ⟨_, h, -⟩ := h
    exact claimPreparedForPaidInvocation_steps h
  | reservePayment call =>
    simp only [exec, StoreM.wrap_ok] at h
    obtain ⟨_, h, -⟩ := h
    exact reservePaymentV2_steps hP h
  | transitionPaymentReservation reservationId expectedState updated =>
    simp only [exec, StoreM.wrap_ok] at h
    obtain ⟨_, h, -⟩ := h
    exact transitionPaymentReservationV2_steps h
  | claimPaymentIntent call =>
    simp only [exec, StoreM.wrap_ok] at h
    obtain ⟨_, h, -⟩ := h
    exact claimPaymentIntentV2_steps h
  | saveSettlementReceipt receipt transitionId =>
    simp only [exec, StoreM.wrap_ok] at h
    obtain ⟨_, h, -⟩ := h
    exact saveSettlementReceipt_steps hP h
  | authorizeRefund call =>
    simp only [exec, StoreM.wrap_ok] at h
    obtain ⟨_, h, -⟩ := h
    exact authorizeRefundV2_steps hP h
  | completeRefund refund =>
    simp only [exec, StoreM.wrap_ok] at h
    obtain ⟨_, h, -⟩ := h
    exact completeRefundV2_steps hP h
  | markRefundIndeterminate refundId updatedAt =>
    simp only [exec, StoreM.wrap_ok] at h
    obtain ⟨_, h, -⟩ := h
    exact markRefundAuthorizationIndeterminate_steps h
  | releaseRefund refundId digest releasedAt =>
    simp only [exec, StoreM.wrap_ok] at h
    obtain ⟨_, h, -⟩ := h
    exact releaseRefundAuthorizationV2_steps h
  | saveRefundReceipt refund =>
    simp only [exec, StoreM.wrap_ok] at h
    obtain ⟨_, h, -⟩ := h
    exact saveRefundReceiptV2_steps hP h
  | action op =>
    simp only [exec, StoreM.wrap_ok] at h
    obtain ⟨_, h, -⟩ := h
    exact op.exec_steps hP h
  | paymentKey op =>
    simp only [exec, StoreM.wrap_ok] at h
    obtain ⟨_, h, -⟩ := h
    obtain ⟨key, -, htouches⟩ := op.exec_touches h
    exact htouches.steps rfl hP
  | settleRecoveredFree call =>
    simp only [exec, StoreM.wrap_ok] at h
    obtain ⟨_, h, -⟩ := h
    exact settleRecoveredFreePrepared_steps h

/-- A transaction, successful or not, is a sequence of steps. -/
theorem Store.apply_steps (crypto : Crypto) (s : Store) {op : StoreOp} (hP : P s op) :
    Steps P s (s.apply crypto op) :=
  commit_induction .refl fun _ _ h => StoreOp.exec_steps hP h

/-- What every step keeps, every transaction keeps. -/
theorem Store.apply_invariant {Inv : Store → Prop} (hstep : ∀ s s', Step P s s' → Inv s → Inv s')
    {op : StoreOp} (hP : P s op) (hs : Inv s) : Inv (s.apply crypto op) := by
  have hsteps : ∀ s', Steps P s s' → Inv s' := by
    intro s' h
    induction h with
    | refl => exact hs
    | tail _ hlast ih => exact hstep _ _ hlast ih
  exact hsteps _ (s.apply_steps crypto hP)

/-- A transaction on other tables leaves the records of keys alone. -/
theorem Store.apply_keys (crypto : Crypto) (s : Store) {op : StoreOp} (h : ¬ op.onKeys) :
    (s.apply crypto op).idempotency = s.idempotency ∧
      (s.apply crypto op).actionBindings = s.actionBindings := by
  have hstep : ∀ t t', Step (fun _ o => o = op) t t' →
      t.idempotency = s.idempotency ∧ t.actionBindings = s.actionBindings →
      t'.idempotency = s.idempotency ∧ t'.actionBindings = s.actionBindings := by
    intro t t' hstep ht
    cases hstep with
    | keys o _ _ hkeys hop =>
      rw [hop] at hkeys
      exact absurd hkeys h
    | refunded refund t' _ hins =>
      obtain ⟨rfl, -⟩ | ⟨rfl, -⟩ := Store.insertRefundReceiptLocked_ok hins <;> exact ht
    | completed refund record t' _ _ _ _ hins =>
      obtain ⟨rfl, -⟩ | ⟨rfl, -⟩ := Store.insertRefundReceiptLocked_ok hins <;> exact ht
    | _ => exact ht
  exact Store.apply_invariant hstep rfl ⟨rfl, rfl⟩

/-- A store that transactions make of an empty one. -/
def Store.Reachable (crypto : Crypto) (s : Store) : Prop :=
  ∃ ops, run (Store.apply crypto) .empty ops = s

theorem Store.run_invariant {Inv : Store → Prop}
    (hstep : ∀ s s', Step P s s' → Inv s → Inv s') (hs : Inv s) {ops : List StoreOp}
    (hops : Admissible (Store.apply crypto) P s ops) : Inv (run (Store.apply crypto) s ops) :=
  run_invariant_of_admissible (fun _ _ hs hP => Store.apply_invariant hstep hP hs) hs hops

end Exec

end AeepRouter

import AeepRouter.Store.Exclusion

/-!
# A hold, its receipt and its decision in step

A settlement closes a reservation and its decision in one transaction. `Store.InStep` says that the
three tables never disagree about it: a reservation is closed exactly when a receipt closed it, and
its decision is closed with it. The generic transition knows nothing of reservations and moves
a decision alone (`decision_settled_alone`); `StoreOp.KeepsInStep` is what is asked of it.
-/

namespace AeepRouter

open Lib

/-- A decision and its hold agree on whether they are settled, and on whether they are released. -/
def PreparedDecisionState.Agrees (decision : PreparedDecisionState)
    (hold : PaymentReservationState) : Prop :=
  (decision = .settled ↔ hold = .settled) ∧ (decision = .released ↔ hold = .released)

instance (decision : PreparedDecisionState) (hold : PaymentReservationState) :
    Decidable (decision.Agrees hold) := by
  unfold PreparedDecisionState.Agrees; infer_instance

theorem PreparedDecisionState.agrees_of_open {decision : PreparedDecisionState}
    {hold : PaymentReservationState} (hd : ¬ (decision = .settled ∨ decision = .released))
    (hh : ¬ hold.closed) : decision.Agrees hold := by
  cases decision <;> cases hold <;> revert hd hh <;> decide

theorem PreparedDecisionState.Agrees.open_iff {decision : PreparedDecisionState}
    {hold : PaymentReservationState} (h : decision.Agrees hold) :
    (decision = .settled ∨ decision = .released) ↔ hold.closed := by
  cases decision <;> cases hold <;> revert h <;> decide

theorem SettlementStatus.targets_agree (status : SettlementStatus) :
    status.preparedTarget.Agrees status.reservationTarget := by
  cases status <;> decide

theorem SettlementStatus.reservationTarget_eq_settled {status : SettlementStatus} :
    status.reservationTarget = .settled ↔ status ∈ [.completed, .settled, .refunded] := by
  cases status <;> decide

theorem SettlementStatus.reservationTarget_eq_released {status : SettlementStatus} :
    status.reservationTarget = .released ↔ status = .released := by
  cases status <;> decide

namespace Store

/-- Whether a receipt left a reservation in a state. -/
def ClosedBy (s : Store) (reservationId : String) (state : PaymentReservationState) : Prop :=
  ∃ receipt ∈ s.settlements, receipt.reservationId = reservationId ∧
    receipt.status.reservationTarget = state

/-- What the tables say of a reservation agrees. -/
structure InStep (s : Store) : Prop where
  one_receipt : ∀ a ∈ s.settlements, ∀ b ∈ s.settlements, a.reservationId = b.reservationId → a = b
  settled : ∀ row ∈ s.reservations, row.state = .settled ↔
    ∃ receipt ∈ s.settlements, receipt.reservationId = row.reservationId ∧
      receipt.status ∈ [.completed, .settled, .refunded]
  released : ∀ row ∈ s.reservations, row.state = .released ↔
    ∃ receipt ∈ s.settlements, receipt.reservationId = row.reservationId ∧
      receipt.status = .released
  accounted : ∀ row ∈ s.reservations, row.state = .settled ∨ row.state = .released →
    ∀ receipt ∈ s.settlements, receipt.reservationId = row.reservationId →
      receipt.capturedAmount.amount + receipt.releasedAmount.amount =
        row.payload.maximumAmount.amount
  decision : ∀ row ∈ s.reservations, ∀ prepared ∈ s.prepared,
    prepared.preparedId = row.payload.preparedId → prepared.state.Agrees row.state

end Store

/-- A receipt that closes its reservation accounts for the whole of it, without rounding. -/
structure SettlementReceipt.Accounts (receipt : SettlementReceipt) : Prop where
  exact : dec (receipt.capturedAmount.amount + receipt.releasedAmount.amount) =
    receipt.capturedAmount.amount + receipt.releasedAmount.amount
  refunded : receipt.status = .refunded →
    dec (receipt.capturedAmount.amount + receipt.releasedAmount.amount) =
      receipt.reservedAmount.amount

instance (receipt : SettlementReceipt) : Decidable receipt.Accounts :=
  decidable_of_iff (_ ∧ _) ⟨fun h => ⟨h.1, h.2⟩, fun h => ⟨h.1, h.2⟩⟩

/-- What keeps the tables in step: a generic transition that is due closes no decision that has
a reservation, and a receipt that closes a reservation accounts for the whole of it. -/
def Store.KeepsInStep (s : Store) : StoreOp → Prop
  | .savePreparedTransition transition =>
    transition.closes → s.transitions.find? transition.transitionId = none →
      s.preparedState transition.preparedId = some transition.fromState →
        s.reservationOf transition.preparedId = none
  | .saveSettlementReceipt receipt _ =>
    receipt.status.reservationTarget.closed → receipt.Accounts
  | _ => True

instance (s : Store) (op : StoreOp) : Decidable (s.KeepsInStep op) := by
  induction op using StoreOp.casesOn <;> unfold Store.KeepsInStep <;> infer_instance

theorem SettlementReceipt.Accounts.total {receipt : SettlementReceipt} (h : receipt.Accounts)
    (hclosed : receipt.status.reservationTarget.closed) :
    receipt.capturedAmount.amount + receipt.releasedAmount.amount =
      receipt.reservedAmount.amount := by
  rw [← h.exact]
  by_cases hrefunded : receipt.status = .refunded
  · exact h.refunded hrefunded
  · refine receipt.accounted ?_
    revert hclosed hrefunded
    cases receipt.status <;> decide

/-! ## The invariant -/

/-- The tables in step, as the steps keep it. -/
structure Store.Paired (s : Store) : Prop where
  linked : s.Linked
  receipts : ∀ receipt ∈ s.settlements, receipt.status.reservationTarget.closed → receipt.Accounts
  closed : ∀ row ∈ s.reservations, ∀ state : PaymentReservationState, state.closed →
    (row.state = state ↔ s.ClosedBy row.reservationId state)
  agrees : ∀ row ∈ s.reservations, ∀ state,
    s.preparedState row.payload.preparedId = some state → state.Agrees row.state

section Steps

variable {P : Store → StoreOp → Prop} {s s' : Store}

theorem Store.Paired.empty : Store.empty.Paired where
  linked := .empty
  receipts _ h := absurd h Table.not_mem_empty
  closed _ h := absurd h Table.not_mem_empty
  agrees _ h := absurd h Table.not_mem_empty

/-- A hold is named by its decision alone. -/
theorem Store.Linked.preparedId_ne (hs : s.Linked) {row other : PaymentRow}
    (hrow : row ∈ s.reservations) (hother : other ∈ s.reservations)
    (hne : row.reservationId ≠ other.reservationId) :
    row.payload.preparedId ≠ other.payload.preparedId := by
  intro heq
  have hnodup : (s.reservations.rows.map (·.payload.preparedId)).Nodup := by
    simpa [payloads, List.map_map, Function.comp_def] using hs.one_hold
  exact hne (congrArg _ (List.inj_on_of_nodup_map hnodup hrow hother heq))

theorem Store.reservationOf_eq_none {preparedId : String} :
    s.reservationOf preparedId = none ↔
      ∀ row ∈ s.reservations, row.payload.preparedId ≠ preparedId := by
  simp [reservationOf, Table.mem_def]

namespace Store.Paired

/-- A store with the same holds and receipts, whose decisions are where they were. -/
theorem congr (hs : s.Paired) (hlinked : s'.Linked) (hr : s'.reservations = s.reservations)
    (ht : s'.settlements = s.settlements)
    (hp : ∀ row ∈ s.reservations,
      s'.preparedState row.payload.preparedId = s.preparedState row.payload.preparedId) :
    s'.Paired where
  linked := hlinked
  receipts receipt h := hs.receipts receipt (ht ▸ h)
  closed row hrow state hclosed := by
    rw [hr] at hrow
    rw [ClosedBy, ht]
    exact hs.closed row hrow state hclosed
  agrees row hrow state hstate := by
    rw [hr] at hrow
    rw [hp row hrow] at hstate
    exact hs.agrees row hrow state hstate

theorem rewritten (hs : s.Paired) {id : String} {f : Table.Rewrite PaymentRow.reservationId}
    (hf : ∀ row, (f row).payload = row.payload) {found : PaymentRow}
    (hfound : s.reservations.find? id = some found) (hbefore : ¬ found.state.closed)
    (hafter : ¬ (f found).state.closed) : (s.setReservation id f).Paired := by
  have hold : ∀ old ∈ s.reservations, old.reservationId = id → old = found := by
    intro old hold hid
    rw [← hid, Table.find?_of_mem hold] at hfound
    exact Option.some.inj hfound
  refine ⟨hs.linked.congr (payloads_setReservation hf) (fun _ h => h) rfl rfl, hs.receipts, ?_, ?_⟩
  · intro row hrow state hclosed
    obtain ⟨old, hmem, rfl⟩ := Table.mem_modify.mp hrow
    show _ ↔ s.ClosedBy _ state
    split
    · next hid =>
      obtain rfl := hold old hmem hid
      rw [f.keeps old, ← hs.closed old hmem state hclosed]
      constructor
      · rintro rfl
        exact absurd hclosed hafter
      · rintro rfl
        exact absurd hclosed hbefore
    · exact hs.closed old hmem state hclosed
  · intro row hrow state hstate
    obtain ⟨old, hmem, rfl⟩ := Table.mem_modify.mp hrow
    split at hstate
    · next hid =>
      obtain rfl := hold old hmem hid
      rw [hf] at hstate
      have hagrees := hs.agrees old hmem state hstate
      rw [if_pos hid]
      exact PreparedDecisionState.agrees_of_open (fun h => hbefore (hagrees.open_iff.mp h)) hafter
    · next hid =>
      rw [if_neg hid]
      exact hs.agrees old hmem state hstate

theorem moved (hs : s.Paired) {transition : PreparedRouteTransition}
    (hfrom : s.preparedState transition.preparedId = some transition.fromState)
    (hcloses : transition.closes → s.reservationOf transition.preparedId = none) :
    (s.moved transition).Paired := by
  refine ⟨hs.linked.moved transition, hs.receipts, hs.closed, fun row hrow state hstate => ?_⟩
  have hstate : (s.setPreparedState transition.preparedId transition.toState).preparedState
      row.payload.preparedId = some state := hstate
  rw [preparedState_setPreparedState] at hstate
  split at hstate
  · next hid =>
    rw [hid, hfrom] at hstate
    obtain rfl := Option.some.inj hstate
    -- a closed decision has no transitions, so this one and its hold are open
    have hsource : ¬ (transition.fromState = .settled ∨ transition.fromState = .released) := by
      have hlegal := transition.legal
      rintro (h | h) <;> rw [h] at hlegal <;> cases hlegal
    have hagrees := hs.agrees row hrow transition.fromState (hid ▸ hfrom)
    refine PreparedDecisionState.agrees_of_open (fun h => ?_) fun h =>
      hsource (hagrees.open_iff.mpr h)
    exact reservationOf_eq_none.mp (hcloses h) row hrow hid
  · exact hs.agrees row hrow state hstate

theorem hold (hs : s.Paired) {call : ReserveCall} {prepared : PreparedRow}
    (h : call.Admitted s prepared) : (s.hold call.reservation).Paired := by
  have hreserved : call.reservation.state = .reserved := by
    have := h.arguments
    simp only [ReserveCall.checkArguments, bind_ok, raiseIf_ok, exists_const, ne_eq,
      not_not] at this
    exact this.1
  refine ⟨hs.linked.hold h, hs.receipts, fun row hrow state hclosed => ?_,
    fun row hrow state hstate => ?_⟩
  · rcases (Table.mem_insert h.fresh).mp hrow with hrow | rfl
    · exact hs.closed row hrow state hclosed
    · constructor
      · intro heq
        rw [← heq, show (PaymentRow.ofReservation call.reservation).state = _ from hreserved]
          at hclosed
        cases hclosed
      · -- no receipt can name a hold that did not exist
        rintro ⟨receipt, hreceipt, hid, -⟩
        obtain ⟨_, hpayload, hcloses⟩ := hs.linked.held receipt hreceipt
        obtain ⟨old, hold, rfl⟩ := List.mem_map.mp hpayload
        exact absurd (hcloses.reservationId.symm.trans hid)
          (Table.find?_eq_none.mp h.fresh old hold)
  · rcases (Table.mem_insert h.fresh).mp hrow with hrow | rfl
    · exact hs.agrees row hrow state hstate
    · have hstate : s.preparedState call.reservation.preparedId = some state := hstate
      rw [preparedState_of_find? h.found, h.prepared_state] at hstate
      obtain rfl := Option.some.inj hstate
      show PreparedDecisionState.Agrees _ call.reservation.state
      rw [hreserved]
      decide

theorem settled (hs : s.Paired) {receipt : SettlementReceipt} {found : PaymentRow}
    {prepared : PreparedRow} (h : receipt.Admitted s found prepared)
    (hP : receipt.status.reservationTarget.closed → receipt.Accounts)
    (transitions : Table PreparedRouteTransition (·.transitionId)) :
    (s.settled receipt transitions).Paired := by
  obtain ⟨hnone, hfresh⟩ := h.fresh
  have hmem : ∀ t, t ∈ (s.settled receipt transitions).settlements ↔
      t ∈ s.settlements ∨ t = receipt := fun t => Table.mem_insert hnone
  have hthis : ∀ old ∈ s.reservations, old.reservationId = receipt.reservationId →
      old = found := by
    intro old hold hid
    have := h.found
    rw [← hid, Table.find?_of_mem hold] at this
    exact Option.some.inj this
  refine ⟨hs.linked.settled h transitions, ?_, ?_, ?_⟩
  · intro t ht
    rcases (hmem t).mp ht with ht | rfl
    · exact hs.receipts t ht
    · exact hP
  · intro row hrow state hclosed
    obtain ⟨old, hold, rfl⟩ := Table.mem_modify.mp hrow
    split
    · next hid =>
      constructor
      · rintro rfl
        exact ⟨receipt, (hmem _).mpr (.inr rfl), hid.symm, rfl⟩
      · rintro ⟨t, ht, htid, rfl⟩
        rcases (hmem t).mp ht with ht | rfl
        · exact absurd (htid.trans hid) (hfresh t ht)
        · rfl
    · next hid =>
      rw [hs.closed old hold state hclosed]
      constructor
      · rintro ⟨t, ht, htid, htarget⟩
        exact ⟨t, (hmem t).mpr (.inl ht), htid, htarget⟩
      · rintro ⟨t, ht, htid, htarget⟩
        rcases (hmem t).mp ht with ht | rfl
        · exact ⟨t, ht, htid, htarget⟩
        · exact absurd htid.symm hid
  · intro row hrow state hstate
    have hstate : (Store.setPreparedState (s.setReservation receipt.reservationId receipt.close)
      receipt.preparedId receipt.status.preparedTarget).preparedState row.payload.preparedId =
        some state := hstate
    obtain ⟨old, hold, rfl⟩ := Table.mem_modify.mp hrow
    rw [preparedState_setPreparedState] at hstate
    split
    · next hid =>
      rw [if_pos hid, if_pos] at hstate
      · obtain ⟨_, -, rfl⟩ := Option.map_eq_some_iff.mp hstate
        exact receipt.status.targets_agree
      · obtain rfl := hthis old hold hid
        exact h.closes.preparedId.symm
    · next hid =>
      have hfound := Table.mem_of_find? h.found
      have hother : old.payload.preparedId ≠ receipt.preparedId := by
        rw [h.closes.preparedId]
        refine hs.linked.preparedId_ne hold hfound fun heq => hid ?_
        exact heq.trans (Table.key_of_find? h.found)
      rw [if_neg hid, if_neg hother] at hstate
      exact hs.agrees old hold state hstate

theorem step (hP : ∀ op, P s op → s.KeepsInStep op) (hs : s.Paired) (h : Step P s s') :
    s'.Paired := by
  have hl := hs.linked.step h
  cases h with
  | evidence | keys | authorized | suspended | released =>
    exact hs.congr hl rfl rfl fun _ _ => rfl
  | saved new hnone =>
    refine hs.congr hl rfl rfl fun row hrow => ?_
    rw [preparedState_saved hnone, if_neg]
    intro hid
    obtain ⟨decision, hmem, hdecision⟩ :=
      List.mem_map.mp (hs.linked.decided _ (List.mem_map_of_mem hrow))
    exact Table.find?_eq_none.mp hnone decision hmem (hdecision.trans hid)
  | claimed => exact hs.congr hl rfl rfl fun _ _ => preparedState_setClaim _ _ _ _
  | moved transition row hrow hfrom _ _ hcloses hnone =>
    have hsource : s.preparedState transition.preparedId = some transition.fromState := by
      rw [preparedState_of_find? hrow, hfrom]
    refine hs.moved hsource fun h => ?_
    exact (hcloses h).elim id fun hop => hP _ hop h hnone hsource
  | held call prepared _ hadm =>
    refine (hs.hold hadm).moved ?_ nofun
    exact (preparedState_of_find? (s := s) hadm.found).trans (congrArg some hadm.prepared_state)
  | heldAgain call prepared _ hadm => exact hs.hold hadm
  | changed id row state updatedAt reason hrow hallowed =>
    have hopen : ¬ row.state.closed ∧ ¬ state.closed := by
      revert hallowed
      cases row.state <;> cases state <;> decide
    exact hs.rewritten (fun _ => rfl) hrow hopen.1 hopen.2
  | intended call row prepared hrow _ hadm =>
    have hopen : ¬ row.state.closed := by
      rcases hadm.source with ⟨h, -⟩ | ⟨h | h, -⟩ <;> rw [h] <;> decide
    have hclaimed : ¬ PaymentReservationState.closed .settling := nofun
    exact hs.rewritten (fun _ => rfl) hrow hopen hclaimed
  | settled receipt _ row prepared transitions hadm hop =>
    exact hs.settled hadm (hP _ hop) transitions
  | refunded refund t _ hins =>
    obtain ⟨rfl, -⟩ | ⟨rfl, -⟩ := insertRefundReceiptLocked_ok hins <;>
      exact hs.congr hl rfl rfl fun _ _ => rfl
  | completed refund record t _ _ _ _ hins =>
    obtain ⟨rfl, -⟩ | ⟨rfl, -⟩ := insertRefundReceiptLocked_ok hins <;>
      exact hs.congr hl rfl rfl fun _ _ => rfl

theorem inStep (hs : s.Paired) : s.InStep where
  one_receipt a ha b hb hid := List.inj_on_of_nodup_map hs.linked.one_receipt ha hb hid
  settled row hrow := by
    simp only [← SettlementStatus.reservationTarget_eq_settled]
    exact hs.closed row hrow .settled rfl
  released row hrow := by
    simp only [← SettlementStatus.reservationTarget_eq_released]
    exact hs.closed row hrow .released rfl
  accounted row hrow hclosed receipt hreceipt hid := by
    have hstate : row.state.closed := by
      rcases hclosed with h | h <;> rw [h] <;> rfl
    -- the receipt that closed the hold is the only one it has
    obtain ⟨t, ht, htid, htarget⟩ := (hs.closed row hrow row.state hstate).mp rfl
    obtain rfl := List.inj_on_of_nodup_map hs.linked.one_receipt hreceipt ht (hid.trans htid.symm)
    obtain ⟨_, hpayload, hcloses⟩ := hs.linked.held receipt hreceipt
    obtain ⟨old, hold, rfl⟩ := List.mem_map.mp hpayload
    obtain rfl : old = row := Table.eq_of_key_eq hold hrow (hcloses.reservationId.symm.trans hid)
    have htotal := hs.receipts receipt hreceipt (htarget ▸ hstate)
    rw [htotal.total (htarget ▸ hstate), hcloses.amount]
  decision row hrow prepared hprepared hid := by
    refine hs.agrees row hrow prepared.state ?_
    rw [← hid]
    exact preparedState_of_find? (Table.find?_of_mem hprepared)

end Store.Paired

end Steps

/-! ## Runs -/

section Runs

variable {crypto : Crypto}

/-- In every run from an empty store whose generic transitions close no decision that has
a reservation and whose closing receipts account for theirs, a reservation, its receipt and its
decision stay in step. -/
theorem settlement_in_step (crypto : Crypto) (ops : List StoreOp)
    (hops : Admissible (Store.apply crypto) Store.KeepsInStep .empty ops) :
    (run (Store.apply crypto) .empty ops).InStep :=
  (Store.run_invariant (fun _ _ h hs => hs.step (fun _ h => h) h) Store.Paired.empty hops).inStep

theorem settlement_in_step_of_action :
    (run (Store.apply actionCrypto) .empty (.importRates :: dollarAction.reserve none none none ++
      dollarAction.settle (dollarAction.receipt actionCrypto 1 dollarAction_exact))).InStep :=
  settlement_in_step actionCrypto _ (by decide +kernel)

/-- The generic transition settles a decision whose reservation holds its maximum. -/
theorem decision_settled_alone :
    ¬ (run (Store.apply actionCrypto) .empty (.importRates :: dollarAction.reserve none none none ++
      [.claimPreparedForPaidInvocation dollarAction.invocation,
        .savePreparedTransition ⟨"finish", dollarAction.name, .invoking, .settling, 0, none,
          by decide⟩,
        .savePreparedTransition ⟨"close", dollarAction.name, .settling, .settled, 1, none,
          by decide⟩])).InStep := by
  intro h
  have hdecision := h.decision
  revert hdecision
  decide +kernel

end Runs

end AeepRouter

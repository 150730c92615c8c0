import AeepRouter.Store.Step

/-!
# References between the payment tables

`Store.Linked` collects what the keys and bindings of the tables guarantee: a decision has at most
one reservation and exists, a reservation has at most one receipt, whose amounts it bounds, and a
refund belongs to a stored receipt. Every step keeps it (`Linked.step`).
-/

namespace AeepRouter

open Lib

def Store.payloads (s : Store) : List PaymentReservationV2 := s.reservations.rows.map (·.payload)

def Store.decisionIds (s : Store) : List String := s.prepared.rows.map PreparedRow.preparedId

structure SettlementReceipt.Closes (receipt : SettlementReceipt)
    (reservation : PaymentReservationV2) : Prop where
  reservationId : receipt.reservationId = reservation.reservationId
  preparedId : receipt.preparedId = reservation.preparedId
  amount : receipt.reservedAmount = reservation.maximumAmount

structure Store.Linked (s : Store) : Prop where
  one_hold : (s.payloads.map (·.preparedId)).Nodup
  decided : ∀ reservation ∈ s.payloads, reservation.preparedId ∈ s.decisionIds
  one_receipt : (s.settlements.rows.map (·.reservationId)).Nodup
  held : ∀ receipt ∈ s.settlements, ∃ reservation ∈ s.payloads, receipt.Closes reservation
  captured : ∀ refund ∈ s.refunds, (s.settlements.find? refund.settlementId).isSome

theorem Store.Linked.empty : Store.empty.Linked where
  one_hold := List.nodup_nil
  decided _ h := absurd h List.not_mem_nil
  one_receipt := List.nodup_nil
  held _ h := absurd h List.not_mem_nil
  captured _ h := absurd h List.not_mem_nil

/-! ## What the steps do to the payloads and the ids -/

section Frames

variable {s : Store}

theorem Store.payloads_setReservation {reservationId : String}
    {f : Table.Rewrite PaymentRow.reservationId} (hf : ∀ row, (f row).payload = row.payload) :
    (s.setReservation reservationId f).payloads = s.payloads :=
  Table.map_modify hf reservationId

theorem Store.decisionIds_setPreparedState (preparedId : String) (state : PreparedDecisionState) :
    (s.setPreparedState preparedId state).decisionIds = s.decisionIds :=
  Table.map_modify (fun _ => rfl) preparedId

theorem Store.decisionIds_setClaim (preparedId token : String) (claimedAt : Int) :
    (s.setClaim preparedId token claimedAt).decisionIds = s.decisionIds :=
  Table.map_modify (fun _ => rfl) preparedId

theorem Store.payloads_settled {receipt : SettlementReceipt}
    {transitions : Table PreparedRouteTransition (·.transitionId)} :
    (s.settled receipt transitions).payloads = s.payloads :=
  Table.map_modify (fun _ => rfl) receipt.reservationId

theorem Store.payloads_hold {reservation : PaymentReservationV2}
    (h : s.reservations.find? reservation.reservationId = none) :
    (s.hold reservation).payloads = s.payloads ++ [reservation] :=
  Table.map_insert (x := PaymentRow.ofReservation reservation) h (·.payload)

theorem Store.mem_decisionIds_of_find? {preparedId : String} {row : PreparedRow}
    (h : s.prepared.find? preparedId = some row) : preparedId ∈ s.decisionIds := by
  obtain ⟨hm, rfl⟩ := Table.find?_eq_some.mp h
  exact List.mem_map_of_mem hm

theorem ReserveCall.Admitted.fresh {call : ReserveCall} {prepared : PreparedRow}
    (h : call.Admitted s prepared) :
    s.reservations.find? call.reservation.reservationId = none := by
  refine Table.find?_eq_none.mpr fun row hrow hid => ?_
  have := List.find?_eq_none.mp h.absent row hrow
  simp [show row.payload.reservationId = _ from hid] at this

theorem SettlementReceipt.Admitted.closes {receipt : SettlementReceipt} {row : PaymentRow}
    {prepared : PreparedRow} (h : receipt.Admitted s row prepared) :
    receipt.Closes row.payload := by
  have hb := h.bound
  have ha := h.amounts
  simp only [SettlementReceipt.mismatch, ite_some_eq_none, ne_eq, not_not] at hb
  simp only [SettlementReceipt.checkAmounts, bind_ok, raiseIf_ok, exists_const, not_or, ne_eq,
    not_not] at ha
  obtain ⟨-, hprepared, -, -, -, -, -, -, hcurrency, -⟩ := hb
  exact ⟨(Table.key_of_find? h.found).symm, hprepared, CurrencyAmount.ext ha.1.2 hcurrency⟩

theorem SettlementReceipt.Admitted.fresh {receipt : SettlementReceipt} {row : PaymentRow}
    {prepared : PreparedRow} (h : receipt.Admitted s row prepared) :
    s.settlements.find? receipt.settlementId = none ∧
      ∀ stored ∈ s.settlements, stored.reservationId ≠ receipt.reservationId := by
  have hno := List.find?_eq_none.mp h.absent
  constructor
  · refine Table.find?_eq_none.mpr fun stored hstored hid => ?_
    simpa [hid] using hno stored hstored
  · intro stored hstored hid
    simpa [hid] using hno stored hstored

end Frames

/-! ## Preservation -/

namespace Store.Linked

variable {P : Store → StoreOp → Prop} {s s' : Store}

theorem congr (hs : s.Linked) (hp : s'.payloads = s.payloads)
    (hd : ∀ id ∈ s.decisionIds, id ∈ s'.decisionIds) (ht : s'.settlements = s.settlements)
    (hr : s'.refunds = s.refunds) : s'.Linked where
  one_hold := hp ▸ hs.one_hold
  decided reservation h := hd _ (hs.decided reservation (hp ▸ h))
  one_receipt := ht ▸ hs.one_receipt
  held receipt h := hp ▸ hs.held receipt (ht ▸ h)
  captured refund h := ht ▸ hs.captured refund (hr ▸ h)

theorem moved (hs : s.Linked) (transition : PreparedRouteTransition) :
    (s.moved transition).Linked :=
  hs.congr rfl (fun _ h => (decisionIds_setPreparedState _ _).symm ▸ h) rfl rfl

theorem hold (hs : s.Linked) {call : ReserveCall} {prepared : PreparedRow}
    (h : call.Admitted s prepared) : (s.hold call.reservation).Linked where
  one_hold := by
    rw [payloads_hold h.fresh, List.map_append, List.map_singleton, List.nodup_append]
    refine ⟨hs.one_hold, List.nodup_singleton _, ?_⟩
    rintro id hid _ hcall rfl
    obtain ⟨payload, hpayload, rfl⟩ := List.mem_map.mp hid
    obtain ⟨row, hrow, rfl⟩ := List.mem_map.mp hpayload
    exact h.unique row hrow (.inr (.inl (List.mem_singleton.mp hcall)))
  decided reservation hm := by
    rw [payloads_hold h.fresh, List.mem_append, List.mem_singleton] at hm
    rcases hm with hm | rfl
    · exact hs.decided reservation hm
    · exact mem_decisionIds_of_find? h.found
  one_receipt := hs.one_receipt
  held receipt hm := by
    obtain ⟨reservation, hr, hc⟩ := hs.held receipt hm
    exact ⟨reservation, by rw [payloads_hold h.fresh]; exact List.mem_append_left _ hr, hc⟩
  captured := hs.captured

theorem settled (hs : s.Linked) {receipt : SettlementReceipt} {row : PaymentRow}
    {prepared : PreparedRow} (h : receipt.Admitted s row prepared)
    (transitions : Table PreparedRouteTransition (·.transitionId)) :
    (s.settled receipt transitions).Linked := by
  have hp : (s.settled receipt transitions).payloads = s.payloads := payloads_settled
  have hd : (s.settled receipt transitions).decisionIds = s.decisionIds :=
    decisionIds_setPreparedState _ _
  obtain ⟨hnone, hfresh⟩ := h.fresh
  refine ⟨hp ▸ hs.one_hold, hp ▸ hd ▸ hs.decided, ?_, ?_, ?_⟩
  · rw [show (s.settled receipt transitions).settlements = s.settlements.insert receipt from rfl,
      Table.map_insert hnone, List.nodup_append]
    refine ⟨hs.one_receipt, List.nodup_singleton _, ?_⟩
    rintro id hid _ hnew rfl
    obtain ⟨stored, hstored, rfl⟩ := List.mem_map.mp hid
    exact hfresh stored hstored (List.mem_singleton.mp hnew)
  · intro t ht
    rw [hp]
    rcases (Table.mem_insert hnone).mp ht with ht | rfl
    · exact hs.held t ht
    · exact ⟨row.payload, List.mem_map_of_mem (Table.mem_of_find? h.found), h.closes⟩
  · intro refund hm
    have := hs.captured refund hm
    rw [show (s.settled receipt transitions).settlements = s.settlements.insert receipt from rfl,
      Table.find?_insert hnone]
    split
    · rfl
    · exact this

theorem refunded (hs : s.Linked) {refund : RefundReceiptV2} {completing : Option String}
    (h : s.insertRefundReceiptLocked refund completing = .ok s') : s'.Linked := by
  obtain ⟨rfl, -⟩ | ⟨rfl, -, hnone, settlement, hfound, -⟩ := insertRefundReceiptLocked_ok h
  · exact hs
  · refine ⟨hs.one_hold, hs.decided, hs.one_receipt, hs.held, fun f hf => ?_⟩
    rcases (Table.mem_insert hnone).mp hf with hf | rfl
    · exact hs.captured f hf
    · exact Option.isSome_of_eq_some hfound

theorem step (hstep : Step P s s') (hs : s.Linked) : s'.Linked := by
  cases hstep with
  | evidence | keys => exact hs.congr rfl (fun _ h => h) rfl rfl
  | saved row hnone =>
    refine hs.congr rfl (fun id hid => ?_) rfl rfl
    show id ∈ (s.prepared.insert row).rows.map PreparedRow.preparedId
    rw [Table.map_insert hnone]
    exact List.mem_append_left _ hid
  | claimed => exact hs.congr rfl (fun _ h => (decisionIds_setClaim _ _ _).symm ▸ h) rfl rfl
  | moved transition => exact hs.moved transition
  | held call prepared _ hadm => exact (hs.hold hadm).moved call.transition
  | heldAgain call prepared _ hadm => exact hs.hold hadm
  | changed | intended =>
    exact hs.congr (payloads_setReservation fun _ => rfl) (fun _ h => h) rfl rfl
  | settled receipt _ row prepared transitions hadm => exact hs.settled hadm transitions
  | authorized => exact hs.congr rfl (fun _ h => h) rfl rfl
  | refunded refund _ _ hins => exact hs.refunded hins
  | completed refund record t _ _ _ _ hins =>
    exact (hs.refunded hins).congr rfl (fun _ h => h) rfl rfl
  | suspended | released => exact hs.congr rfl (fun _ h => h) rfl rfl

end Store.Linked

end AeepRouter

import AeepRouter.Store.Links

/-!
# Refunds stay within what was captured

For every settlement the stored refund receipts and the pending authorizations add up to at most
the captured amount, as long as the sums the store compares are exact. They are when every amount
captured or refunded for the settlement is a multiple of one power of ten and the captured amount
is below `10 ^ 28` of that unit; past that the comparison rounds.
-/

namespace AeepRouter

open Lib Decimal

def Store.unreceiptedRefunds (s : Store) (settlementId : String) : List ℚ :=
  s.refundAuthorizations.select
    (fun record => record.settlementId = settlementId ∧ record.state.pending ∧
      (s.refunds.find? record.refundId).isNone)
    (·.amount.amount)

/-- Receipts and authorizations without one fit under what their settlement captured. -/
def Store.RefundsBounded (s : Store) : Prop :=
  ∀ settlement ∈ s.settlements,
    (s.completedRefunds settlement.settlementId).sum +
      (s.unreceiptedRefunds settlement.settlementId).sum ≤ settlement.capturedAmount.amount

instance (s : Store) : Decidable s.RefundsBounded := by
  unfold Store.RefundsBounded; infer_instance

/-- The amounts of an operation are multiples of the unit of their settlement, and what is captured
has at most 28 digits. -/
def StoreOp.refundsExact (unit : String → ℤ) : StoreOp → Prop
  | saveSettlementReceipt receipt _ =>
    OnGrid (unit receipt.settlementId) receipt.capturedAmount.amount ∧
      receipt.capturedAmount.amount < 10 ^ (unit receipt.settlementId + 28)
  | authorizeRefund call => OnGrid (unit call.settlementId) call.amount.amount
  | completeRefund refund | saveRefundReceipt refund =>
    OnGrid (unit refund.settlementId) refund.amount.amount
  | _ => True

instance (unit : String → ℤ) (op : StoreOp) : Decidable (op.refundsExact unit) := by
  induction op using StoreOp.casesOn <;> unfold StoreOp.refundsExact <;> infer_instance

/-! ## Pending authorizations -/

section Pending

variable {s : Store} {settlementId : String}

theorem Store.pendingRefunds_le (s : Store) (settlementId : String) (completing : Option String) :
    (s.pendingRefunds settlementId completing).sum ≤ (s.pendingRefunds settlementId none).sum :=
  Table.sum_select_le (fun _ _ h => ⟨h.1, h.2.1, nofun⟩) fun record _ => record.amount.nonneg

theorem Store.unreceiptedRefunds_le (s : Store) (settlementId : String) :
    (s.unreceiptedRefunds settlementId).sum ≤ (s.pendingRefunds settlementId none).sum :=
  Table.sum_select_le (fun _ _ h => ⟨h.1, h.2.1, nofun⟩) fun record _ => record.amount.nonneg

theorem Store.completedRefunds_inserted {refund : RefundReceiptV2}
    (h : s.refunds.find? refund.refundId = none) :
    ({ s with refunds := s.refunds.insert refund } : Store).completedRefunds settlementId =
      s.completedRefunds settlementId ++
        if refund.settlementId = settlementId then [refund.amount.amount] else [] :=
  Table.select_insert h

theorem Store.pendingRefunds_authorized {call : RefundCall} {settlement : SettlementReceipt}
    (h : s.refundAuthorizations.find? call.refundId = none) :
    ({ s with refundAuthorizations := s.refundAuthorizations.insert (call.record settlement) } :
      Store).pendingRefunds settlementId none =
      s.pendingRefunds settlementId none ++
        if call.settlementId = settlementId then [call.amount.amount] else [] := by
  refine (Table.select_insert h).trans (congrArg _ (if_congr ?_ rfl rfl))
  simp [RefundCall.record, RefundAuthorizationState.pending]

/-- An authorization that leaves the pending states leaves the sum. -/
theorem Store.pendingRefunds_closed {refundId : String} {state : RefundAuthorizationState}
    {updatedAt : Int} (h : ¬ state.pending) :
    (s.setAuthorization refundId state updatedAt).pendingRefunds settlementId none =
      s.pendingRefunds settlementId (some refundId) := by
  refine Table.select_modify (fun _ => rfl) fun record _ => ?_
  by_cases hid : record.refundId = refundId <;> simp [hid, h]

theorem Store.pendingRefunds_suspended {refundId : String} {record : RefundAuthorizationRecord}
    {updatedAt : Int} (hfound : s.refundAuthorizations.find? refundId = some record)
    (h : record.state.pending) :
    (s.setAuthorization refundId .indeterminate updatedAt).pendingRefunds settlementId none =
      s.pendingRefunds settlementId none := by
  refine Table.select_modify (fun _ => rfl) fun stored hstored => ?_
  split
  · next hid =>
    rw [← hid, Table.find?_of_mem hstored, Option.some.injEq] at hfound
    subst hfound
    rw [show stored.state.pending = RefundAuthorizationState.pending .indeterminate from h]
  · rfl

end Pending

/-! ## The invariant -/

structure Store.RefundsExact (unit : String → ℤ) (s : Store) : Prop where
  linked : s.Linked
  owned : ∀ record ∈ s.refundAuthorizations, (s.settlements.find? record.settlementId).isSome
  captured_exact : ∀ settlement ∈ s.settlements,
    OnGrid (unit settlement.settlementId) settlement.capturedAmount.amount ∧
      settlement.capturedAmount.amount < 10 ^ (unit settlement.settlementId + 28)
  refund_exact : ∀ refund ∈ s.refunds, OnGrid (unit refund.settlementId) refund.amount.amount
  authorized_exact : ∀ record ∈ s.refundAuthorizations,
    OnGrid (unit record.settlementId) record.amount.amount

/-- Receipts and pending authorizations fit under what their settlement captured. -/
structure Store.RefundsCovered (unit : String → ℤ) (s : Store) : Prop extends
    s.RefundsExact unit where
  covered : ∀ settlement ∈ s.settlements,
    (s.completedRefunds settlement.settlementId).sum +
      (s.pendingRefunds settlement.settlementId none).sum ≤ settlement.capturedAmount.amount

namespace Store.RefundsCovered

variable {unit : String → ℤ} {s s' : Store}

theorem empty : Store.empty.RefundsCovered unit where
  linked := .empty
  owned _ h := absurd h Table.not_mem_empty
  captured_exact _ h := absurd h Table.not_mem_empty
  refund_exact _ h := absurd h Table.not_mem_empty
  authorized_exact _ h := absurd h Table.not_mem_empty
  covered _ h := absurd h Table.not_mem_empty

theorem bounded (hs : s.RefundsCovered unit) : s.RefundsBounded := by
  intro settlement hmem
  have hle := s.unreceiptedRefunds_le settlement.settlementId
  have := hs.covered settlement hmem
  linarith

theorem completedRefunds_exact (hs : s.RefundsCovered unit) (settlementId : String) :
    ∀ x ∈ s.completedRefunds settlementId, OnGrid (unit settlementId) x ∧ 0 ≤ x := by
  intro x hx
  obtain ⟨refund, hmem, rfl, rfl⟩ := Table.mem_select.mp hx
  exact ⟨hs.refund_exact refund hmem, refund.amount.nonneg⟩

theorem pendingRefunds_exact (hs : s.RefundsCovered unit) (settlementId : String)
    (completing : Option String) :
    ∀ x ∈ s.pendingRefunds settlementId completing, OnGrid (unit settlementId) x ∧ 0 ≤ x := by
  intro x hx
  obtain ⟨record, hmem, ⟨rfl, -⟩, rfl⟩ := Table.mem_select.mp hx
  exact ⟨hs.authorized_exact record hmem, record.amount.nonneg⟩

/-- What passes the rounded comparison passes the exact one. -/
theorem fits (hs : s.RefundsCovered unit) {settlement : SettlementReceipt}
    (hmem : settlement ∈ s.settlements) {amount : ℚ} {completing : Option String}
    (hamount : OnGrid (unit settlement.settlementId) amount)
    (h : s.refundTotal settlement.settlementId completing amount ≤
      settlement.capturedAmount.amount) :
    (s.completedRefunds settlement.settlementId).sum +
      (s.pendingRefunds settlement.settlementId completing).sum + amount ≤
        settlement.capturedAmount.amount := by
  obtain ⟨hgrid, hlt⟩ := hs.captured_exact settlement hmem
  have hcovered := hs.covered settlement hmem
  have hle := s.pendingRefunds_le settlement.settlementId completing
  have hcompleted := hs.completedRefunds_exact settlement.settlementId
  have hpending := hs.pendingRefunds_exact settlement.settlementId completing
  have hc0 := List.sum_nonneg fun x hx => (hcompleted x hx).2
  have hp0 := List.sum_nonneg fun x hx => (hpending x hx).2
  obtain ⟨hcsum, hcgrid, -⟩ := decSum_of_onGrid hcompleted (by linarith)
  obtain ⟨hpsum, hpgrid, -⟩ := decSum_of_onGrid hpending (by linarith)
  have hboth := dec_of_onGrid (hcgrid.add hpgrid)
    (by rw [abs_of_nonneg (add_nonneg hc0 hp0)]; linarith)
  unfold Store.refundTotal at h
  rw [hcsum, hpsum, hboth] at h
  exact le_of_dec_le ((hcgrid.add hpgrid).add hamount) hgrid settlement.capturedAmount.nonneg hlt h

theorem congr (hs : s.RefundsCovered unit) (hl : s'.Linked) (ht : s'.settlements = s.settlements)
    (hr : s'.refunds = s.refunds) (ha : s'.refundAuthorizations = s.refundAuthorizations) :
    s'.RefundsCovered unit where
  linked := hl
  owned := ht ▸ ha ▸ hs.owned
  captured_exact := ht ▸ hs.captured_exact
  refund_exact := hr ▸ hs.refund_exact
  authorized_exact := ha ▸ hs.authorized_exact
  covered := by
    unfold Store.completedRefunds Store.pendingRefunds
    rw [ht, hr, ha]
    exact hs.covered

/-- A new authorization that passes its check. -/
theorem authorized (hs : s.RefundsCovered unit) {call : RefundCall}
    {settlement : SettlementReceipt} (hl : s'.Linked)
    (hP : OnGrid (unit call.settlementId) call.amount.amount)
    (hnone : s.refundAuthorizations.find? call.refundId = none)
    (hfound : s.settlements.find? call.settlementId = some settlement)
    (htotal : s.refundTotal call.settlementId none call.amount.amount ≤
      settlement.capturedAmount.amount)
    (hs' : s' = { s with
      refundAuthorizations := s.refundAuthorizations.insert (call.record settlement) }) :
    s'.RefundsCovered unit := by
  subst hs'
  obtain ⟨hmem, hid⟩ := Table.find?_eq_some.mp hfound
  refine ⟨⟨hl, fun record hr => ?_, hs.captured_exact, hs.refund_exact, fun record hr => ?_⟩,
    fun stored hstored => ?_⟩
  · rcases (Table.mem_insert hnone).mp hr with hr | rfl
    · exact hs.owned record hr
    · exact Option.isSome_of_eq_some hfound
  · rcases (Table.mem_insert hnone).mp hr with hr | rfl
    · exact hs.authorized_exact record hr
    · exact hP
  · show (s.completedRefunds _).sum + (Store.pendingRefunds _ _ _).sum ≤ _
    rw [Store.pendingRefunds_authorized hnone, List.sum_append]
    split
    · next hthis =>
      -- the settlement the call is for
      have heq : stored = settlement :=
        Table.eq_of_key_eq hstored hmem (hthis.symm.trans hid.symm)
      subst heq
      rw [← hid] at hP htotal
      have := hs.fits hmem hP htotal
      rw [List.sum_singleton, ← add_assoc]
      exact this
    · rw [List.sum_nil, add_zero]
      exact hs.covered stored hstored

theorem receipted (hs : s.RefundsCovered unit) {refund : RefundReceiptV2}
    {completing : Option String} (hP : OnGrid (unit refund.settlementId) refund.amount.amount)
    (h : s.insertRefundReceiptLocked refund completing = .ok s') :
    s'.RefundsExact unit ∧ ∀ settlement ∈ s'.settlements,
      (s'.completedRefunds settlement.settlementId).sum +
        (s'.pendingRefunds settlement.settlementId completing).sum ≤
          settlement.capturedAmount.amount := by
  have hl := hs.linked.refunded h
  obtain ⟨rfl, -⟩ | ⟨rfl, -, hnone, settlement, hfound, -, htotal⟩ :=
    insertRefundReceiptLocked_ok h
  · refine ⟨hs.toRefundsExact, fun settlement hmem => ?_⟩
    have hpending := s'.pendingRefunds_le settlement.settlementId completing
    have := hs.covered settlement hmem
    linarith
  · obtain ⟨hmem, hid⟩ := Table.find?_eq_some.mp hfound
    refine ⟨⟨hl, hs.owned, hs.captured_exact, fun r hr => ?_, hs.authorized_exact⟩,
      fun stored hstored => ?_⟩
    · rcases (Table.mem_insert hnone).mp hr with hr | rfl
      · exact hs.refund_exact r hr
      · exact hP
    · show (Store.completedRefunds _ _).sum + (s.pendingRefunds _ completing).sum ≤ _
      rw [Store.completedRefunds_inserted hnone, List.sum_append]
      split
      · next hthis =>
        have heq : stored = settlement :=
          Table.eq_of_key_eq hstored hmem (hthis.symm.trans hid.symm)
        subst heq
        rw [← hid] at hP htotal
        have := hs.fits hmem hP htotal
        rw [List.sum_singleton, add_right_comm]
        exact this
      · rw [List.sum_nil, add_zero]
        have hpending := s.pendingRefunds_le stored.settlementId completing
        have := hs.covered stored hstored
        linarith

theorem moved (hs : s.RefundsExact unit) {refundId : String}
    {state : RefundAuthorizationState} {updatedAt : Int}
    (h : ∀ settlement ∈ s.settlements,
      (s.completedRefunds settlement.settlementId).sum +
        ((s.setAuthorization refundId state updatedAt).pendingRefunds
          settlement.settlementId none).sum ≤ settlement.capturedAmount.amount) :
    (s.setAuthorization refundId state updatedAt).RefundsCovered unit := by
  have hfrom : ∀ record ∈ (s.setAuthorization refundId state updatedAt).refundAuthorizations,
      ∃ old ∈ s.refundAuthorizations, record.settlementId = old.settlementId ∧
        record.amount = old.amount := by
    intro record hr
    obtain ⟨old, hold, rfl⟩ := Table.mem_modify.mp hr
    refine ⟨old, hold, ?_⟩
    split <;> exact ⟨rfl, rfl⟩
  refine ⟨⟨hs.linked.congr rfl (fun _ h => h) rfl rfl, fun record hr => ?_, hs.captured_exact,
    hs.refund_exact, fun record hr => ?_⟩, h⟩
  · obtain ⟨old, hold, hid, -⟩ := hfrom record hr
    rw [hid]
    exact hs.owned old hold
  · obtain ⟨old, hold, hid, hamount⟩ := hfrom record hr
    rw [hid, hamount]
    exact hs.authorized_exact old hold

theorem settled (hs : s.RefundsCovered unit) {receipt : SettlementReceipt} (hl : s'.Linked)
    (hP : OnGrid (unit receipt.settlementId) receipt.capturedAmount.amount ∧
      receipt.capturedAmount.amount < 10 ^ (unit receipt.settlementId + 28))
    (hnone : s.settlements.find? receipt.settlementId = none)
    (ht : s'.settlements = s.settlements.insert receipt) (hr : s'.refunds = s.refunds)
    (ha : s'.refundAuthorizations = s.refundAuthorizations) : s'.RefundsCovered unit := by
  refine ⟨⟨hl, ?_, ?_, hr ▸ hs.refund_exact, ha ▸ hs.authorized_exact⟩, ?_⟩
  · intro record hrecord
    rw [ht, Table.find?_insert hnone]
    split
    · rfl
    · exact hs.owned record (ha ▸ hrecord)
  · intro settlement hmem
    rw [ht] at hmem
    rcases (Table.mem_insert hnone).mp hmem with hmem | rfl
    · exact hs.captured_exact settlement hmem
    · exact hP
  · intro settlement hmem
    unfold Store.completedRefunds Store.pendingRefunds
    rw [ht] at hmem
    rw [hr, ha]
    rcases (Table.mem_insert hnone).mp hmem with hmem | rfl
    · exact hs.covered settlement hmem
    · have hrefunds : s.completedRefunds settlement.settlementId = [] := by
        refine Table.select_eq_nil fun refund hrefund hid => ?_
        have := hs.linked.captured refund hrefund
        rw [hid, hnone] at this
        cases this
      have hpending : s.pendingRefunds settlement.settlementId none = [] := by
        refine Table.select_eq_nil fun record hrecord hid => ?_
        have := hs.owned record hrecord
        rw [hid.1, hnone] at this
        cases this
      show (s.completedRefunds _).sum + (s.pendingRefunds _ _).sum ≤ _
      rw [hrefunds, hpending, List.sum_nil, add_zero]
      exact settlement.capturedAmount.nonneg

theorem step (h : Step (fun _ => StoreOp.refundsExact unit) s s') (hs : s.RefundsCovered unit) :
    s'.RefundsCovered unit := by
  have hl := hs.linked.step h
  cases h with
  | evidence | keys | saved | claimed | moved | held | heldAgain | changed | intended =>
    exact hs.congr hl rfl rfl rfl
  | settled receipt _ row prepared transitions hadm hP =>
    exact hs.settled hl hP hadm.fresh.1 rfl rfl rfl
  | authorized call settlement hP habsent _ hfound _ htotal =>
    have hnone : s.refundAuthorizations.find? call.refundId = none := by
      refine Table.find?_eq_none.mpr fun record hrecord hid => ?_
      simpa [hid] using List.find?_eq_none.mp habsent record hrecord
    exact hs.authorized hl hP hnone hfound htotal rfl
  | refunded refund t hP hins =>
    obtain ⟨hexact, hcovered⟩ := hs.receipted hP hins
    exact ⟨hexact, hcovered⟩
  | completed refund record t hP _ _ _ hins =>
    obtain ⟨hexact, hcovered⟩ := hs.receipted hP hins
    refine moved hexact fun settlement hmem => ?_
    rw [Store.pendingRefunds_closed (by decide)]
    exact hcovered settlement hmem
  | suspended refundId record updatedAt hfound hpending =>
    refine moved hs.toRefundsExact fun settlement hmem => ?_
    rw [Store.pendingRefunds_suspended hfound hpending]
    exact hs.covered settlement hmem
  | released refundId record updatedAt =>
    refine moved hs.toRefundsExact fun settlement hmem => ?_
    rw [Store.pendingRefunds_closed (by decide)]
    have hpending := s.pendingRefunds_le settlement.settlementId (some refundId)
    have := hs.covered settlement hmem
    linarith

end Store.RefundsCovered

/-! ## Runs -/

section Runs

variable {crypto : Crypto} {s : Store}

/-- A rejected operation changes nothing. -/
theorem Store.apply_of_not_isOk {op : StoreOp} (h : (op.exec crypto s).isOk = false) :
    s.apply crypto op = s := by
  cases hexec : op.exec crypto s with
  | error e => rw [Store.apply, hexec, commit_error]
  | ok p =>
    rw [hexec] at h
    cases h

/-- Over every run of operations on exact amounts, receipts and open authorizations of a settlement
stay within what it captured, and a rejected operation changes no refund row. -/
theorem refunds_within_capture (crypto : Crypto) (unit : String → ℤ) (ops : List StoreOp)
    (hops : ∀ op ∈ ops, op.refundsExact unit) :
    let s := run (Store.apply crypto) .empty ops
    s.RefundsBounded ∧ ∀ op, (op.exec crypto s).isOk = false →
      (s.apply crypto op).refunds = s.refunds ∧
      (s.apply crypto op).refundAuthorizations = s.refundAuthorizations := by
  intro s
  have hs : s.RefundsCovered unit :=
    Store.run_invariant (fun _ _ h hs => hs.step h) .empty (admissible_of_forall hops _)
  refine ⟨hs.bounded, fun op hop => ?_⟩
  rw [Store.apply_of_not_isOk hop]
  exact ⟨rfl, rfl⟩

def refundedAction (amounts : List (String × CurrencyAmount)) : List StoreOp :=
  .importRates :: dollarAction.reserve none none none ++
    dollarAction.settle (dollarAction.receipt actionCrypto 0 dollarAction_exact) ++
    amounts.map fun (refundId, amount) =>
      .authorizeRefund (dollarAction.refund actionCrypto refundId amount)

/-- Two refunds that make up the dollar. -/
theorem refunds_within_capture_of_action :
    let ops := refundedAction
      [("first", ⟨3 / 4, "USD", by norm_num⟩), ("second", ⟨1 / 4, "USD", by norm_num⟩)]
    (run (Store.apply actionCrypto) .empty ops).RefundsBounded :=
  (refunds_within_capture actionCrypto (fun _ => -2) _ (by decide +kernel)).1

theorem small_refund_nonneg : (0 : ℚ) ≤ 1 / 10 ^ 28 := by positivity

/-- A refund of the whole dollar and then of `1E-28`, which the sum rounds away. -/
theorem refunds_exceed_capture :
    let ops := refundedAction
      [("first", ⟨1, "USD", unit_amount_nonneg⟩),
        ("second", ⟨1 / 10 ^ 28, "USD", small_refund_nonneg⟩)]
    ¬ (run (Store.apply actionCrypto) .empty ops).RefundsBounded := by
  decide +kernel

end Runs

end AeepRouter

import AeepRouter.Payments.LocalLedger

/-!
# What a failed call leaves in the local ledger

A call that raises leaves the ledger as it was, unless it looked up a reservation or a settlement
the rail did not know, which is adopted before the call can fail (`LedgerCall.Adopts`), or it had
deducted its amount when the clock turned out to be behind the reservation (`LedgerCall.Deducts`).
`unchanged_iff` says that these are all.
-/

namespace AeepRouter.Payments

open Lib Router

/-! ## Steps -/

section Steps

variable {α β : Type} {s : Ledger}

theorem ensure_bind {r : Result α} {f : α → LedgerM β} :
    (ensure r >>= f) s =
      match r with
      | .ok a => f a s
      | .error e => (.raised e, s) := by
  cases r <;> rfl

theorem get_bind {f : Ledger → LedgerM β} : ((Process.get : LedgerM Ledger) >>= f) s = f s s := rfl

theorem update_bind {g : Ledger → Ledger} {f : Unit → LedgerM β} :
    ((Process.update g : LedgerM Unit) >>= f) s = f () (g s) := rfl

theorem pure_run {a : α} : (pure a : LedgerM α) s = (.returned a, s) := rfl

theorem cached_raised {request : LedgerRequest} {key : String} {call : LedgerM LedgerResult}
    {e : Err} (h : (cached request key call s).1 = .raised e) :
    (s.operations.find? (request.operation ++ ":" ++ key) ≠ none ∧
      (cached request key call s).2 = s) ∨
    s.operations.find? (request.operation ++ ":" ++ key) = none ∧ (call s).1 = .raised e ∧
      (cached request key call s).2 = (call s).2 := by
  unfold cached at h ⊢
  rw [get_bind] at h ⊢
  cases hfind : s.operations.find? (request.operation ++ ":" ++ key) with
  | some existing =>
    simp only [hfind, ensure_bind] at h ⊢
    refine .inl ⟨Option.some_ne_none _, ?_⟩
    split <;> rfl
  | none =>
    simp only [hfind] at h ⊢
    refine .inr ⟨trivial, ?_⟩
    change (Process.bind call _ s).1 = _ at h
    change _ ∧ (Process.bind call _ s).2 = _
    unfold Process.bind at h ⊢
    rcases hcall : call s with ⟨ending, s'⟩
    rw [hcall] at h
    cases ending with
    | returned result => cases h
    | raised e' => exact ⟨h, rfl⟩
    | crashed => cases h

end Steps

/-! ## What can be observed -/

/-- The observable state of an adapter. -/
structure Observable where
  balance : ℚ
  availableBalance : Option ℚ
  operations : Table CachedOperation (·.operationKey)
  reservations : Table PaymentReservationV2 (·.reservationId)
  settlements : Table SettlementReceipt (·.settlementId)
  refunds : Table RefundReceiptV2 (·.refundId)
  deriving DecidableEq

def observe (adapter : LocalLedgerPaymentAdapter) (s : Ledger) : Observable where
  balance := s.balance
  availableBalance := adapter.availableBalance s
  operations := s.operations
  reservations := s.reservations
  settlements := s.settlements
  refunds := s.refunds

section Failures

variable (adapter : LocalLedgerPaymentAdapter) (answer : Answer) (s : Ledger)

def Uncached (operation key : String) : Prop :=
  s.operations.find? (operation ++ ":" ++ key) = none

instance (operation key : String) : Decidable (Uncached s operation key) := by
  unfold Uncached
  infer_instance

/-- The call gets as far as adopting a reservation or a settlement the rail does not know. -/
def LedgerCall.Adopts : LedgerCall → Prop
  | reserve _ => False
  | settle reservation actual evidence _ key =>
    Uncached s "settle" key ∧ validateSettlementRequest reservation actual evidence = .ok () ∧
      s.reservations.find? reservation.reservationId = none
  | release reservation reason key =>
    reason ≠ "" ∧ Uncached s "release" key ∧
      s.reservations.find? reservation.reservationId = none
  | refund settlement amount reason key =>
    reason ≠ "" ∧ Uncached s "refund" key ∧
      amount.currency = settlement.capturedAmount.currency ∧
      s.settlements.find? settlement.settlementId = none

/-- A settlement of a known reservation that deducts its amount while the clock is behind the
reservation. -/
def LedgerCall.Deducts : LedgerCall → Prop
  | settle reservation actual evidence reference key =>
    Uncached s "settle" key ∧ validateSettlementRequest reservation actual evidence = .ok () ∧
      (∃ known ∈ s.reservations.find? reservation.reservationId,
        identityPayload known = identityPayload reservation ∧
        ∃ receipt, settleReceipt adapter answer reservation known actual reference key s =
          .ok receipt) ∧
      answer.clock < reservation.createdAt ∧
      ∃ balance, capturedBalance adapter actual s = .ok balance ∧ balance ≠ s.balance
  | _ => False

variable {adapter answer s}

theorem observe_balance {balance : ℚ} :
    observe adapter { s with balance := balance } = observe adapter s ↔ balance = s.balance :=
  ⟨congrArg Observable.balance, fun h => h ▸ rfl⟩

theorem observe_ne_of_reservations {s' : Ledger} {reservation : PaymentReservationV2}
    (hold : s.reservations.find? reservation.reservationId = none)
    (hnew : s'.reservations = s.reservations.assign reservation) :
    observe adapter s' ≠ observe adapter s := by
  intro h
  have heq : s'.reservations = s.reservations := congrArg Observable.reservations h
  have hfound := Table.find?_assign_of_none hold
  rw [← hnew, heq, hold] at hfound
  cases hfound

theorem observe_ne_of_settlements {s' : Ledger} {settlement : SettlementReceipt}
    (hold : s.settlements.find? settlement.settlementId = none)
    (hnew : s'.settlements = s.settlements.assign settlement) :
    observe adapter s' ≠ observe adapter s := by
  intro h
  have heq : s'.settlements = s.settlements := congrArg Observable.settlements h
  have hfound := Table.find?_assign_of_none hold
  rw [← hnew, heq, hold] at hfound
  cases hfound

/-- A lookup adopts what it does not find. -/
theorem knownReservation_bind {β : Type} {reservation : PaymentReservationV2}
    {f : PaymentReservationV2 → LedgerM β} :
    (knownReservation reservation >>= f) s =
      match s.reservations.find? reservation.reservationId with
      | none => f reservation { s with
          reservations := s.reservations.assign reservation
          chargeReservations :=
            (reservation.chargeId, reservation.reservationId) :: s.chargeReservations }
      | some known =>
        if identityPayload known = identityPayload reservation then f known s
        else (.raised (.configuration "payment reservation identity changed"), s) := by
  change Process.bind (knownReservation reservation) f s = _
  unfold Process.bind knownReservation
  rw [get_bind]
  cases s.reservations.find? reservation.reservationId with
  | none => rfl
  | some known =>
    simp only [ensure_bind, refuseIf, raiseIf]
    by_cases h : identityPayload known = identityPayload reservation <;> simp [h, pure_run]

/-! ## Operations -/

theorem reserve_unchanged {reservation : PaymentReservationV2} {e : Err}
    (h : (reserve adapter answer reservation s).1 = .raised e) :
    (reserve adapter answer reservation s).2 = s := by
  unfold reserve at h ⊢
  rcases cached_raised h with ⟨-, heq⟩ | ⟨-, hcall, heq⟩
  · exact heq
  · rw [heq]
    rw [get_bind, ensure_bind] at hcall ⊢
    cases hchecks : reserveChecks adapter answer reservation s with
    | error e' => rfl
    | ok existing =>
      rw [hchecks] at hcall
      cases existing <;> cases hcall

theorem settlementReceipt_settledAt {id : String} {reservation : PaymentReservationV2}
    {captured released : CurrencyAmount} {reference : Option String} {status : SettlementStatus}
    {at' : Int} {receipt : SettlementReceipt}
    (h : settlementReceipt adapter id reservation captured released reference status at' =
      .ok receipt) : receipt.settledAt = at' := by
  unfold settlementReceipt at h
  split_ifs at h
  cases h
  rfl

theorem reservationWithState_eq {reservation : PaymentReservationV2}
    {state : PaymentReservationState} {at' : Int} {reason : Option String} :
    reservationWithState reservation state at' reason =
      if at' < reservation.createdAt then
        .error (.value "reservation updated_at cannot precede created_at")
      else
        .ok { reservation with
          state := state
          updatedAt := at'
          indeterminateReason := if state = .indeterminate then reason else none } := by
  unfold reservationWithState raiseIf
  split <;> rfl

theorem settleReceipt_settledAt {reservation known : PaymentReservationV2} {actual : CurrencyAmount}
    {reference : Option String} {key : String} {receipt : SettlementReceipt}
    (h : settleReceipt adapter answer reservation known actual reference key s = .ok receipt) :
    receipt.settledAt = answer.clock := by
  simp only [settleReceipt, bind_ok] at h
  obtain ⟨-, -, -, -, _, -, _, -, h⟩ := h
  exact settlementReceipt_settledAt h

theorem settleKnown_raised {reservation known : PaymentReservationV2} {actual : CurrencyAmount}
    {reference : Option String} {key : String} {e : Err}
    (h : (settleKnown adapter answer reservation known actual reference key s).1 = .raised e) :
    ((settleKnown adapter answer reservation known actual reference key s).2 = s ∧
      ¬ ((∃ receipt, settleReceipt adapter answer reservation known actual reference key s =
          .ok receipt) ∧ ∃ balance, capturedBalance adapter actual s = .ok balance)) ∨
    ∃ receipt balance,
      settleReceipt adapter answer reservation known actual reference key s = .ok receipt ∧
      capturedBalance adapter actual s = .ok balance ∧ answer.clock < reservation.createdAt ∧
      (settleKnown adapter answer reservation known actual reference key s).2 =
        { s with balance := balance } := by
  unfold settleKnown at h ⊢
  rw [get_bind, ensure_bind] at h ⊢
  cases hreceipt : settleReceipt adapter answer reservation known actual reference key s with
  | error e' => exact .inl ⟨rfl, fun hok => by obtain ⟨⟨_, hok⟩, -⟩ := hok; cases hok⟩
  | ok receipt =>
    simp only [hreceipt, ensure_bind] at h ⊢
    cases hbalance : capturedBalance adapter actual s with
    | error e' => exact .inl ⟨rfl, fun hok => by obtain ⟨-, _, hok⟩ := hok; cases hok⟩
    | ok balance =>
      simp only [hbalance, update_bind, ensure_bind] at h ⊢
      have hclock := settleReceipt_settledAt hreceipt
      rw [reservationWithState_eq, hclock] at h ⊢
      by_cases hlate : answer.clock < reservation.createdAt
      · rw [if_pos hlate]
        exact .inr ⟨receipt, balance, rfl, rfl, hlate, rfl⟩
      · rw [if_neg hlate] at h
        cases h

theorem settle_unchanged_iff {reservation : PaymentReservationV2} {actual : CurrencyAmount}
    {evidence : SettlementEvidence} {reference : Option String} {key : String} {e : Err}
    (h : (settle adapter answer reservation actual evidence reference key s).1 = .raised e) :
    observe adapter (settle adapter answer reservation actual evidence reference key s).2 =
        observe adapter s ↔
      ¬ (LedgerCall.settle reservation actual evidence reference key).Adopts s ∧
      ¬ (LedgerCall.settle reservation actual evidence reference key).Deducts adapter answer s := by
  unfold settle at h ⊢
  rcases cached_raised h with ⟨hcached, heq⟩ | ⟨huncached, hcall, heq⟩
  · rw [heq]
    exact iff_of_true rfl ⟨fun hadopts => hcached hadopts.1, fun hdeducts => hcached hdeducts.1⟩
  rw [heq]
  rw [ensure_bind] at hcall ⊢
  cases hvalid : validateSettlementRequest reservation actual evidence with
  | error e' => simp [LedgerCall.Adopts, LedgerCall.Deducts, hvalid]
  | ok u =>
    simp only [hvalid, knownReservation_bind] at hcall ⊢
    cases hknown : s.reservations.find? reservation.reservationId with
    | none =>
      -- whatever fails now, the reservation stays adopted
      simp only [hknown] at hcall ⊢
      refine iff_of_false (observe_ne_of_reservations hknown ?_) fun hnot =>
        hnot.1 ⟨huncached, hvalid, hknown⟩
      rcases settleKnown_raised hcall with ⟨heq, -⟩ | ⟨receipt, balance, -, -, -, heq⟩
      · rw [heq]
      · rw [heq]
    | some known =>
      have hadopts :
          ¬ (LedgerCall.settle reservation actual evidence reference key).Adopts s := by
        rintro ⟨-, -, hnone⟩
        rw [hknown] at hnone
        cases hnone
      simp only [hknown] at hcall ⊢
      by_cases hid : identityPayload known = identityPayload reservation
      · rw [if_pos hid] at hcall ⊢
        rcases settleKnown_raised hcall with ⟨heq, hnot⟩ | ⟨receipt, balance, hok, hpaid, hlate, heq⟩
        · rw [heq]
          refine iff_of_true rfl ⟨hadopts, ?_⟩
          rintro ⟨-, -, ⟨other, hother, -, hreceipt⟩, -, balance, hbalance, -⟩
          obtain rfl := Option.some.inj (hknown.symm.trans hother)
          exact hnot ⟨hreceipt, balance, hbalance⟩
        · rw [heq, observe_balance]
          constructor
          · rintro hsame
            refine ⟨hadopts, ?_⟩
            rintro ⟨-, -, -, -, other, hother, hne⟩
            exact hne ((Except.ok.inj (hother.symm.trans hpaid)).trans hsame)
          · rintro ⟨-, hdeducts⟩
            by_contra hne
            exact hdeducts ⟨huncached, hvalid, ⟨known, hknown, hid, receipt, hok⟩, hlate, balance,
              hpaid, hne⟩
      · rw [if_neg hid]
        refine iff_of_true rfl ⟨hadopts, ?_⟩
        rintro ⟨-, -, ⟨other, hother, hsame, -⟩, -⟩
        obtain rfl := Option.some.inj (hknown.symm.trans hother)
        exact hid hsame

theorem releaseReceipt_settledAt {reservation known : PaymentReservationV2} {key : String}
    {receipt : SettlementReceipt}
    (h : releaseReceipt adapter answer reservation known key s = .ok receipt) :
    receipt.settledAt = answer.clock := by
  simp only [releaseReceipt, bind_ok] at h
  obtain ⟨-, -, -, -, _, -, h⟩ := h
  exact settlementReceipt_settledAt h

theorem releaseKnown_raised {reservation known : PaymentReservationV2} {key : String} {e : Err}
    (h : (releaseKnown adapter answer reservation known key s).1 = .raised e) :
    (releaseKnown adapter answer reservation known key s).2 = s := by
  unfold releaseKnown at h ⊢
  rw [get_bind, ensure_bind] at h ⊢
  cases hreceipt : releaseReceipt adapter answer reservation known key s with
  | error e' => rfl
  | ok receipt =>
    simp only [hreceipt, ensure_bind] at h ⊢
    rw [reservationWithState_eq, releaseReceipt_settledAt hreceipt] at h ⊢
    by_cases hlate : answer.clock < reservation.createdAt
    · rw [if_pos hlate]
    · rw [if_neg hlate] at h
      cases h

theorem release_unchanged_iff {reservation : PaymentReservationV2} {reason key : String} {e : Err}
    (h : (release adapter answer reservation reason key s).1 = .raised e) :
    observe adapter (release adapter answer reservation reason key s).2 = observe adapter s ↔
      ¬ (LedgerCall.release reservation reason key).Adopts s := by
  unfold release at h ⊢
  rw [ensure_bind] at h ⊢
  by_cases hreason : reason = ""
  · simp [hreason, refuseIf, raiseIf, LedgerCall.Adopts]
  simp only [hreason, refuseIf, raiseIf, if_false] at h ⊢
  rcases cached_raised h with ⟨hcached, heq⟩ | ⟨huncached, hcall, heq⟩
  · rw [heq]
    exact iff_of_true rfl fun hadopts => hcached hadopts.2.1
  rw [heq]
  rw [knownReservation_bind] at hcall ⊢
  cases hknown : s.reservations.find? reservation.reservationId with
  | none =>
    simp only [hknown] at hcall ⊢
    refine iff_of_false (observe_ne_of_reservations hknown ?_) fun hnot =>
      hnot ⟨hreason, huncached, hknown⟩
    rw [releaseKnown_raised hcall]
  | some known =>
    have hadopts : ¬ (LedgerCall.release reservation reason key).Adopts s := by
      rintro ⟨-, -, hnone⟩
      rw [hknown] at hnone
      cases hnone
    simp only [hknown] at hcall ⊢
    refine iff_of_true ?_ hadopts
    by_cases hid : identityPayload known = identityPayload reservation
    · rw [if_pos hid] at hcall ⊢
      rw [releaseKnown_raised hcall]
    · rw [if_neg hid]

theorem refundKnown_raised {settlement : SettlementReceipt} {amount : CurrencyAmount}
    {reason key : String} {e : Err}
    (h : (refundKnown adapter answer settlement amount reason key s).1 = .raised e) :
    (refundKnown adapter answer settlement amount reason key s).2 = s := by
  unfold refundKnown at h ⊢
  rw [get_bind, ensure_bind] at h ⊢
  cases hreceipt : refundReceipt adapter answer settlement amount reason key s with
  | error e' => rfl
  | ok receipt =>
    rw [hreceipt] at h
    cases h

theorem knownSettlement_bind {β : Type} {settlement : SettlementReceipt} {f : Unit → LedgerM β} :
    (knownSettlement settlement >>= f) s =
      match s.settlements.find? settlement.settlementId with
      | none => f () { s with settlements := s.settlements.assign settlement }
      | some known =>
        if known = settlement then f () s
        else (.raised (.configuration "settlement identity changed"), s) := by
  change Process.bind (knownSettlement settlement) f s = _
  unfold Process.bind knownSettlement
  rw [get_bind]
  cases s.settlements.find? settlement.settlementId with
  | none => rfl
  | some known => by_cases h : known = settlement <;> simp [ensure, refuseIf, raiseIf, h]

theorem refund_unchanged_iff {settlement : SettlementReceipt} {amount : CurrencyAmount}
    {reason key : String} {e : Err}
    (h : (refund adapter answer settlement amount reason key s).1 = .raised e) :
    observe adapter (refund adapter answer settlement amount reason key s).2 = observe adapter s ↔
      ¬ (LedgerCall.refund settlement amount reason key).Adopts s := by
  unfold refund at h ⊢
  rw [ensure_bind] at h ⊢
  by_cases hreason : reason = ""
  · simp [hreason, refuseIf, raiseIf, LedgerCall.Adopts]
  simp only [hreason, refuseIf, raiseIf, if_false] at h ⊢
  rcases cached_raised h with ⟨hcached, heq⟩ | ⟨huncached, hcall, heq⟩
  · rw [heq]
    exact iff_of_true rfl fun hadopts => hcached hadopts.2.1
  rw [heq]
  rw [ensure_bind] at hcall ⊢
  by_cases hcurrency : amount.currency = settlement.capturedAmount.currency
  · simp only [hcurrency, not_true_eq_false, ne_eq, if_false, knownSettlement_bind] at hcall ⊢
    cases hknown : s.settlements.find? settlement.settlementId with
    | none =>
      simp only [hknown] at hcall ⊢
      refine iff_of_false (observe_ne_of_settlements hknown ?_) fun hnot =>
        hnot ⟨hreason, huncached, hcurrency, hknown⟩
      rw [refundKnown_raised hcall]
    | some known =>
      have hadopts : ¬ (LedgerCall.refund settlement amount reason key).Adopts s := by
        rintro ⟨-, -, -, hnone⟩
        rw [hknown] at hnone
        cases hnone
      simp only [hknown] at hcall ⊢
      refine iff_of_true ?_ hadopts
      by_cases hsame : known = settlement
      · rw [if_pos hsame] at hcall ⊢
        rw [refundKnown_raised hcall]
      · rw [if_neg hsame]
  · simp [hcurrency, LedgerCall.Adopts]

end Failures

/-! ## Every call -/

/-- A rail with a balance of five and no reservations. -/
def localLedger : LocalLedgerPaymentAdapter where
  name := "local-ledger"
  settlementCurrency := "USD"
  unlimitedBudget := false
  freeOnly := false
  stableOperationId operation key := operation ++ "_" ++ key

def Ledger.of (balance : ℚ) (reservations : Table PaymentReservationV2 (·.reservationId)) :
    Ledger where
  balance := balance
  operations := ∅
  reservations := reservations
  chargeReservations := []
  settlements := ∅
  reservationSettlements := []
  refunds := ∅

def reservationOfTen : PaymentReservationV2 where
  reservationId := "reserve_1"
  chargeId := "charge_1"
  preparedId := "prepared_1"
  basis := ⟨.signedQuote, "quote_1"⟩
  actionId := "act_1"
  attemptId := "attempt_1"
  maximumAmount := ⟨10, "USD", by norm_num⟩
  adapter := "local-ledger"
  idempotencyKey := "key"
  state := .reserved
  createdAt := 0
  updatedAt := 0
  indeterminateReason := none
  rest := ""

def captureOfTen : LedgerCall :=
  .settle reservationOfTen ⟨10, "USD", by norm_num⟩
    ⟨"charge_1", .operatorAttested, none, none, none⟩ none "settle"

end AeepRouter.Payments

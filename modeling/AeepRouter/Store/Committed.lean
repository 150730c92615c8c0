import AeepRouter.Lib.Account
import AeepRouter.Store.Links

/-!
# Holds and captures stay within the limits

For one currency and one start of a period the store is an account: its open reservations are held,
its settled captures and their refunds counted from the start on. Every transaction is a sequence of
steps of that account (`Step.account`), if the amounts are such that the sums the store compares are
exact. The clock joins the store in `Clocked`, whose events are transactions and the passage of
time; a new day begins with nothing captured, as long as no receipt was dated ahead of its day.
-/

namespace AeepRouter

open Lib Decimal

def Store.account (s : Store) (currency : String) (since : Option Int) : Account ℚ :=
  ⟨(s.outstanding currency).sum, (s.captures currency since).sum,
    (s.refundedAmounts currency since).sum⟩

/-- What a hold keeps from being spent in a currency. -/
def PaymentRow.holding (currency : String) (row : PaymentRow) : ℚ :=
  if row.payload.maximumAmount.currency = currency ∧ ¬ row.state.closed then
    row.payload.maximumAmount.amount
  else 0

theorem Store.sum_outstanding (s : Store) (currency : String) :
    (s.outstanding currency).sum = s.reservations.sumBy (PaymentRow.holding currency) :=
  Table.sum_select _ _ _

section Frames

variable {s s' : Store} {currency : String} {since : Option Int}

/-! ## Rewriting one hold -/

theorem Store.isSettled_of_find? {reservationId : String} {row : PaymentRow}
    (h : s.reservations.find? reservationId = some row) :
    s.isSettled reservationId ↔ row.state = .settled := by
  simp [isSettled, h]

theorem Store.isSettled_setReservation {reservationId : String} {row : PaymentRow}
    {f : Table.Rewrite PaymentRow.reservationId}
    (hrow : s.reservations.find? reservationId = some row) (id : String) :
    (s.setReservation reservationId f).isSettled id ↔
      if id = reservationId then (f row).state = .settled else s.isSettled id := by
  unfold isSettled setReservation
  simp only [Table.find?_modify, hrow]
  split <;> simp

theorem Store.account_congr (h : ∀ id, s'.isSettled id ↔ s.isSettled id)
    (ht : s'.settlements = s.settlements) (hr : s'.refunds = s.refunds) :
    s'.account currency since =
      { s.account currency since with held := (s'.outstanding currency).sum } := by
  have hcaptures : s'.captures currency since = s.captures currency since := by
    unfold captures
    rw [ht]
    exact Table.select_congr fun receipt _ => by rw [h]
  have hcaptured : ∀ id, s'.isCaptured id ↔ s.isCaptured id := by
    intro id
    unfold isCaptured
    simp only [ht, h]
  have hrefunds : s'.refundedAmounts currency since = s.refundedAmounts currency since := by
    unfold refundedAmounts
    rw [hr]
    exact Table.select_congr fun refund _ => by rw [hcaptured]
  unfold account
  rw [hcaptures, hrefunds]

/-- A hold that stays open stays in the account. -/
theorem Store.account_setReservation {reservationId : String} {row : PaymentRow}
    {f : Table.Rewrite PaymentRow.reservationId} (hf : ∀ row, (f row).payload = row.payload)
    (hrow : s.reservations.find? reservationId = some row) (hopen : ¬ row.state.closed)
    (hopen' : ¬ (f row).state.closed) :
    (s.setReservation reservationId f).account currency since = s.account currency since := by
  have hsettled : ∀ id, (s.setReservation reservationId f).isSettled id ↔ s.isSettled id := by
    intro id
    rw [Store.isSettled_setReservation hrow]
    split
    · next hid =>
      rw [hid, Store.isSettled_of_find? hrow]
      constructor
      · intro h
        rw [h] at hopen'
        exact absurd rfl hopen'
      · intro h
        rw [h] at hopen
        exact absurd rfl hopen
    · rfl
  have houtstanding : (s.setReservation reservationId f).outstanding currency =
      s.outstanding currency := by
    refine Table.select_modify (fun row => by rw [hf]) fun x hx => ?_
    split
    · next hid =>
      have : x = row := by
        rw [← hid, Table.find?_of_mem hx] at hrow
        exact Option.some.inj hrow
      subst this
      simp only [hf, hopen, hopen']
    · rfl
  rw [Store.account_congr hsettled rfl rfl, houtstanding]
  rfl

theorem Store.account_hold {reservation : PaymentReservationV2}
    (hfresh : s.reservations.find? reservation.reservationId = none)
    (hstate : reservation.state = .reserved) :
    (s.hold reservation).account currency since =
      if reservation.maximumAmount.currency = currency then
        { s.account currency since with
          held := (s.account currency since).held + reservation.maximumAmount.amount }
      else s.account currency since := by
  have hsettled : ∀ id, (s.hold reservation).isSettled id ↔ s.isSettled id := by
    intro id
    unfold isSettled hold
    rw [Table.find?_insert hfresh]
    split
    · next hid =>
      rw [hid, show s.reservations.find? (PaymentRow.ofReservation reservation).reservationId = none
        from hfresh]
      simp [PaymentRow.ofReservation, hstate]
    · rfl
  have houtstanding : (s.hold reservation).outstanding currency = s.outstanding currency ++
      if reservation.maximumAmount.currency = currency then [reservation.maximumAmount.amount]
      else [] := by
    refine (Table.select_insert (x := PaymentRow.ofReservation reservation) hfresh).trans ?_
    refine congrArg _ (if_congr ?_ rfl rfl)
    simp [PaymentRow.ofReservation, hstate, PaymentReservationState.closed]
  rw [Store.account_congr hsettled rfl rfl, houtstanding, List.sum_append]
  split
  · rw [List.sum_singleton]
    rfl
  · rw [List.sum_nil, add_zero]
    rfl

theorem Store.account_refund {refund : RefundReceiptV2}
    (hfresh : s.refunds.find? refund.refundId = none) :
    ∃ amount, 0 ≤ amount ∧
      ({ s with refunds := s.refunds.insert refund } : Store).account currency since =
        { s.account currency since with
          refunded := (s.account currency since).refunded + amount } := by
  have hrefunded : ({ s with refunds := s.refunds.insert refund } : Store).refundedAmounts
      currency since = s.refundedAmounts currency since ++
        if refund.amount.currency = currency ∧ s.isCaptured refund.settlementId ∧
          ∀ start ∈ since, start ≤ refund.refundedAt then [refund.amount.amount] else [] :=
    Table.select_insert hfresh
  have hsum : ∀ amount : ℚ, (({ s with refunds := s.refunds.insert refund } : Store).refundedAmounts
      currency since).sum = (s.refundedAmounts currency since).sum + amount →
      ({ s with refunds := s.refunds.insert refund } : Store).account currency since =
        { s.account currency since with
          refunded := (s.account currency since).refunded + amount } :=
    fun amount h => Account.ext rfl rfl h
  by_cases hcounts : refund.amount.currency = currency ∧ s.isCaptured refund.settlementId ∧
      ∀ start ∈ since, start ≤ refund.refundedAt
  · refine ⟨refund.amount.amount, refund.amount.nonneg, hsum _ ?_⟩
    rw [hrefunded, if_pos hcounts, List.sum_append, List.sum_singleton]
  · refine ⟨0, le_rfl, hsum _ ?_⟩
    rw [hrefunded, if_neg hcounts, List.append_nil, add_zero]

/-! ## Settling -/

section Settled

variable {receipt : SettlementReceipt} {row : PaymentRow} {prepared : PreparedRow}
  (transitions : Table PreparedRouteTransition (·.transitionId))

theorem Store.isSettled_settled (h : receipt.Admitted s row prepared) (id : String) :
    (s.settled receipt transitions).isSettled id ↔
      if id = receipt.reservationId then receipt.status.reservationTarget = .settled
      else s.isSettled id :=
  Store.isSettled_setReservation (f := receipt.close) h.found id

/-- Only the new receipt can change what counts as captured. -/
theorem Store.captures_settled (currency : String) (since : Option Int)
    (h : receipt.Admitted s row prepared) :
    (s.settled receipt transitions).captures currency since = s.captures currency since ++
      if receipt.reservedAmount.currency = currency ∧
        receipt.status.reservationTarget = .settled ∧
        ∀ start ∈ since, start ≤ receipt.settledAt then [receipt.capturedAmount.amount] else [] := by
  obtain ⟨hnone, hfresh⟩ := h.fresh
  refine (Table.select_insert hnone).trans (congr_arg₂ _ ?_ (if_congr ?_ rfl rfl))
  · refine Table.select_congr fun stored hstored => ?_
    rw [Store.isSettled_settled transitions h, if_neg (hfresh stored hstored)]
  · rw [Store.isSettled_settled transitions h, if_pos rfl]

theorem Store.refundedAmounts_settled (currency : String) (since : Option Int) (hs : s.Linked)
    (h : receipt.Admitted s row prepared) :
    (s.settled receipt transitions).refundedAmounts currency since =
      s.refundedAmounts currency since := by
  obtain ⟨hnone, hfresh⟩ := h.fresh
  refine Table.select_congr fun refund hrefund => ?_
  have hcaptured : (s.settled receipt transitions).isCaptured refund.settlementId ↔
      s.isCaptured refund.settlementId := by
    have hstored := hs.captured refund hrefund
    have hne : refund.settlementId ≠ receipt.settlementId := by
      intro hid
      rw [hid, hnone] at hstored
      cases hstored
    unfold isCaptured
    rw [show (s.settled receipt transitions).settlements = s.settlements.insert receipt from rfl,
      Table.find?_insert hnone, if_neg hne]
    constructor
    · rintro ⟨stored, hfound, hsettled⟩
      rw [Store.isSettled_settled transitions h, if_neg (hfresh stored (Table.mem_of_find? hfound))] at hsettled
      exact ⟨stored, hfound, hsettled⟩
    · rintro ⟨stored, hfound, hsettled⟩
      refine ⟨stored, hfound, ?_⟩
      rwa [Store.isSettled_settled transitions h, if_neg (hfresh stored (Table.mem_of_find? hfound))]
  rw [hcaptured]

theorem Store.outstanding_settled (currency : String) (h : receipt.Admitted s row prepared) :
    ((s.settled receipt transitions).outstanding currency).sum =
      (s.outstanding currency).sum -
        if receipt.reservedAmount.currency = currency ∧ receipt.status.reservationTarget.closed
        then receipt.reservedAmount.amount else 0 := by
  have hopen : ¬ row.state.closed := by
    have := h.source
    revert this
    cases row.state <;> cases receipt.status <;> decide
  have hbefore : row.holding currency = if receipt.reservedAmount.currency = currency then
      receipt.reservedAmount.amount else 0 := by
    rw [h.closes.amount]
    simp [PaymentRow.holding, hopen]
  have hafter : (receipt.close row).holding currency =
      if receipt.reservedAmount.currency = currency ∧ ¬ receipt.status.reservationTarget.closed then
        receipt.reservedAmount.amount else 0 := by
    rw [h.closes.amount]
    rfl
  have hmodify := Table.sumBy_modify h.found receipt.close (PaymentRow.holding currency)
  rw [hbefore, hafter] at hmodify
  rw [Store.sum_outstanding, Store.sum_outstanding, eq_sub_iff_add_eq]
  show Table.sumBy _ (s.reservations.modify receipt.reservationId receipt.close) + _ = _
  by_cases hcurrency : receipt.reservedAmount.currency = currency
  · by_cases hclosed : receipt.status.reservationTarget.closed
    · simpa [hcurrency, hclosed] using hmodify
    · simpa [hcurrency, hclosed] using hmodify
  · simpa [hcurrency] using hmodify

/-- A receipt settles its hold, releases it or leaves it open. -/
theorem Store.account_settled (hs : s.Linked) (h : receipt.Admitted s row prepared) (limit : ℚ) :
    Account.Step limit (s.account currency since)
      ((s.settled receipt transitions).account currency since) := by
  have hheld := Store.outstanding_settled transitions currency h
  have hcaptured := Store.captures_settled transitions currency since h
  have hrefunded := Store.refundedAmounts_settled transitions currency since hs h
  set s' := s.settled receipt transitions
  have haccount : s'.account currency since = ⟨(s'.outstanding currency).sum,
      (s'.captures currency since).sum, (s.refundedAmounts currency since).sum⟩ := by
    rw [← hrefunded]
    rfl
  rw [haccount, hheld, hcaptured, List.sum_append]
  by_cases hclosed : receipt.reservedAmount.currency = currency ∧
      receipt.status.reservationTarget.closed
  · rw [if_pos hclosed]
    split
    · rw [List.sum_singleton]
      exact .settle _ _ receipt.reservedAmount.nonneg receipt.captured_le
    · rw [List.sum_nil, add_zero]
      exact .release _ receipt.reservedAmount.nonneg
  · have hopen : ¬ (receipt.reservedAmount.currency = currency ∧
        receipt.status.reservationTarget = .settled ∧
        ∀ start ∈ since, start ≤ receipt.settledAt) := by
      rintro ⟨hcurrency, htarget, -⟩
      exact hclosed ⟨hcurrency, by rw [htarget]; rfl⟩
    rw [if_neg hclosed, if_neg hopen, List.sum_nil, add_zero, sub_zero]
    exact .stay

end Settled

end Frames

/-! ## Exact sums -/

def Store.capturedTotal (s : Store) (currency : String) : ℚ :=
  (s.settlements.select (·.reservedAmount.currency = currency) (·.capturedAmount.amount)).sum

def Store.refundedTotal (s : Store) (currency : String) : ℚ :=
  (s.refunds.select (·.amount.currency = currency) (·.amount.amount)).sum

structure Store.AmountsExact (unit : ℤ) (currency : String) (s : Store) : Prop where
  linked : s.Linked
  held : ∀ row ∈ s.reservations, row.payload.maximumAmount.currency = currency →
    OnGrid unit row.payload.maximumAmount.amount
  captured : ∀ receipt ∈ s.settlements, receipt.reservedAmount.currency = currency →
    OnGrid unit receipt.capturedAmount.amount
  refunded : ∀ refund ∈ s.refunds, refund.amount.currency = currency →
    OnGrid unit refund.amount.amount
  captured_le : s.capturedTotal currency ≤ 10 ^ (unit + 28)
  refunded_le : s.refundedTotal currency ≤ 10 ^ (unit + 28)

section Exact

variable {s s' : Store} {unit : ℤ} {currency : String} {since : Option Int}

theorem Store.captures_le (s : Store) (currency : String) (since : Option Int) :
    (s.captures currency since).sum ≤ s.capturedTotal currency :=
  Table.sum_select_le (fun _ _ h => h.1) fun receipt _ => receipt.capturedAmount.nonneg

theorem Store.refundedAmounts_le (s : Store) (currency : String) (since : Option Int) :
    (s.refundedAmounts currency since).sum ≤ s.refundedTotal currency :=
  Table.sum_select_le (fun _ _ h => h.1) fun refund _ => refund.amount.nonneg

theorem Store.AmountsExact.committedAmount_ok (hs : s.AmountsExact unit currency) {committed : ℚ}
    (hbound : (s.account currency since).exposure ≤ 10 ^ (unit + 28))
    (h : s.committedAmount currency since = .ok committed) :
    committed = (s.account currency since).exposure ∧ OnGrid unit committed := by
  have hheld : ∀ x ∈ s.outstanding currency, OnGrid unit x ∧ 0 ≤ x := by
    intro x hx
    obtain ⟨row, hrow, ⟨hcurrency, -⟩, rfl⟩ := Table.mem_select.mp hx
    exact ⟨hs.held row hrow hcurrency, row.payload.maximumAmount.nonneg⟩
  have hcaptured : ∀ x ∈ s.captures currency since, OnGrid unit x ∧ 0 ≤ x := by
    intro x hx
    obtain ⟨receipt, hreceipt, ⟨hcurrency, -⟩, rfl⟩ := Table.mem_select.mp hx
    exact ⟨hs.captured receipt hreceipt hcurrency, receipt.capturedAmount.nonneg⟩
  have hrefunded : ∀ x ∈ s.refundedAmounts currency since, OnGrid unit x ∧ 0 ≤ x := by
    intro x hx
    obtain ⟨refund, hrefund, ⟨hcurrency, -⟩, rfl⟩ := Table.mem_select.mp hx
    exact ⟨hs.refunded refund hrefund hcurrency, refund.amount.nonneg⟩
  have hheldLe := (Account.held_le_exposure (s.account currency since)).trans hbound
  have hcapturedLe := (s.captures_le currency since).trans hs.captured_le
  have hrefundedLe := (s.refundedAmounts_le currency since).trans hs.refunded_le
  obtain ⟨hheldSum, hheldGrid, hheld0⟩ := decSum_of_onGrid hheld hheldLe
  obtain ⟨hcapturedSum, hcapturedGrid, hcaptured0⟩ := decSum_of_onGrid hcaptured hcapturedLe
  obtain ⟨hrefundedSum, hrefundedGrid, hrefunded0⟩ := decSum_of_onGrid hrefunded hrefundedLe
  have hnet := dec_of_onGrid (hcapturedGrid.sub hrefundedGrid)
    (abs_le.mpr ⟨by linarith, by linarith⟩)
  have hgrid : OnGrid unit (s.account currency since).exposure :=
    hheldGrid.add ((OnGrid.zero unit).max (hcapturedGrid.sub hrefundedGrid))
  have hexposure0 : 0 ≤ (s.account currency since).exposure := add_nonneg hheld0 (le_max_left _ _)
  have hexact := dec_of_onGrid hgrid (by rwa [abs_of_nonneg hexposure0])
  simp only [Store.committedAmount, bind_ok, raiseIf_ok, exists_const, pure_ok] at h
  obtain ⟨-, rfl⟩ := h
  rw [hheldSum, hcapturedSum, hrefundedSum, hnet]
  refine ⟨hexact, ?_⟩
  rw [← hexact] at hgrid
  exact hgrid

theorem Store.AmountsExact.fits (hs : s.AmountsExact unit currency) {limit amount : CurrencyAmount}
    {message : String} (hgrid : OnGrid unit limit.amount) (hlt : limit.amount < 10 ^ (unit + 28))
    (hamount : OnGrid unit amount.amount) (hcurrency : amount.currency = currency)
    (hwithin : (s.account currency since).exposure ≤ limit.amount)
    (h : s.requireWithin (some limit) amount since message = .ok ()) :
    (s.account currency since).exposure + amount.amount ≤ limit.amount := by
  simp only [Store.requireWithin, bind_ok, raiseIf_ok, not_lt, hcurrency] at h
  obtain ⟨committed, hcommitted, hfits⟩ := h
  obtain ⟨rfl, hexposure⟩ := hs.committedAmount_ok (hwithin.trans hlt.le) hcommitted
  exact le_of_dec_le (hexposure.add hamount) hgrid limit.nonneg hlt hfits

end Exact

/-! ## Policies and the clock -/

/-- The limits every reservation of a run is made under. -/
structure LimitPolicy where
  budget : CurrencyAmount
  prepaid : Option CurrencyAmount
  same_currency : ∀ limit ∈ prepaid, limit.currency = budget.currency

namespace LimitPolicy

variable (policy : LimitPolicy)

/-- The reservations of a run are made under the limits of the policy, for the day of the clock. -/
def Budgets (now : Int) : StoreOp → Prop
  | .reservePayment call =>
    call.reservation.maximumAmount.currency = policy.budget.currency →
      call.budgetLimit = some policy.budget ∧
        (∀ limit ∈ policy.prepaid, call.prepaidLimit = some limit) ∧
        call.periodStart = some (utcMidnight now)
  | _ => True

/-- No new receipt is dated after the day of the clock. -/
def Dates (now : Int) (s : Store) : StoreOp → Prop
  | .saveSettlementReceipt receipt _ =>
    receipt.reservedAmount.currency = policy.budget.currency →
      s.existingSettlement receipt = none → receipt.settledAt < utcMidnight now + day
  | _ => True

/-- New amounts are multiples of the unit and keep the totals within 28 digits. -/
def Exact (unit : ℤ) (s : Store) : StoreOp → Prop
  | .reservePayment call =>
    call.reservation.maximumAmount.currency = policy.budget.currency →
      OnGrid unit call.reservation.maximumAmount.amount
  | .saveSettlementReceipt receipt _ =>
    receipt.reservedAmount.currency = policy.budget.currency →
      s.existingSettlement receipt = none → OnGrid unit receipt.capturedAmount.amount ∧
        s.capturedTotal policy.budget.currency + receipt.capturedAmount.amount ≤ 10 ^ (unit + 28)
  | .completeRefund refund | .saveRefundReceipt refund =>
    refund.amount.currency = policy.budget.currency →
      s.existingRefund refund = none → OnGrid unit refund.amount.amount ∧
        s.refundedTotal policy.budget.currency + refund.amount.amount ≤ 10 ^ (unit + 28)
  | _ => True

def ExactLimit (unit : ℤ) (limit : CurrencyAmount) : Prop :=
  OnGrid unit limit.amount ∧ limit.amount < 10 ^ (unit + 28)

instance (now : Int) (op : StoreOp) : Decidable (policy.Budgets now op) := by
  induction op using StoreOp.casesOn <;> unfold Budgets <;> infer_instance

instance (now : Int) (s : Store) (op : StoreOp) : Decidable (policy.Dates now s op) := by
  induction op using StoreOp.casesOn <;> unfold Dates <;> infer_instance

instance (unit : ℤ) (s : Store) (op : StoreOp) : Decidable (policy.Exact unit s op) := by
  induction op using StoreOp.casesOn <;> unfold Exact <;> infer_instance

instance (unit : ℤ) (limit : CurrencyAmount) : Decidable (ExactLimit unit limit) := by
  unfold ExactLimit; infer_instance

/-- The conditions of a run on its transactions. -/
structure Admits (unit : ℤ) (now : Int) (s : Store) (op : StoreOp) : Prop where
  budgets : policy.Budgets now op
  exact : policy.Exact unit s op

instance (unit : ℤ) (now : Int) (s : Store) (op : StoreOp) :
    Decidable (policy.Admits unit now s op) :=
  decidable_of_iff (policy.Budgets now op ∧ policy.Exact unit s op)
    ⟨fun ⟨hb, he⟩ => ⟨hb, he⟩, fun h => ⟨h.budgets, h.exact⟩⟩

end LimitPolicy

/-- The store beside the clock of its callers. -/
structure Clocked where
  now : Int
  store : Store

inductive ClockedEvent where
  | elapse (microseconds : ℕ)
  | transact (op : StoreOp)

def Clocked.step (crypto : Crypto) (c : Clocked) : ClockedEvent → Clocked
  | .elapse microseconds => { c with now := c.now + microseconds }
  | .transact op => { c with store := c.store.apply crypto op }

/-- An event a condition on transactions admits. -/
def ClockedEvent.meets (P : Int → Store → StoreOp → Prop) (c : Clocked) : ClockedEvent → Prop
  | .elapse _ => True
  | .transact op => P c.now c.store op

instance (P : Int → Store → StoreOp → Prop) [∀ now s op, Decidable (P now s op)] (c : Clocked)
    (event : ClockedEvent) : Decidable (event.meets P c) := by
  cases event <;> unfold ClockedEvent.meets <;> infer_instance

/-! ## The steps of the account -/

section Steps

variable {P : Store → StoreOp → Prop} {s s' : Store} {unit : ℤ} {currency : String}
  {since : Option Int}

theorem Step.account (h : Step P s s') (hs : s.Linked) {limit : ℚ}
    (hfits : ∀ call prepared, P s (.reservePayment call) → call.Admitted s prepared →
      call.reservation.maximumAmount.currency = currency →
      (s.account currency since).exposure + call.reservation.maximumAmount.amount ≤ limit) :
    Account.Step limit (s.account currency since) (s'.account currency since) := by
  have hheld : ∀ call prepared, P s (.reservePayment call) → call.Admitted s prepared →
      Account.Step limit (s.account currency since)
        ((s.hold call.reservation).account currency since) := by
    intro call prepared hP hadm
    have hstate : call.reservation.state = .reserved := by
      have := hadm.arguments
      simp only [ReserveCall.checkArguments, bind_ok, raiseIf_ok, exists_const, ne_eq,
        not_not] at this
      exact this.1
    rw [Store.account_hold hadm.fresh hstate]
    split
    · next hcurrency => exact .hold _ (hfits call prepared hP hadm hcurrency)
    · exact .stay
  have hrefunded : ∀ {refund : RefundReceiptV2} {completing : Option String} {t : Store},
      s.insertRefundReceiptLocked refund completing = .ok t →
      Account.Step limit (s.account currency since) (t.account currency since) := by
    intro refund completing t hins
    obtain ⟨rfl, -⟩ | ⟨rfl, -, hnone, -⟩ := Store.insertRefundReceiptLocked_ok hins
    · exact .stay
    · obtain ⟨amount, h0, heq⟩ := Store.account_refund (s := s) hnone
      rw [heq]
      exact .refund amount h0
  cases h with
  | evidence | keys | saved | claimed | moved | authorized | suspended | released => exact .stay
  | held call prepared hP hadm => exact hheld call prepared hP hadm
  | heldAgain call prepared hP hadm => exact hheld call prepared hP hadm
  | changed id row state updatedAt reason hrow hallowed =>
    have hopen : ¬ row.state.closed ∧ ¬ state.closed := by
      revert hallowed
      cases row.state <;> cases state <;> decide
    have heq : (s.changed id state updatedAt reason).account currency since =
        s.account currency since :=
      Store.account_setReservation (fun _ => rfl) hrow hopen.1 hopen.2
    rw [heq]
    exact .stay
  | intended call row prepared hrow _ hadm =>
    have hopen : ¬ row.state.closed := by
      rcases hadm.source with ⟨h, -⟩ | ⟨h | h, -⟩ <;> rw [h] <;> decide
    have hclaimed : ¬ (call.claimed row).state.closed := by
      show ¬ PaymentReservationState.closed .settling
      decide
    have heq : (s.intended call).account currency since = s.account currency since :=
      Store.account_setReservation (fun _ => rfl) hrow hopen hclaimed
    rw [heq]
    exact .stay
  | settled receipt _ row prepared transitions hadm =>
    exact Store.account_settled transitions hs hadm limit
  | refunded refund t _ hins => exact hrefunded hins
  | completed refund record t _ _ _ _ hins =>
    have := hrefunded hins
    exact this

theorem Store.AmountsExact.step {policy : LimitPolicy}
    (hs : s.AmountsExact unit policy.budget.currency) (hP : ∀ op, P s op → policy.Exact unit s op) (h : Step P s s') :
    s'.AmountsExact unit policy.budget.currency := by
  have hl := hs.linked.step h
  have hheld : ∀ call prepared, P s (.reservePayment call) → call.Admitted s prepared →
      ∀ row ∈ (s.hold call.reservation).reservations,
        row.payload.maximumAmount.currency = policy.budget.currency →
          OnGrid unit row.payload.maximumAmount.amount := by
    intro call prepared hcall hadm row hrow hcurrency
    rcases (Table.mem_insert hadm.fresh).mp hrow with hrow | rfl
    · exact hs.held row hrow hcurrency
    · exact hP _ hcall hcurrency
  have hrefunded : ∀ {refund : RefundReceiptV2} {completing : Option String} {t : Store},
      s.insertRefundReceiptLocked refund completing = .ok t →
      (refund.amount.currency = policy.budget.currency → s.existingRefund refund = none →
        OnGrid unit refund.amount.amount ∧ s.refundedTotal policy.budget.currency +
          refund.amount.amount ≤ 10 ^ (unit + 28)) →
      t.AmountsExact unit policy.budget.currency := by
    intro refund completing t hins hexact
    have hl := hs.linked.refunded hins
    obtain ⟨rfl, -⟩ | ⟨rfl, habsent, hnone, -⟩ := Store.insertRefundReceiptLocked_ok hins
    · exact hs
    · refine ⟨hl, hs.held, hs.captured, fun r hr hcurrency => ?_, hs.captured_le, ?_⟩
      · rcases (Table.mem_insert hnone).mp hr with hr | rfl
        · exact hs.refunded r hr hcurrency
        · exact (hexact hcurrency habsent).1
      · show (Table.select _ _ (s.refunds.insert refund)).sum ≤ _
        rw [Table.select_insert hnone, List.sum_append]
        split
        · next hcurrency =>
          rw [List.sum_singleton]
          exact (hexact hcurrency habsent).2
        · rw [List.sum_nil, add_zero]
          exact hs.refunded_le
  have hrow : ∀ {id : String} {f : Table.Rewrite PaymentRow.reservationId},
      (∀ row, (f row).payload = row.payload) → ∀ row ∈ s.reservations.modify id f,
        row.payload.maximumAmount.currency = policy.budget.currency →
          OnGrid unit row.payload.maximumAmount.amount := by
    intro id f hf row hrow hcurrency
    obtain ⟨old, hold, heq⟩ := Table.mem_modify.mp hrow
    have hpayload : row.payload = old.payload := by
      rw [heq]
      split
      · exact hf old
      · rfl
    rw [hpayload] at hcurrency ⊢
    exact hs.held old hold hcurrency
  cases h with
  | evidence | keys | saved | claimed | moved | authorized | suspended | released =>
    exact ⟨hl, hs.held, hs.captured, hs.refunded, hs.captured_le, hs.refunded_le⟩
  | held call prepared hcall hadm =>
    exact ⟨hl, hheld call prepared hcall hadm, hs.captured, hs.refunded, hs.captured_le,
      hs.refunded_le⟩
  | heldAgain call prepared hcall hadm =>
    exact ⟨hl, hheld call prepared hcall hadm, hs.captured, hs.refunded, hs.captured_le,
      hs.refunded_le⟩
  | changed | intended =>
    exact ⟨hl, hrow fun _ => rfl, hs.captured, hs.refunded, hs.captured_le, hs.refunded_le⟩
  | settled receipt _ row prepared transitions hadm hreceipt =>
    obtain ⟨hnone, -⟩ := hadm.fresh
    have hexact := hP _ hreceipt
    refine ⟨hl, hrow fun _ => rfl, fun stored hstored hcurrency => ?_, hs.refunded, ?_,
      hs.refunded_le⟩
    · rcases (Table.mem_insert hnone).mp hstored with hstored | rfl
      · exact hs.captured stored hstored hcurrency
      · exact (hexact hcurrency hadm.absent).1
    · show (Table.select _ _ (s.settlements.insert receipt)).sum ≤ _
      rw [Table.select_insert hnone, List.sum_append]
      split
      · next hcurrency =>
        rw [List.sum_singleton]
        exact (hexact hcurrency hadm.absent).2
      · rw [List.sum_nil, add_zero]
        exact hs.captured_le
  | refunded refund t hrefund hins => exact hrefunded hins (hP _ hrefund)
  | completed refund record t hrefund _ _ _ hins =>
    have ht := hrefunded hins (hP _ hrefund)
    exact ⟨hl, ht.held, ht.captured, ht.refunded, ht.captured_le, ht.refunded_le⟩

end Steps

/-! ## Runs -/

section Runs

variable {crypto : Crypto} {policy : LimitPolicy} {unit : ℤ} {P : Store → StoreOp → Prop}

structure Clocked.Within (policy : LimitPolicy) (unit : ℤ) (s : Store) : Prop where
  exact : s.AmountsExact unit policy.budget.currency
  prepaid : ∀ limit ∈ policy.prepaid,
    (s.account policy.budget.currency none).exposure ≤ limit.amount

structure Clocked.WithinDay (policy : LimitPolicy) (now : Int) (s : Store) : Prop where
  dated : ∀ receipt ∈ s.settlements, receipt.reservedAmount.currency = policy.budget.currency →
    receipt.settledAt < utcMidnight now + day
  daily : (s.account policy.budget.currency (some (utcMidnight now))).exposure ≤
    policy.budget.amount

theorem Clocked.Within.step {now : Int} {s s' : Store}
    (hprepaid : ∀ limit ∈ policy.prepaid, LimitPolicy.ExactLimit unit limit)
    (hs : Clocked.Within policy unit s) (hP : ∀ op, P s op → policy.Admits unit now s op)
    (h : Step P s s') : Clocked.Within policy unit s' where
  exact := hs.exact.step (fun op hop => (hP op hop).exact) h
  prepaid limit hlimit := by
    refine (h.account hs.exact.linked fun call prepared hcall hadm hcurrency => ?_).within
      (hs.prepaid limit hlimit)
    obtain ⟨-, hsame, -⟩ := (hP _ hcall).budgets hcurrency
    obtain ⟨message, hwithin⟩ := hadm.prepaid
    rw [hsame limit hlimit] at hwithin
    obtain ⟨hgrid, hlt⟩ := hprepaid limit hlimit
    exact hs.exact.fits hgrid hlt ((hP _ hcall).exact hcurrency) hcurrency (hs.prepaid limit hlimit)
      hwithin

theorem Clocked.WithinDay.step {now : Int} {s s' : Store}
    (hbudget : LimitPolicy.ExactLimit unit policy.budget)
    (hexact : s.AmountsExact unit policy.budget.currency) (hs : Clocked.WithinDay policy now s)
    (hP : ∀ op, P s op → policy.Admits unit now s op)
    (hdates : ∀ op, P s op → policy.Dates now s op) (h : Step P s s') :
    Clocked.WithinDay policy now s' where
  dated receipt hmem hcurrency := by
    cases h with
    | evidence | keys | saved | claimed | moved | held | heldAgain | changed | intended
      | authorized | suspended | released => exact hs.dated receipt hmem hcurrency
    | settled new _ row prepared transitions hadm hnew =>
      rcases (Table.mem_insert hadm.fresh.1).mp hmem with hmem | rfl
      · exact hs.dated receipt hmem hcurrency
      · exact hdates _ hnew hcurrency hadm.absent
    | refunded refund t _ hins =>
      obtain ⟨rfl, -⟩ | ⟨rfl, -⟩ := Store.insertRefundReceiptLocked_ok hins <;>
        exact hs.dated receipt hmem hcurrency
    | completed refund record t _ _ _ _ hins =>
      obtain ⟨rfl, -⟩ | ⟨rfl, -⟩ := Store.insertRefundReceiptLocked_ok hins <;>
        exact hs.dated receipt hmem hcurrency
  daily := by
    refine (h.account hexact.linked fun call prepared hcall hadm hcurrency => ?_).within hs.daily
    obtain ⟨hlimit, -, hperiod⟩ := (hP _ hcall).budgets hcurrency
    obtain ⟨message, hwithin⟩ := hadm.budget
    rw [hlimit, hperiod] at hwithin
    exact hexact.fits hbudget.1 hbudget.2 ((hP _ hcall).exact hcurrency) hcurrency hs.daily hwithin

/-- Time alone lowers the exposure. -/
theorem Clocked.WithinDay.elapse {now later : Int} {s : Store} (hle : now ≤ later)
    (hs : Clocked.WithinDay policy now s) : Clocked.WithinDay policy later s where
  dated receipt hmem hcurrency := by
    have := hs.dated receipt hmem hcurrency
    have := utcMidnight_mono hle
    omega
  daily := by
    rcases utcMidnight_le_or_add_day_le hle with hsame | hnext
    · rw [← hsame]
      exact hs.daily
    · -- nothing was captured on the new day
      have hfresh : s.captures policy.budget.currency (some (utcMidnight later)) = [] := by
        refine Table.select_eq_nil ?_
        rintro receipt hmem ⟨hcurrency, -, hsince⟩
        have := hs.dated receipt hmem hcurrency
        have := hsince _ rfl
        omega
      have hrefunded : 0 ≤ (s.refundedAmounts policy.budget.currency
          (some (utcMidnight later))).sum := by
        refine List.sum_nonneg fun x hx => ?_
        obtain ⟨refund, -, -, rfl⟩ := Table.mem_select.mp hx
        exact refund.amount.nonneg
      have hcaptured : (s.account policy.budget.currency
          (some (utcMidnight later))).captured = 0 := by
        show (s.captures _ _).sum = 0
        rw [hfresh, List.sum_nil]
      rw [Account.exposure_of_fresh hcaptured hrefunded]
      have hheld := Account.held_le_exposure
        (s.account policy.budget.currency (some (utcMidnight now)))
      show (s.outstanding _).sum ≤ _
      exact le_trans hheld hs.daily

theorem Store.exposure_empty (currency : String) (since : Option Int) :
    (Store.empty.account currency since).exposure = 0 := by
  simp [account, outstanding, captures, refundedAmounts, Store.empty, Account.exposure]

theorem Clocked.Within.empty (policy : LimitPolicy) (unit : ℤ) :
    Clocked.Within policy unit .empty where
  exact :=
    { linked := .empty
      held := fun _ h => absurd h Table.not_mem_empty
      captured := fun _ h => absurd h Table.not_mem_empty
      refunded := fun _ h => absurd h Table.not_mem_empty
      captured_le := (zpow_pos' _).le
      refunded_le := (zpow_pos' _).le }
  prepaid limit _ := by
    rw [Store.exposure_empty]
    exact limit.nonneg

theorem Clocked.WithinDay.empty (policy : LimitPolicy) (now : Int) :
    Clocked.WithinDay policy now .empty where
  dated _ h := absurd h Table.not_mem_empty
  daily := by
    rw [Store.exposure_empty]
    exact policy.budget.nonneg

/-- Over every run whose reservations are made under one policy, in exact amounts, the holds and the
net captures stay within the prepaid balance and, as long as no receipt is dated ahead of the clock's
day, those of the day within the budget. -/
theorem committed_within_limits (crypto : Crypto) (policy : LimitPolicy) (unit : ℤ) (start : Int)
    (events : List ClockedEvent) (hbudget : LimitPolicy.ExactLimit unit policy.budget)
    (hprepaid : ∀ limit ∈ policy.prepaid, LimitPolicy.ExactLimit unit limit)
    (hadm : Admissible (Clocked.step crypto)
      (fun c => ClockedEvent.meets (policy.Admits unit) c) ⟨start, .empty⟩ events) :
    let c := run (Clocked.step crypto) ⟨start, .empty⟩ events
    (Admissible (Clocked.step crypto) (fun c => ClockedEvent.meets policy.Dates c) ⟨start, .empty⟩
        events →
      (c.store.account policy.budget.currency (some (utcMidnight c.now))).exposure ≤
        policy.budget.amount) ∧
      ∀ limit ∈ policy.prepaid,
        (c.store.account policy.budget.currency none).exposure ≤ limit.amount := by
  intro c
  have hstep : ∀ (c : Clocked) (event : ClockedEvent), Clocked.Within policy unit c.store →
      event.meets (policy.Admits unit) c →
      Clocked.Within policy unit (c.step crypto event).store := by
    intro c event hc hevent
    cases event with
    | elapse microseconds => exact hc
    | transact op =>
      exact Store.apply_invariant (fun _ _ h hs => hs.step hprepaid (fun _ hP => hP) h) hevent hc
  refine ⟨fun hdates => ?_, ?_⟩
  · have hboth : ∀ (c : Clocked) (event : ClockedEvent),
        Clocked.Within policy unit c.store ∧ Clocked.WithinDay policy c.now c.store →
        event.meets (policy.Admits unit) c ∧ event.meets policy.Dates c →
        Clocked.Within policy unit (c.step crypto event).store ∧
          Clocked.WithinDay policy (c.step crypto event).now (c.step crypto event).store := by
      rintro c event ⟨hc, hday⟩ ⟨hevent, hdate⟩
      cases event with
      | elapse microseconds =>
        have hle : c.now ≤ c.now + microseconds := by omega
        exact ⟨hc, hday.elapse hle⟩
      | transact op =>
        have hkeeps : ∀ s s', Step (fun s op => policy.Admits unit c.now s op ∧
            policy.Dates c.now s op) s s' →
            Clocked.Within policy unit s ∧ Clocked.WithinDay policy c.now s →
            Clocked.Within policy unit s' ∧ Clocked.WithinDay policy c.now s' :=
          fun s s' h hs => ⟨hs.1.step hprepaid (fun _ hP => hP.1) h,
            hs.2.step hbudget hs.1.exact (fun _ hP => hP.1) (fun _ hP => hP.2) h⟩
        exact Store.apply_invariant hkeeps ⟨hevent, hdate⟩ ⟨hc, hday⟩
    exact (run_invariant_of_admissible hboth ⟨.empty policy unit, .empty policy start⟩
      (hadm.and hdates)).2.daily
  · exact (run_invariant_of_admissible hstep (.empty policy unit) hadm).prepaid

/-- One dollar a day, and no prepaid balance. -/
def dollarPolicy : LimitPolicy := ⟨dollarAction.maximum, none, nofun⟩

/-- An action reserved on the first day and settled by a receipt of a given date. -/
def settledOn (settledAt : Int) : List ClockedEvent :=
  (.importRates :: dollarAction.reserve (some dollarPolicy.budget) none (some 0) ++
    dollarAction.settle (dollarAction.receipt actionCrypto settledAt dollarAction_exact)).map
      .transact

/-- The refund of the settled dollar, dated on the first day, and another action that the day has
room for again. -/
def refundedAndReserved : List ClockedEvent :=
  let refund := dollarAction.refund actionCrypto "refund" dollarAction.maximum
  let second : PaidAction := { dollarAction with name := "second" }
  (.saveRefundReceipt ⟨refund.refundId, refund.settlementId, dollarAction.name, refund.amount, "returned",
      refund.idempotencyKey, 0, ""⟩ ::
    second.reserve (some dollarPolicy.budget) none (some 0)).map .transact

/-- The dollar captured, refunded and reserved again on one day. -/
theorem committed_within_limits_of_action :
    let events := settledOn 0 ++ refundedAndReserved ++ [.elapse 86400000000]
    let c := run (Clocked.step actionCrypto) ⟨0, .empty⟩ events
    (c.store.account "USD" (some (utcMidnight c.now))).exposure ≤ 1 :=
  (committed_within_limits actionCrypto dollarPolicy (-2) 0 _ (by decide +kernel) nofun
    (by decide +kernel)).1 (by decide +kernel)

/-- The same with a receipt dated on the next day: when it comes, the capture counts and its refund
does not. -/
theorem committed_exceeds_limits :
    let events := settledOn day ++ refundedAndReserved ++ [.elapse 86400000000]
    let c := run (Clocked.step actionCrypto) ⟨0, .empty⟩ events
    Admissible (Clocked.step actionCrypto)
      (ClockedEvent.meets fun now _ => dollarPolicy.Budgets now) ⟨0, .empty⟩ events ∧
    ¬ (c.store.account "USD" (some (utcMidnight c.now))).exposure ≤ dollarPolicy.budget.amount := by
  decide +kernel

end Runs

end AeepRouter

import AeepRouter.Base

/-!
# Refunds of the prepaid balance

`BudgetManager.refund` of the first payment interface, with a `PrepaidBalanceAdapter`; the balance is
`none` for the adapter that keeps none. Amounts are exact. The adapter compares a refund with the
capture alone; that earlier refunds are not counted shows once they add up to more.
-/

namespace AeepRouter.Prepaid

open Lib

/-! ## Records -/

structure PaymentCapture where
  captureId : String
  reservationId : String
  amountUsd : ℚ
  /-- `metadata["action_id"]`. -/
  actionId : Option String
  nonneg : 0 ≤ amountUsd

structure PaymentRefund where
  refundId : String
  captureId : String
  amountUsd : ℚ
  deriving DecidableEq

/-- An event of type `refund`; the capture is in its metadata. -/
structure LedgerEvent where
  amountUsd : ℚ
  actionId : String
  referenceId : String
  captureId : String
  deriving DecidableEq

/-- The payment objects and refund events of the store, and the balance of the adapter. -/
structure Account where
  captures : Table PaymentCapture (·.captureId)
  refunds : Table PaymentRefund (·.refundId)
  events : List LedgerEvent
  balance : Option ℚ

structure RefundCall where
  captureId : String
  amountUsd : ℚ
  refundId : String

/-! ## Calls -/

/-- `PrepaidBalanceAdapter.refund`: the balance has grown before a negative amount is refused. -/
def adapterRefund (capture : PaymentCapture) (call : RefundCall) (s : Account) :
    Result PaymentRefund × Account :=
  if capture.amountUsd < call.amountUsd then
    (.error (.configuration "refund exceeds captured amount"), s)
  else
    let paid := { s with balance := s.balance.map (· + call.amountUsd) }
    if call.amountUsd < 0 then
      (.error (.value "Input should be greater than or equal to 0"), paid)
    else (.ok ⟨call.refundId, capture.captureId, call.amountUsd⟩, paid)

/-- `save_payment_object` and `save_ledger_event`. -/
def record (capture : PaymentCapture) (refund : PaymentRefund) (s : Account) : Account :=
  { s with
    refunds := s.refunds.put refund
    events := ⟨refund.amountUsd, capture.actionId.getD "unknown", refund.refundId,
      capture.captureId⟩ :: s.events }

def refund (call : RefundCall) (s : Account) : Result PaymentRefund × Account :=
  match s.captures.find? call.captureId with
  | none => (.error (.configuration "payment capture is unavailable"), s)
  | some capture =>
    match adapterRefund capture call s with
    | (.error e, s) => (.error e, s)
    | (.ok refund, s) => (.ok refund, record capture refund s)

def step (s : Account) (call : RefundCall) : Account := (refund call s).2

def refunded (captureId : String) (s : Account) : ℚ :=
  ((s.events.filter (·.captureId = captureId)).map (·.amountUsd)).sum

def spent (s : Account) : ℚ :=
  s.captures.sumBy fun capture => capture.amountUsd - refunded capture.captureId s

/-- A refund the adapter would pay is within what is left of the capture. -/
def Covered (s : Account) (call : RefundCall) : Prop :=
  ∀ capture ∈ s.captures, capture.captureId = call.captureId →
    0 ≤ call.amountUsd → call.amountUsd ≤ capture.amountUsd →
      refunded capture.captureId s + call.amountUsd ≤ capture.amountUsd

/-! ## What a call does -/

/-- A call records nothing and raises no balance, or it records and pays a refund. -/
theorem step_cases (s : Account) (call : RefundCall) :
    ((step s call).captures = s.captures ∧ (step s call).events = s.events ∧
      ∃ paid ≤ 0, (step s call).balance = s.balance.map (· + paid)) ∨
    ∃ capture ∈ s.captures, capture.captureId = call.captureId ∧
      0 ≤ call.amountUsd ∧ call.amountUsd ≤ capture.amountUsd ∧
      (step s call).captures = s.captures ∧
      (step s call).events = ⟨call.amountUsd, capture.actionId.getD "unknown", call.refundId,
        capture.captureId⟩ :: s.events ∧
      (step s call).balance = s.balance.map (· + call.amountUsd) := by
  unfold step refund
  cases hfind : s.captures.find? call.captureId with
  | none => exact .inl ⟨rfl, rfl, 0, le_rfl, by simp⟩
  | some capture =>
    by_cases hexceeds : capture.amountUsd < call.amountUsd
    · exact .inl ⟨by simp [adapterRefund, hexceeds], by simp [adapterRefund, hexceeds], 0, le_rfl,
        by simp [adapterRefund, hexceeds]⟩
    by_cases hnegative : call.amountUsd < 0
    · -- a negative amount is taken off the balance, then refused
      exact .inl ⟨by simp [adapterRefund, hexceeds, hnegative],
        by simp [adapterRefund, hexceeds, hnegative], call.amountUsd, hnegative.le,
        by simp [adapterRefund, hexceeds, hnegative]⟩
    · refine .inr ⟨capture, Table.mem_of_find? hfind, Table.key_of_find? hfind,
        not_lt.mp hnegative, not_lt.mp hexceeds, ?_⟩
      simp [adapterRefund, hexceeds, hnegative, record]

def Bounded (s : Account) : Prop :=
  ∀ capture ∈ s.captures, refunded capture.captureId s ≤ capture.amountUsd

/-- What the balance is at most, everything spent being refunded. -/
def Funded (balance : ℚ) (s : Account) : Prop :=
  ∃ left, s.balance = some left ∧ left + spent s ≤ balance

section Step

variable {s : Account} {call : RefundCall} {capture : PaymentCapture} {event : LedgerEvent}

theorem refunded_of_recorded (hevents : (step s call).events = event :: s.events)
    (captureId : String) : refunded captureId (step s call) =
      (if event.captureId = captureId then event.amountUsd else 0) + refunded captureId s := by
  unfold refunded
  rw [hevents]
  by_cases h : event.captureId = captureId <;> simp [h]

theorem spent_of_recorded (hcapture : capture ∈ s.captures) (hid : event.captureId = capture.captureId)
    (hcaptures : (step s call).captures = s.captures)
    (hevents : (step s call).events = event :: s.events) :
    spent (step s call) + event.amountUsd = spent s := by
  have hedit : spent (step s call) + (capture.amountUsd - refunded capture.captureId s) =
      spent s + (capture.amountUsd - refunded capture.captureId (step s call)) := by
    rw [spent, hcaptures]
    refine @Table.sumBy_edit _ _ _ ℚ _ _ _ hcapture
      (fun other => other.amountUsd - refunded other.captureId s)
      (fun other => other.amountUsd - refunded other.captureId (step s call)) fun other _ hother => ?_
    rw [refunded_of_recorded hevents, hid, if_neg (Ne.symm hother), zero_add]
  rw [refunded_of_recorded hevents, if_pos hid] at hedit
  linarith

theorem spent_of_unchanged (hcaptures : (step s call).captures = s.captures)
    (hevents : (step s call).events = s.events) : spent (step s call) = spent s := by
  simp only [spent, refunded, hcaptures, hevents]

end Step

theorem Bounded.step (s : Account) (call : RefundCall) (h : Bounded s) (hcovered : Covered s call) :
    Bounded (step s call) := by
  intro c hc
  rcases step_cases s call with ⟨hcaptures, hevents, -⟩ | ⟨capture, hcapture, hid, hpos, hle,
    hcaptures, hevents, -⟩
  · rw [refunded, hevents]
    exact h c (hcaptures ▸ hc)
  · rw [hcaptures] at hc
    rw [refunded_of_recorded hevents]
    by_cases hsame : capture.captureId = c.captureId
    · obtain rfl := Table.eq_of_key_eq hcapture hc hsame
      rw [if_pos rfl, add_comm]
      exact hcovered capture hcapture hid hpos hle
    · rw [if_neg hsame, zero_add]
      exact h c hc

/-- No call raises the balance by more than it takes off what is spent. -/
theorem Funded.step {balance : ℚ} (s : Account) (call : RefundCall) (h : Funded balance s) :
    Funded balance (step s call) := by
  obtain ⟨left, hleft, hle⟩ := h
  rcases step_cases s call with ⟨hcaptures, hevents, paid, hpaid, hbalance⟩ | ⟨capture, hcapture, -,
    -, -, hcaptures, hevents, hbalance⟩
  · refine ⟨left + paid, by rw [hbalance, hleft]; rfl, ?_⟩
    rw [spent_of_unchanged hcaptures hevents]
    linarith
  · refine ⟨left + call.amountUsd, by rw [hbalance, hleft]; rfl, ?_⟩
    have hspent := spent_of_recorded hcapture rfl hcaptures hevents
    linarith

theorem Bounded.spent_nonneg {s : Account} (h : Bounded s) : 0 ≤ spent s :=
  Table.sumBy_nonneg fun capture hcapture => sub_nonneg.mpr (h capture hcapture)

/-- No capture is refunded past its amount, and no more than what was spent is back on the balance. -/
structure Within (before after : Account) : Prop where
  bounded : Bounded after
  balance : ∀ balance, before.balance = some balance →
    ∃ left, after.balance = some left ∧ left ≤ balance + spent before

/-- An account with one capture of two dollars. -/
def captured : Account :=
  ⟨(∅ : Table _ _).put ⟨"capture", "reserve", (2 : ℕ), some "action", Nat.cast_nonneg _⟩, ∅, [],
    some 0⟩

theorem captured_bounded : Bounded captured := fun capture _ => by
  simpa [refunded, captured] using capture.nonneg

end AeepRouter.Prepaid

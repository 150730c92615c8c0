import AeepRouter.Router.Charges
import AeepRouter.Store.Machine

/-!
# Recovery charges what the execution would have charged

A recovery has the receipt and the verified statement of the execution and nothing else. Over a
quote the two cascades agree on these, unless the execution refused a statement it had kept, because
the accounting of the executor has other evidence of its id. Over an offer or a rate card they part:
the execution refuses every usage payload, valid or not, and keeps none, and the recovery charges by
the receipt alone.
-/

namespace AeepRouter.Router

open Lib

variable {x : Execution} {checker : Checker} {basis : Result Unit} {amount : CurrencyAmount}

theorem provider_started_eq (policy : BillingPolicy) (s : UsageStatement) :
    (decide (policy.billingTrigger = .onAttempt) || s.startedAt.isSome ||
        decide (s.executionStatus = .success)) =
      if policy.billingTrigger = .onAttempt then true
      else s.startedAt.isSome || decide (s.executionStatus = .success) := by
  split
  · next h => simp [h]
  · next h => simp [h]

theorem Execution.refused_of_fixed (hfixed : x.authorization.fixed) (hused : x.usage.isSome) :
    ∃ e, x.keptStatement = .error e := by
  obtain ⟨payload, hpayload⟩ := Option.isSome_iff_exists.mp hused
  unfold Execution.keptStatement
  rw [hpayload]
  cases payload with
  | malformed => exact ⟨_, rfl⟩
  | statement s =>
    have hverify : ∃ e, x.verifyUsageStatement x.checker x.receipt s = .error e := by
      unfold Action.verifyUsageStatement
      cases hauth : x.authorization with
      | signedQuote => rw [hauth] at hfixed; cases hfixed
      | publishedOffer => exact ⟨_, rfl⟩
      | pinnedRateCard => exact ⟨_, rfl⟩
    obtain ⟨e, he⟩ := hverify
    refine ⟨e, ?_⟩
    show (x.verifyUsageStatement x.checker x.receipt s >>= _) = _
    rw [he]
    rfl

theorem Execution.usageStatement_of_refused {e : Err} (h : x.keptStatement = .error e) :
    x.usageStatement = .error e := by
  unfold Execution.usageStatement Execution.usageAccounted
  rw [h]
  rfl

theorem Execution.usageAccounted_of_unused (hunused : x.usage = none) :
    x.usageAccounted = .ok (none, x.receipt.cash) := by
  unfold Execution.usageAccounted Execution.keptStatement
  rw [hunused]
  rfl

/-! ## The accounting of a statement -/

theorem UsageStatement.component_ok (s : UsageStatement) (chargeId : String) :
    ∃ component, s.component chargeId = .ok component ∧
      component.evidence.evidenceId = some s.usageStatementId := by
  unfold UsageStatement.component
  cases s.providerCalculatedAmount with
  | none => exact ⟨_, rfl, rfl⟩
  | some claimed =>
    exact ⟨_, CashReport.Component.make_ok claimed.nonneg (by simp)
      (by simp [CashReport.economicEvidence]), rfl⟩

theorem Execution.accounting_refused {s : UsageStatement} :
    (∃ e, cashAccountingFromUsageStatement s x.chargeId x.receipt.cash = .error e) ↔
      x.Contradicted s := by
  obtain ⟨component, hcomponent, hid⟩ := s.component_ok x.chargeId
  unfold cashAccountingFromUsageStatement Execution.Contradicted
  rw [hcomponent]
  simp only [Except.ok.injEq, ne_eq, eq_comm (a := component)]
  exact CashReport.mergeCash_refused hid

/-! ## The saved receipt -/

theorem Execution.savedReceipt_eq (x : Execution) :
    ∃ cash, x.savedReceipt = x.receipt.accounted cash := by
  unfold Execution.savedReceipt
  cases x.usageAccounted with
  | error e => exact ⟨x.receipt.cash, rfl⟩
  | ok found => exact ⟨found.2, rfl⟩

theorem Execution.savedReceipt_of_fixed (hfixed : x.authorization.fixed) :
    x.savedReceipt = x.receipt := by
  unfold Execution.savedReceipt
  cases hused : x.usage with
  | none =>
    rw [x.usageAccounted_of_unused hused]
    rfl
  | some payload =>
    obtain ⟨e, he⟩ := Execution.refused_of_fixed hfixed (by rw [hused]; rfl)
    unfold Execution.usageAccounted
    rw [he]
    rfl

/-! ## Quotes -/

theorem Execution.quoteVerdict_of_recovery {quote : BoundedQuote} {policy : BillingPolicy}
    {fee : Option CurrencyAmount} {s : UsageStatement} :
    (x.recovery checker basis).quoteVerdict quote policy fee s = .charge amount ↔
      providerStatusConsistent x.receipt.status s.executionStatus ∧
        x.verifyUsageStatement checker x.receipt s = .ok () ∧
        x.quoteVerdict quote policy fee (some s) = .charge amount := by
  obtain ⟨cash, hcash⟩ := x.savedReceipt_eq
  have hreceipt : (x.recovery checker basis).receipt = x.receipt.accounted cash := hcash
  have hverify : (x.recovery checker basis).verifyUsageStatement (x.recovery checker basis).checker
      (x.receipt.accounted cash) s = x.verifyUsageStatement checker x.receipt s := rfl
  unfold Recovery.quoteVerdict
  rw [hreceipt, hverify, LocalReceipt.accounted_status, LocalReceipt.accounted_schemaValid,
    LocalReceipt.accounted_taskValid]
  by_cases hconsistent : providerStatusConsistent x.receipt.status s.executionStatus
  · rw [if_neg (not_not.mpr hconsistent), and_iff_right hconsistent]
    cases x.verifyUsageStatement checker x.receipt s with
    | error e => simp
    | ok =>
      refine Iff.trans ?_ (and_iff_right rfl).symm
      simp only [Execution.quoteVerdict, pure, Except.pure, reduceCtorEq, and_false, if_false]
      rw [provider_started_eq]
      split
      · simp
      · -- the receipt has one validity of its output, whichever field is read
        have hvalid : x.receipt.schemaValid = x.receipt.outputValid := rfl
        simp only [hvalid]
        split
        · next hamount =>
          rw [hamount]
          simp
        · next hnone =>
          refine iff_of_false (fun h => nomatch h) ?_
          split
          · exact fun h => nomatch h
          · next billed hbilled =>
            cases billed with
            | none => exact fun h => nomatch h
            | some a => exact absurd hbilled (hnone a)
  · rw [if_pos hconsistent]
    simp [hconsistent]

theorem Execution.recovery_statement (x : Execution) (checker : Checker) (basis : Result Unit) :
    (x.recovery checker basis).statement = match x.keptStatement with
      | .ok statement => statement
      | .error _ => none := by
  unfold Recovery.statement Execution.recovery Execution.stored
  cases x.keptStatement with
  | error e => rfl
  | ok statement => cases statement <;> rfl

theorem Recovery.verdict_of_quote {quote : BoundedQuote} {policy : BillingPolicy}
    {fee : Option CurrencyAmount} (hauth : x.authorization = .signedQuote quote policy fee) :
    (x.recovery checker basis).verdict = .charge amount ↔
      ∃ s, x.keptStatement = .ok (some s) ∧
        (x.recovery checker basis).quoteVerdict quote policy fee s = .charge amount := by
  have hr : (x.recovery checker basis).authorization = .signedQuote quote policy fee := hauth
  unfold Recovery.verdict
  rw [hr, x.recovery_statement]
  cases x.keptStatement with
  | error e => simp
  | ok statement => cases statement <;> simp

theorem Execution.verified_of_kept {s : UsageStatement} (h : x.keptStatement = .ok (some s)) :
    x.verifyUsageStatement x.checker x.receipt s = .ok () := by
  unfold Execution.keptStatement at h
  split at h
  · cases h
  · cases h
  · simp only [bind_ok, pure_ok, Option.some_inj] at h
    obtain ⟨_, hverified, _, -, rfl⟩ := h
    exact hverified

theorem Execution.usageStatement_of_kept {s : UsageStatement} (h : x.keptStatement = .ok (some s)) :
    (x.Contradicted s ∧ ∃ e, x.usageStatement = .error e) ∨
      ¬ x.Contradicted s ∧ x.usageStatement = .ok (some s) := by
  have hstatement : x.usageStatement =
      (cashAccountingFromUsageStatement s x.chargeId x.receipt.cash).map fun _ => some s := by
    unfold Execution.usageStatement Execution.usageAccounted
    rw [h]
    change Except.map _ (cashAccountingFromUsageStatement s x.chargeId x.receipt.cash >>= _) = _
    cases cashAccountingFromUsageStatement s x.chargeId x.receipt.cash <;> rfl
  rw [hstatement, ← Execution.accounting_refused]
  cases cashAccountingFromUsageStatement s x.chargeId x.receipt.cash with
  | error e => exact .inl ⟨⟨e, rfl⟩, e, rfl⟩
  | ok cash => exact .inr ⟨by simp, rfl⟩

/-! ## Offers and rate cards -/

/-- What an offer or a rate card charges for the receipt alone. -/
def Execution.fixedAmount (x : Execution) : Result (Option CurrencyAmount) :=
  { x.recovery x.checker (.ok ()) with receipt := x.receipt : Recovery }.fixedAmount

theorem Recovery.verdict_of_fixed (hfixed : x.authorization.fixed) :
    (x.recovery checker basis).verdict = .charge amount ↔
      basis = .ok () ∧ x.fixedAmount = .ok (some amount) := by
  have hauth : (x.recovery checker basis).authorization = x.authorization := rfl
  have hamount : (x.recovery checker basis).fixedAmount = x.fixedAmount := by
    unfold Execution.fixedAmount Recovery.fixedAmount Execution.recovery
    rw [Execution.savedReceipt_of_fixed hfixed]
  have hbasis : (x.recovery checker basis).basis = basis := rfl
  unfold Recovery.verdict
  cases h : x.authorization with
  | signedQuote => rw [h] at hfixed; cases hfixed
  | publishedOffer offer policy =>
    rw [hauth, h, hbasis, hamount]
    cases basis <;> cases x.fixedAmount with
    | error e => simp
    | ok found => cases found <;> simp
  | pinnedRateCard snapshot =>
    rw [hauth, h, hbasis, hamount]
    cases basis <;> cases x.fixedAmount with
    | error e => simp
    | ok found => cases found <;> simp

/-- Without a usage payload, an offer or a rate card charges by the receipt. -/
theorem Execution.verdict_of_fixed (hfixed : x.authorization.fixed) (hunused : x.usage = none)
    (h : x.fixedAmount = .ok (some amount)) : x.verdict = .charge amount := by
  have hstatement : x.usageStatement = .ok none := by
    unfold Execution.usageStatement
    rw [Execution.usageAccounted_of_unused hunused]
    rfl
  unfold Execution.verdict
  rw [hstatement]
  show x.verdictOf none = _
  unfold Execution.fixedAmount Recovery.fixedAmount Execution.recovery at h
  simp only [Execution.verdictOf, Option.mem_def, reduceCtorEq, false_and, exists_false, if_false,
    true_and, if_true]
  cases hauth : x.authorization with
  | signedQuote => rw [hauth] at hfixed; cases hfixed
  | publishedOffer offer policy =>
    simp only [hauth] at h ⊢
    rw [h]
  | pinnedRateCard snapshot =>
    simp only [hauth, pure_ok] at h ⊢
    rw [h]

/-! ## Recoveries -/

/-- Usage evidence that the execution refuses and a recovery charges in spite of: the statement of a
quote that was kept and is contradicted, and any payload of an offer or a rate card. -/
def Execution.Overlooked (x : Execution) : Prop :=
  match x.authorization with
  | .signedQuote quote policy fee =>
    ∃ s, x.keptStatement = .ok (some s) ∧ x.Contradicted s ∧
      providerStatusConsistent x.receipt.status s.executionStatus ∧
      ∃ amount, x.quoteVerdict quote policy fee (some s) = .charge amount
  | _ => x.usage.isSome ∧ ∃ amount, x.fixedAmount = .ok (some amount)

theorem Execution.not_charged_of_refused {e : Err} (h : x.usageStatement = .error e) :
    x.verdict ≠ .charge amount := by
  unfold Execution.verdict
  rw [h]
  exact fun h => nomatch h

theorem Execution.verdict_of_quote {quote : BoundedQuote} {policy : BillingPolicy}
    {fee : Option CurrencyAmount} (hauth : x.authorization = .signedQuote quote policy fee) :
    (∀ checker basis amount, (x.recovery checker basis).verdict = .charge amount →
      x.verdict = .charge amount) ↔ ¬ x.Overlooked := by
  unfold Execution.Overlooked
  rw [hauth]
  constructor
  · rintro h ⟨s, hkept, hcontradicted, hconsistent, amount, hcharge⟩
    have hrecovered : (x.recovery x.checker (.ok ())).verdict = .charge amount :=
      (Recovery.verdict_of_quote hauth).mpr ⟨s, hkept, Execution.quoteVerdict_of_recovery.mpr
        ⟨hconsistent, Execution.verified_of_kept hkept, hcharge⟩⟩
    obtain ⟨-, e, he⟩ := (Execution.usageStatement_of_kept hkept).resolve_right fun hno =>
      hno.1 hcontradicted
    exact Execution.not_charged_of_refused he (h _ _ _ hrecovered)
  · intro h checker basis amount hrecovered
    obtain ⟨s, hkept, hquote⟩ := (Recovery.verdict_of_quote hauth).mp hrecovered
    obtain ⟨hconsistent, -, hcharge⟩ := Execution.quoteVerdict_of_recovery.mp hquote
    rcases Execution.usageStatement_of_kept hkept with ⟨hcontradicted, -⟩ | ⟨-, hstatement⟩
    · exact absurd ⟨s, hkept, hcontradicted, hconsistent, amount, hcharge⟩ h
    · unfold Execution.verdict
      rw [hstatement]
      simp only [Execution.verdictOf, hauth]
      rw [if_neg]
      · exact hcharge
      · rintro ⟨t, ht, hnot⟩
        cases ht
        exact hnot hconsistent

theorem Execution.verdict_of_receipt (hfixed : x.authorization.fixed) :
    (∀ checker basis amount, (x.recovery checker basis).verdict = .charge amount →
      x.verdict = .charge amount) ↔
    ¬ (x.usage.isSome ∧ ∃ amount, x.fixedAmount = .ok (some amount)) := by
  constructor
  · rintro h ⟨hused, amount, hamount⟩
    have hrecovered : (x.recovery x.checker (.ok ())).verdict = .charge amount :=
      (Recovery.verdict_of_fixed hfixed).mpr ⟨rfl, hamount⟩
    obtain ⟨e, he⟩ := Execution.refused_of_fixed hfixed hused
    exact Execution.not_charged_of_refused (Execution.usageStatement_of_refused he)
      (h _ _ _ hrecovered)
  · intro h checker basis amount hrecovered
    obtain ⟨-, hamount⟩ := (Recovery.verdict_of_fixed hfixed).mp hrecovered
    cases hused : x.usage with
    | none => exact Execution.verdict_of_fixed hfixed hused hamount
    | some payload => exact absurd ⟨by rw [hused]; rfl, amount, hamount⟩ h

/-- Every recovery of an execution, at whatever time and with whatever trust store, charges what the
execution charged or nothing, exactly unless it overlooks usage evidence that was refused. -/
theorem recovery_charges_as_executed (x : Execution) :
    (∀ checker basis amount, (x.recovery checker basis).verdict = .charge amount →
      x.verdict = .charge amount) ↔ ¬ x.Overlooked := by
  cases hauth : x.authorization with
  | signedQuote quote policy fee => exact Execution.verdict_of_quote hauth
  | publishedOffer offer policy =>
    unfold Execution.Overlooked
    rw [hauth]
    exact Execution.verdict_of_receipt (by rw [hauth]; rfl)
  | pinnedRateCard snapshot =>
    unfold Execution.Overlooked
    rw [hauth]
    exact Execution.verdict_of_receipt (by rw [hauth]; rfl)

def malformedUsage : Execution where
  prepared := dollarAction.decision
  createdAt := 0
  authorization := .pinnedRateCard unitRates
  attemptId := "action"
  chargeId := "charge"
  others := []
  raw := ⟨.success, some true, some true, ⟨.unavailable, []⟩, "text.summary", "executor", 0, 1⟩
  usage := some .malformed
  checker := ⟨1, 0, none, none⟩

/-- The execution holds the decision for its usage evidence; its recovery charges the maximum. -/
theorem recovered_after_malformed_usage :
    (∃ e, malformedUsage.verdict = .refused e) ∧
    (malformedUsage.recovery malformedUsage.checker (.ok ())).verdict =
      .charge dollarAction.maximum ∧
    ¬ ∀ checker basis amount, (malformedUsage.recovery checker basis).verdict = .charge amount →
      malformedUsage.verdict = .charge amount := by
  have hcharge : (malformedUsage.recovery malformedUsage.checker (.ok ())).verdict =
      .charge dollarAction.maximum := by decide +kernel
  refine ⟨⟨_, rfl⟩, hcharge, fun h => ?_⟩
  have hno := h _ _ _ hcharge
  cases hno

def dollarQuote : BoundedQuote :=
  ⟨"quote", "provider", "text.summary", "executor", PaidAction.fingerprint, PaidAction.fingerprint,
    dollarAction.maximum, 0, 10, ⟨.ed25519, "key", "", .jcs⟩, ""⟩

def dollarUsed : UsageStatement :=
  ⟨"usage", "quote", "action", "action", "action", "provider", "executor", PaidAction.fingerprint,
    .success, some dollarAction.maximum, none, none, 1, ""⟩

/-- An execution whose executor has accounted for the statement as verified already. -/
def contradictedUsage : Execution where
  prepared := { dollarAction.decision with basis := some ⟨.signedQuote, "quote"⟩ }
  createdAt := 0
  authorization := .signedQuote dollarQuote ⟨.onSuccess, .noCharge, .eachAttempt⟩ none
  attemptId := "action"
  chargeId := "charge"
  others := []
  raw := ⟨.success, some true, some true,
    ⟨.complete, [⟨⟨"fee", some 1, "USD", .verified, ""⟩,
      ⟨.complete, .providerReport, .verified, "usage", none, none, none,
        Evidence.consistent_provided⟩, none⟩]⟩, "text.summary", "executor", 0, 1⟩
  usage := some (.statement dollarUsed)
  checker := ⟨1, 0, none, some fun _ _ => true⟩

/-- The statement is refused after it was kept, and a recovery charges by it. -/
example : (contradictedUsage.verdict matches .refused _) ∧
    (contradictedUsage.recovery contradictedUsage.checker (.ok ())).verdict =
      .charge dollarAction.maximum := by decide +kernel

end AeepRouter.Router

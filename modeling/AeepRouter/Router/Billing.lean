import AeepRouter.Router.Charges

/-!
# Signed billing terms

`billable_amount_for_terms` accepts its amounts first and then comes to a charge by a cascade of
early returns. `resolve` is that cascade; what it may come to is read off its branches.
-/

namespace AeepRouter

open Lib

def CurrencyAmount.CoveredBy (a maximum : CurrencyAmount) : Prop :=
  a.currency = maximum.currency ∧ a.amount ≤ maximum.amount

namespace Router

section Terms

variable (policy : BillingPolicy) (maximum : CurrencyAmount)
  (fixedAuthorized fixedAttemptFee : Option CurrencyAmount) (seen : Observed)

/-- The arguments pass the checks. -/
structure Accepted : Prop where
  attempt : 1 ≤ seen.attemptNumber
  usage : ∀ a ∈ seen.actualUsageAmount, a.CoveredBy maximum
  fixed : ∀ a ∈ fixedAuthorized, a.CoveredBy maximum
  fee : ∀ a ∈ fixedAttemptFee, a.CoveredBy maximum

abbrev BillingPolicy.earned : Prop :=
  ¬ policy.triggerFailed seen ∧ seen.executionStatus = .success

/-- The charge of accepted arguments. -/
def BillingPolicy.resolve : Option CurrencyAmount :=
  if seen.executionStatus = .indeterminate then none
  else if policy.retryChargePolicy = .manualReconciliation then none
  else if policy.retryChargePolicy = .firstAttemptOnly ∧ 1 < seen.attemptNumber then
    some (zeroAmount maximum.currency)
  else if policy.retryChargePolicy = .successfulAttemptOnly ∧ ¬ seen.executionStatus = .success then
    some (zeroAmount maximum.currency)
  else if policy.billingTrigger = .manualReconciliation then none
  else if policy.billingTrigger = .onProviderStart ∧ ¬ seen.providerStarted then
    some (zeroAmount maximum.currency)
  else if policy.earned seen then
    (fixedAuthorized.or seen.actualUsageAmount).or
      (if maximum.amount = 0 then some (zeroAmount maximum.currency) else none)
  else
    match policy.failureChargePolicy with
    | .noCharge => some (zeroAmount maximum.currency)
    | .chargeActualUsage => seen.actualUsageAmount
    | .chargeFixedAttemptFee => fixedAttemptFee
    | .chargeMaximum => some maximum
    | .manualReconciliation => none

/-- The amount the terms name: for an earned charge the fixed amount, or the usage when none is
fixed, and otherwise what the failure policy says. -/
def BillingPolicy.Names (amount : CurrencyAmount) : Prop :=
  if policy.earned seen then
    fixedAuthorized = some amount ∨ fixedAuthorized = none ∧ seen.actualUsageAmount = some amount
  else
    match policy.failureChargePolicy with
    | .noCharge | .manualReconciliation => False
    | .chargeActualUsage => seen.actualUsageAmount = some amount
    | .chargeFixedAttemptFee => fixedAttemptFee = some amount
    | .chargeMaximum => amount = maximum

end Terms

section Charge

variable {policy : BillingPolicy} {maximum : CurrencyAmount}
  {fixedAuthorized fixedAttemptFee : Option CurrencyAmount} {seen : Observed}
  {charge : Option CurrencyAmount} {a : CurrencyAmount}

theorem billableAmountForTerms_ok :
    billableAmountForTerms policy maximum fixedAuthorized fixedAttemptFee seen = .ok charge ↔
      Accepted maximum fixedAuthorized fixedAttemptFee seen ∧
        policy.resolve maximum fixedAuthorized fixedAttemptFee seen = charge := by
  have hcover : ∀ amount : Option CurrencyAmount,
      ((¬ ∃ a ∈ amount, a.currency ≠ maximum.currency) ∧
        ¬ ∃ a ∈ amount, maximum.amount < a.amount) ↔ ∀ a ∈ amount, a.CoveredBy maximum := by
    intro amount
    cases amount <;> simp [CurrencyAmount.CoveredBy]
  have hchecks : Accepted maximum fixedAuthorized fixedAttemptFee seen ↔
      ¬ seen.attemptNumber < 1 ∧
        ∀ amount ∈ [seen.actualUsageAmount, fixedAuthorized, fixedAttemptFee],
          (¬ ∃ a ∈ amount, a.currency ≠ maximum.currency) ∧
            ¬ ∃ a ∈ amount, maximum.amount < a.amount := by
    simp only [hcover, List.forall_mem_cons, not_lt]
    exact ⟨fun h => ⟨h.attempt, h.usage, h.fixed, h.fee, List.forall_mem_nil _⟩,
      fun ⟨h1, h2, h3, h4, _⟩ => ⟨h1, h2, h3, h4⟩⟩
  rw [hchecks, and_assoc]
  unfold billableAmountForTerms BillingPolicy.resolve
  simp only [bind_ok, raiseIf_ok, forM_ok, exists_const]
  refine and_congr_right fun _ => and_congr_right fun _ => ?_
  split_ifs
  all_goals try exact pure_ok
  generalize policy.failureChargePolicy = failure
  cases failure <;> exact pure_ok

theorem zeroAmount_coveredBy (maximum : CurrencyAmount) :
    (zeroAmount maximum.currency).CoveredBy maximum :=
  ⟨rfl, maximum.nonneg⟩

theorem resolve_coveredBy (h : Accepted maximum fixedAuthorized fixedAttemptFee seen)
    (ha : a ∈ policy.resolve maximum fixedAuthorized fixedAttemptFee seen) :
    a.CoveredBy maximum := by
  have hzero : ∀ b ∈ some (zeroAmount maximum.currency), b.CoveredBy maximum := by
    rintro b ⟨⟩
    exact zeroAmount_coveredBy maximum
  have hnone : ∀ b ∈ (none : Option CurrencyAmount), b.CoveredBy maximum := by simp
  revert a
  change ∀ a ∈ policy.resolve maximum fixedAuthorized fixedAttemptFee seen, a.CoveredBy maximum
  unfold BillingPolicy.resolve
  split_ifs
  · exact hnone
  · exact hnone
  · exact hzero
  · exact hzero
  · exact hnone
  · exact hzero
  · rintro b hb
    rcases Option.or_eq_some_iff.mp hb with hb | ⟨-, hb⟩
    · rcases Option.or_eq_some_iff.mp hb with hb | ⟨-, hb⟩
      · exact h.fixed b hb
      · exact h.usage b hb
    · exact hzero b hb
  · rintro b hb
    rcases Option.or_eq_some_iff.mp hb with hb | ⟨-, hb⟩
    · rcases Option.or_eq_some_iff.mp hb with hb | ⟨-, hb⟩
      · exact h.fixed b hb
      · exact h.usage b hb
    · exact hnone b hb
  · cases policy.failureChargePolicy with
    | noCharge => exact hzero
    | chargeActualUsage => exact h.usage
    | chargeFixedAttemptFee => exact h.fee
    | chargeMaximum =>
      rintro b ⟨⟩
      exact ⟨rfl, le_rfl⟩
    | manualReconciliation => exact hnone

theorem resolve_of_indeterminate (h : seen.executionStatus = .indeterminate) :
    policy.resolve maximum fixedAuthorized fixedAttemptFee seen = none := if_pos h

theorem resolve_of_failure (hstatus : seen.executionStatus ≠ .success)
    (hfree : policy.retryChargePolicy = .successfulAttemptOnly ∨
      policy.failureChargePolicy = .noCharge)
    (ha : a ∈ policy.resolve maximum fixedAuthorized fixedAttemptFee seen) : a.amount = 0 := by
  have hearned : ¬ policy.earned seen := fun h => hstatus h.2
  unfold BillingPolicy.resolve at ha
  rw [if_neg hearned] at ha
  split_ifs at ha with _ _ _ hsuccess
  · cases ha
  · cases ha
  · cases ha
    rfl
  · cases ha
    rfl
  · cases ha
  · cases ha
    rfl
  · obtain hretry | hfailure := hfree
    · exact absurd ⟨hretry, hstatus⟩ hsuccess
    · rw [hfailure] at ha
      cases ha
      rfl

theorem resolve_of_later_attempt (hpolicy : policy.retryChargePolicy = .firstAttemptOnly)
    (hlater : 1 < seen.attemptNumber)
    (ha : a ∈ policy.resolve maximum fixedAuthorized fixedAttemptFee seen) : a.amount = 0 := by
  unfold BillingPolicy.resolve at ha
  rw [if_pos (⟨hpolicy, hlater⟩ : policy.retryChargePolicy = .firstAttemptOnly ∧ _)] at ha
  split_ifs at ha
  · cases ha
  · cases ha
  · cases ha
    rfl

/-- What is charged, if anything, the terms name. -/
theorem resolve_names (ha : a ∈ policy.resolve maximum fixedAuthorized fixedAttemptFee seen)
    (hpos : 0 < a.amount) :
    policy.Names maximum fixedAuthorized fixedAttemptFee seen a := by
  have hzero : a ∉ some (zeroAmount maximum.currency) := by
    rintro ⟨⟩
    exact lt_irrefl _ hpos
  unfold BillingPolicy.resolve at ha
  unfold BillingPolicy.Names
  have hpaid {free : Option CurrencyAmount} (hfree : a ∉ free)
      (ha : a ∈ (fixedAuthorized.or seen.actualUsageAmount).or free) :
      fixedAuthorized = some a ∨ fixedAuthorized = none ∧ seen.actualUsageAmount = some a := by
    rcases Option.or_eq_some_iff.mp ha with ha | ⟨-, ha⟩
    · exact Option.or_eq_some_iff.mp ha
    · exact absurd ha hfree
  split_ifs at ha with _ _ _ _ _ _ hearned
  · cases ha
  · cases ha
  · exact absurd ha hzero
  · exact absurd ha hzero
  · cases ha
  · exact absurd ha hzero
  · rw [if_pos hearned]
    exact hpaid hzero ha
  · rw [if_pos hearned]
    exact hpaid (Option.not_mem_none a) ha
  · rw [if_neg hearned]
    cases hfailure : policy.failureChargePolicy with
    | noCharge =>
      rw [hfailure] at ha
      exact absurd ha hzero
    | chargeActualUsage =>
      rw [hfailure] at ha
      exact ha
    | chargeFixedAttemptFee =>
      rw [hfailure] at ha
      exact ha
    | chargeMaximum =>
      rw [hfailure] at ha
      exact (Option.some.inj ha).symm
    | manualReconciliation =>
      rw [hfailure] at ha
      cases ha

end Charge

/-- Accepted terms charge nothing or an amount the authorization covers: nothing is known of an
indeterminate outcome; nothing is taken for a failure that is free, or after the first attempt where
only that is charged; and what is taken is what the terms name. -/
theorem billable_amount_bounded (policy : BillingPolicy) (maximum : CurrencyAmount)
    (fixedAuthorized fixedAttemptFee : Option CurrencyAmount) (seen : Observed)
    (charge : Option CurrencyAmount)
    (h : billableAmountForTerms policy maximum fixedAuthorized fixedAttemptFee seen = .ok charge) :
    (∀ a ∈ charge, a.currency = maximum.currency ∧ 0 ≤ a.amount ∧ a.amount ≤ maximum.amount) ∧
      (seen.executionStatus = .indeterminate → charge = none) ∧
      (seen.executionStatus ≠ .success →
        policy.retryChargePolicy = .successfulAttemptOnly ∨ policy.failureChargePolicy = .noCharge →
          ∀ a ∈ charge, ¬ 0 < a.amount) ∧
      (policy.retryChargePolicy = .firstAttemptOnly → 1 < seen.attemptNumber →
        ∀ a ∈ charge, ¬ 0 < a.amount) ∧
      ∀ a ∈ charge, 0 < a.amount →
        policy.Names maximum fixedAuthorized fixedAttemptFee seen a := by
  obtain ⟨haccepted, rfl⟩ := billableAmountForTerms_ok.mp h
  refine ⟨fun a ha => ?_, resolve_of_indeterminate, fun hstatus hfree a ha => ?_,
    fun hpolicy hlater a ha => ?_, fun a ha hpos => resolve_names ha hpos⟩
  · obtain ⟨hcurrency, hle⟩ := resolve_coveredBy haccepted ha
    exact ⟨hcurrency, a.nonneg, hle⟩
  · exact (resolve_of_failure hstatus hfree ha).not_gt
  · exact (resolve_of_later_attempt hpolicy hlater ha).not_gt

def oneDollar : CurrencyAmount := ⟨1, "USD", unit_amount_nonneg⟩

/-- A second attempt, which failed after it used one dollar. -/
def failedAttempt : Observed := ⟨.failed, true, none, some oneDollar, 2⟩

theorem billable_amount_bounded_of_failure :
    oneDollar.amount ≤ 1 ∧ BillingPolicy.Names ⟨.onSuccess, .chargeActualUsage, .eachAttempt⟩
      oneDollar none none failedAttempt oneDollar := by
  have hbounded := billable_amount_bounded ⟨.onSuccess, .chargeActualUsage, .eachAttempt⟩ oneDollar
    none none failedAttempt (some oneDollar) (by decide +kernel)
  exact ⟨(hbounded.1 oneDollar rfl).2.2, hbounded.2.2.2.2 oneDollar rfl one_pos⟩

end Router

end AeepRouter

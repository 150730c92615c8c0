import AeepRouter.Capacity.Quota

/-!
# The score of a candidate

`scoreCandidate` weighs the burdens of a feasible candidate; the lower its total, the better. A
candidate that is no worse than another one in anything the score reads (`Improves`) has no higher a
total (`total_le_of_improves`). A quota with no allowance at all has an infinite pressure, which the
record of the score refuses. The arithmetic on floats is taken to be exact, but for the conversion of
a decimal and the logarithms, of which only their order is known.
-/

namespace AeepRouter.Policy

open Lib Stack

/-! ## Policies -/

/-- `math.log1p` and `math.log`. -/
structure Logarithms where
  log1p : ℚ → ℚ
  log : ℚ → ℚ
  log1p_zero : log1p 0 = 0
  log1p_mono : ∀ x y, 0 ≤ x → x ≤ y → log1p x ≤ log1p y
  log_one : log 1 = 0
  log_mono : ∀ x y, 0 < x → x ≤ y → log x ≤ log y

structure MetricWeights where
  monetary : ℚ≥0
  latency : ℚ≥0
  compute : ℚ≥0
  subscription : ℚ≥0
  reliability : ℚ≥0
  quality : ℚ≥0
  risk : ℚ≥0
  nonzero : 0 < monetary + latency + compute + subscription + reliability + quality + risk

structure ReferenceScales where
  monetaryUsd : ℚ≥0
  latencyMs : ℚ≥0
  cpuMs : ℚ≥0
  memoryMbSeconds : ℚ≥0
  peakMemoryMb : ℚ≥0
  gpuMs : ℚ≥0
  networkBytes : ℕ
  contextTokens : ℕ
  positive : 0 < monetaryUsd ∧ 0 < latencyMs ∧ 0 < cpuMs ∧ 0 < memoryMbSeconds ∧ 0 < peakMemoryMb ∧
    0 < gpuMs ∧ 0 < networkBytes ∧ 0 < contextTokens

structure ShadowPrices where
  cpuMsUsd : ℚ≥0
  memoryMbSecondUsd : ℚ≥0
  gpuMsUsd : ℚ≥0
  networkByteUsd : ℚ≥0
  contextTokenUsd : ℚ≥0
  inputTokenUsd : ℚ≥0
  outputTokenUsd : ℚ≥0

structure SubscriptionPolicyRule where
  resourcePool : String
  unit : String
  pressureWeight : ℚ≥0
  policyValueUsdPerUnit : Option ℚ≥0

structure PolicyConfig where
  weights : MetricWeights
  references : ReferenceScales
  shadowPrices : ShadowPrices
  constraints : ActionConstraints
  resourceScarcityMultiplier : ℚ≥0
  subscriptionScarcityMultiplier : ℚ≥0
  subscriptionRules : List SubscriptionPolicyRule
  uncertaintyPenalty : ℚ≥0
  preferLocalBonus : ℚ≥0

structure CostedEstimate extends RouteEstimate where
  amountUsd : Option ℚ≥0
  confidence : ℚ≥0

structure ScoringContext extends ActionContext where
  availableCpuFraction : Option ℚ≥0
  networkMetered : Bool
  stateLocality : Option Locality

def MetricWeights.normalized (w : MetricWeights) (weight : MetricWeights → ℚ≥0) : ℚ≥0 :=
  weight w /
    (w.monetary + w.latency + w.compute + w.subscription + w.reliability + w.quality + w.risk)

/-! ## Scores -/

structure ScoreBreakdown where
  monetary : ℚ
  cash : ℚ
  policyValuation : ℚ
  latency : ℚ
  compute : ℚ
  subscription : ℚ
  subscriptionPressure : ℚ
  subscriptionResetFactor : ℚ
  subscriptionEvidenceUncertainty : ℚ
  subscriptionPolicyValueUsd : ℚ
  reliability : ℚ
  quality : ℚ
  risk : ℚ
  uncertainty : ℚ
  cashUncertainty : ℚ
  localityAdjustment : ℚ
  total : ℚ

structure CacheAffinityEstimate where
  warmProbability : ℚ≥0
  expectedReusableInputTokens : ℕ

structure ScoredCandidate where
  executorId : String
  feasible : Bool
  rejectionReasons : List String
  estimate : CostedEstimate
  resourcePool : Option String
  subscriptionQuota : Option Capacity.SubscriptionQuota
  cacheAffinity : Option CacheAffinityEstimate
  score : Option ScoreBreakdown
  rank : Option ℕ

section Score

variable (f : Floats) (logs : Logarithms) (spec : ExecutorSpec) (estimate : CostedEstimate)
  (policy : PolicyConfig) (context : ScoringContext)

def logOver (value reference : ℚ) : ℚ := logs.log1p (max 0 value / reference)

def policyValuationAmount : ℚ :=
  let r := estimate.resources
  let prices := policy.shadowPrices
  r.cpuMs * prices.cpuMsUsd + r.memoryMbSeconds * prices.memoryMbSecondUsd +
    r.gpuMs * prices.gpuMsUsd + r.networkBytes * prices.networkByteUsd +
    r.contextTokens * prices.contextTokenUsd + r.inputTokens * prices.inputTokenUsd +
    r.outputTokens * prices.outputTokenUsd

/-- The cash of a score: `_cash_amount`, or else `_cash_upper_bound`. -/
def cashAmount : Option ℚ≥0 :=
  (estimate.amountUsd.map f.ofDecimal).or (cashUpperBound f estimate.toRouteEstimate)

def successOf : ℚ := max estimate.successProbability (1 / 1000)

def computeComponents : List ℚ :=
  let r := estimate.resources
  let refs := policy.references
  [r.cpuMs / refs.cpuMs, r.memoryMbSeconds / refs.memoryMbSeconds,
    r.peakMemoryMb / refs.peakMemoryMb, r.gpuMs / refs.gpuMs, r.networkBytes / refs.networkBytes,
    totalTokens estimate.toRouteEstimate / refs.contextTokens]

/-- The pressures whose greatest is `scarcity`; the ones of what is not known are zero. -/
def scarcityComponents : List ℚ :=
  let r := estimate.resources
  let refs := policy.references
  let available := context.compute
  [if available.contextTokensRemaining.getD 0 = 0 then 0
    else totalTokens estimate.toRouteEstimate / (available.contextTokensRemaining.getD 0 : ℚ),
    if available.availableMemoryMb.getD 0 = 0 then 0
    else r.peakMemoryMb / (available.availableMemoryMb.getD 0 : ℚ),
    if available.availableGpuMs.getD 0 = 0 then 0
    else r.gpuMs / (available.availableGpuMs.getD 0 : ℚ),
    if context.availableCpuFraction.getD 0 = 0 then 0
    else r.cpuMs / refs.cpuMs / (context.availableCpuFraction.getD 0 : ℚ),
    if context.networkMetered then r.networkBytes / refs.networkBytes else 0]

/-- The greatest of zero and some pressures. -/
def greatest (components : List ℚ) : ℚ := components.foldl max 0

/-- `_compute_burden`; the components are not negative, so that their greatest is not either. -/
def computeBurden : ℚ :=
  let components := computeComponents estimate policy
  let base := if components.all (· = 0) then 0
    else 6 / 10 * greatest components + 4 / 10 * (components.sum / components.length)
  logs.log1p (base +
    policy.resourceScarcityMultiplier * greatest (scarcityComponents estimate policy context))

structure SubscriptionBurden where
  burden : ℚ
  value : ℚ
  pressure : ℚ
  resetFactor : ℚ
  confidenceUncertainty : ℚ

/-- The pressure of some units, or nothing if it is infinite. -/
def subscriptionPressure (units : ℚ) (quota : Capacity.SubscriptionQuota) : Option ℚ :=
  match quota.remainingUnits, quota.allowanceUnits, quota.usedPercent with
  | some remaining, _, _ =>
    if f.ofDecimal remaining = 0 then none else some (units / f.ofDecimal remaining)
  | none, some allowance, _ =>
    if f.ofDecimal allowance = 0 then none else some (units / f.ofDecimal allowance)
  | none, none, some used =>
    let usedFraction : ℚ := f.ofDecimal used / 100
    some (units * max (5 / 100) usedFraction / max (1 / 100) (1 - usedFraction))
  | none, none, none =>
    Option.map (fun pressure : ℚ≥0 => units * pressure) quota.state.pressure

def resetFactor (quota : Capacity.SubscriptionQuota) : ℚ :=
  match quota.resetAt, quota.observedAt, quota.windowDurationSeconds with
  | none, _, _ => 1
  | some reset, some observed, some seconds =>
    1 + min 1 (max 0 ((reset.instant - observed.instant : ℤ) / 1000000) / seconds)
  | _, _, _ => 3 / 2

def confidenceUncertainty (quota : Capacity.SubscriptionQuota) : ℚ :=
  1 - quota.confidence +
    if quota.state = .unknown ∧ quota.remainingUnits = none ∧ quota.usedPercent = none then 1 / 2
    else 0

def ruleFor (resourcePool unit : String) : Option SubscriptionPolicyRule :=
  policy.subscriptionRules.find? fun item => item.resourcePool = resourcePool ∧ item.unit = unit

/-- `_subscription_burden_components` of a quota, or nothing if the pressure is infinite. -/
def subscriptionBurden (resourcePool : String) (units : ℚ) (quota : Capacity.SubscriptionQuota)
    (successProbability : ℚ) : Option SubscriptionBurden :=
  let rule := ruleFor policy resourcePool quota.unit
  (subscriptionPressure f units quota).map fun pressure =>
    { burden := logs.log1p (pressure * policy.subscriptionScarcityMultiplier *
          ((rule.map (·.pressureWeight)).getD 1 : ℚ≥0) * resetFactor quota +
          confidenceUncertainty quota) / max successProbability (1 / 1000)
      value := units * (((rule.bind (·.policyValueUsdPerUnit)).map f.ofDecimal).getD 0 : ℚ≥0)
      pressure := pressure
      resetFactor := resetFactor quota
      confidenceUncertainty := confidenceUncertainty quota }

/-- The burden of a candidate that takes nothing of a subscription. -/
def SubscriptionBurden.none : SubscriptionBurden := ⟨0, 0, 0, 1, 0⟩

def candidateBurden (quota : Option Capacity.SubscriptionQuota) : Option SubscriptionBurden :=
  match quota with
  | none => some .none
  | some quota =>
    let units := subscriptionUnits f spec estimate.toRouteEstimate
    if units = 0 then some .none
    else subscriptionBurden f logs policy (spec.resourcePool.getD "") units quota
      estimate.successProbability

def localityAdjustment : ℚ :=
  (if spec.isLocal then -(policy.preferLocalBonus : ℚ) else 0) +
    if context.stateLocality = some spec.locality then -(policy.preferLocalBonus : ℚ) else 0

/-- The score of a feasible candidate that burdens a subscription so. -/
def breakdownOf (subscription : SubscriptionBurden) : ScoreBreakdown :=
  let success := successOf estimate
  let expectedMultiplier := 1 / success
  let weight (field : MetricWeights → ℚ≥0) : ℚ := policy.weights.normalized field
  let amount := cashAmount f estimate
  let cash := logOver logs ((amount.getD 0 : ℚ≥0) * expectedMultiplier) policy.references.monetaryUsd
  let policyValue := logOver logs
    ((policyValuationAmount estimate policy + subscription.value) * expectedMultiplier)
    policy.references.monetaryUsd
  let latency := logOver logs (estimate.resources.latencyMs * expectedMultiplier)
    policy.references.latencyMs
  let compute := computeBurden logs estimate policy context * expectedMultiplier
  let reliability := -logs.log success
  let quality := 1 - estimate.qualityScore
  let risk := estimate.riskScore
  let uncertainty := (1 - estimate.confidence) * policy.uncertaintyPenalty
  let cashUncertainty : ℚ := if amount.isNone then policy.uncertaintyPenalty else 0
  let locality := localityAdjustment spec policy context
  { monetary := weight (·.monetary) * (cash + policyValue)
    cash := weight (·.monetary) * cash
    policyValuation := weight (·.monetary) * policyValue
    latency := weight (·.latency) * latency
    compute := weight (·.compute) * compute
    subscription := weight (·.subscription) * subscription.burden
    subscriptionPressure := subscription.pressure
    subscriptionResetFactor := subscription.resetFactor
    subscriptionEvidenceUncertainty := subscription.confidenceUncertainty
    subscriptionPolicyValueUsd := subscription.value
    reliability := weight (·.reliability) * reliability
    quality := weight (·.quality) * quality
    risk := weight (·.risk) * risk
    uncertainty := uncertainty
    cashUncertainty := cashUncertainty
    localityAdjustment := locality
    total := weight (·.monetary) * (cash + policyValue) + weight (·.latency) * latency +
      weight (·.compute) * compute + weight (·.subscription) * subscription.burden +
      weight (·.reliability) * reliability + weight (·.quality) * quality +
      weight (·.risk) * risk + uncertainty + cashUncertainty + locality }

/-- `score_candidate`; the record of a score refuses an infinite pressure. -/
def scoreCandidate (quota : Option Capacity.SubscriptionQuota) : Result ScoredCandidate :=
  let reasons := rejectionReasons f spec estimate.toRouteEstimate policy.constraints
    context.toActionContext (quota.map (·.toSubscriptionQuota))
  let candidate : ScoredCandidate :=
    { executorId := spec.id
      feasible := false
      rejectionReasons := reasons
      estimate := estimate
      resourcePool := spec.resourcePool
      subscriptionQuota := quota
      cacheAffinity := none
      score := none
      rank := none }
  if reasons ≠ [] then pure candidate
  else
    match candidateBurden f logs spec estimate policy quota with
    | none => throw (.value "Input should be a finite number")
    | some subscription =>
      pure { candidate with
        feasible := true
        score := some (breakdownOf f logs spec estimate policy context subscription) }

end Score

/-! ## Better candidates -/

structure Contender where
  spec : ExecutorSpec
  estimate : CostedEstimate
  quota : Option Capacity.SubscriptionQuota

/-- The cash of one is known and no more than that of the other, or that of neither is known. -/
def CashAtMost (amount other : Option ℚ≥0) : Prop :=
  match amount, other with
  | some a, some b => a ≤ b
  | none, none => True
  | _, _ => False

/-- One candidate is no worse than another one in anything that the score reads. -/
structure Improves (f : Floats) (context : ScoringContext) (a b : Contender) : Prop where
  latency : a.estimate.resources.latencyMs ≤ b.estimate.resources.latencyMs
  cpu : a.estimate.resources.cpuMs ≤ b.estimate.resources.cpuMs
  memory : a.estimate.resources.memoryMbSeconds ≤ b.estimate.resources.memoryMbSeconds
  peakMemory : a.estimate.resources.peakMemoryMb ≤ b.estimate.resources.peakMemoryMb
  gpu : a.estimate.resources.gpuMs ≤ b.estimate.resources.gpuMs
  network : a.estimate.resources.networkBytes ≤ b.estimate.resources.networkBytes
  contextTokens : a.estimate.resources.contextTokens ≤ b.estimate.resources.contextTokens
  inputTokens : a.estimate.resources.inputTokens ≤ b.estimate.resources.inputTokens
  outputTokens : a.estimate.resources.outputTokens ≤ b.estimate.resources.outputTokens
  cash : CashAtMost (cashAmount f a.estimate) (cashAmount f b.estimate)
  success : b.estimate.successProbability ≤ a.estimate.successProbability
  quality : b.estimate.qualityScore ≤ a.estimate.qualityScore
  risk : a.estimate.riskScore ≤ b.estimate.riskScore
  confidence : b.estimate.confidence ≤ a.estimate.confidence
  /-- It takes nothing of a subscription, or no more of the same one. -/
  subscription : a.quota = none ∨
    subscriptionUnits f a.spec a.estimate.toRouteEstimate = 0 ∨
    a.spec.resourcePool = b.spec.resourcePool ∧ a.quota = b.quota ∧
      subscriptionUnits f a.spec a.estimate.toRouteEstimate ≤
        subscriptionUnits f b.spec b.estimate.toRouteEstimate
  locality : b.spec.isLocal → a.spec.isLocal
  stateLocality : context.stateLocality = some b.spec.locality →
    context.stateLocality = some a.spec.locality

theorem greatest_mono {xs ys : List ℚ} (h : List.Forall₂ (· ≤ ·) xs ys) :
    greatest xs ≤ greatest ys := by
  have hfold : ∀ {x y : ℚ}, x ≤ y → xs.foldl max x ≤ ys.foldl max y := by
    induction h with
    | nil => exact fun hle => hle
    | cons hhead _ ih => exact fun hle => ih (max_le_max hle hhead)
  exact hfold le_rfl

theorem greatest_nonneg (xs : List ℚ) : 0 ≤ greatest xs := by
  have hfold : ∀ x : ℚ, x ≤ xs.foldl max x := by
    induction xs with
    | nil => exact fun x => le_rfl
    | cons y ys ih => exact fun x => (le_max_left x y).trans (ih (max x y))
  exact hfold 0

theorem greatest_le {xs : List ℚ} {bound : ℚ} (hbound : 0 ≤ bound) (h : ∀ x ∈ xs, x ≤ bound) :
    greatest xs ≤ bound := by
  have hfold : ∀ x ≤ bound, xs.foldl max x ≤ bound := by
    induction xs with
    | nil => exact fun x hx => hx
    | cons y ys ih =>
      exact fun x hx => ih (fun z hz => h z (.tail _ hz)) _ (max_le hx (h y (.head _)))
  exact hfold 0 hbound

section Better

variable {f : Floats} (logs : Logarithms) (policy : PolicyConfig) {context : ScoringContext}
  {a b : Contender} (estimate : CostedEstimate)

variable {logs} in
theorem Logarithms.log1p_nonneg {x : ℚ} (h : 0 ≤ x) : 0 ≤ logs.log1p x :=
  logs.log1p_zero ▸ logs.log1p_mono 0 x le_rfl h

theorem logOver_mono {reference value value' : ℚ} (hpos : 0 < reference) (h : value ≤ value') :
    logOver logs value reference ≤ logOver logs value' reference := by
  refine logs.log1p_mono _ _ (by positivity) ?_
  gcongr

theorem successOf_pos : 0 < successOf estimate :=
  lt_max_of_lt_right (by norm_num)

theorem successOf_mono {estimate estimate' : CostedEstimate}
    (h : estimate'.successProbability ≤ estimate.successProbability) : successOf estimate' ≤ successOf estimate :=
  max_le_max (by exact_mod_cast h) le_rfl

theorem policyValuationAmount_nonneg : 0 ≤ policyValuationAmount estimate policy := by
  unfold policyValuationAmount
  positivity

theorem Improves.policyValuation (h : Improves f context a b) :
    policyValuationAmount a.estimate policy ≤ policyValuationAmount b.estimate policy := by
  obtain ⟨-, hcpu, hmemory, -, hgpu, hnetwork, hcontext, hinput, houtput, -⟩ := h
  unfold policyValuationAmount
  dsimp only
  gcongr

theorem Improves.tokens (h : Improves f context a b) :
    totalTokens a.estimate.toRouteEstimate ≤ totalTokens b.estimate.toRouteEstimate :=
  Nat.add_le_add (Nat.add_le_add h.contextTokens h.inputTokens) h.outputTokens

/-! ### Compute -/

theorem Improves.computeComponents (h : Improves f context a b) :
    List.Forall₂ (· ≤ ·) (computeComponents a.estimate policy)
      (computeComponents b.estimate policy) := by
  have htokens := h.tokens
  obtain ⟨-, hcpu, hmemory, hpeak, hgpu, hnetwork, -⟩ := h
  unfold Policy.computeComponents
  refine .cons ?_ (.cons ?_ (.cons ?_ (.cons ?_ (.cons ?_ (.cons ?_ .nil)))))
  all_goals gcongr

theorem Improves.scarcityComponents (h : Improves f context a b) :
    List.Forall₂ (· ≤ ·) (scarcityComponents a.estimate policy context)
      (scarcityComponents b.estimate policy context) := by
  have htokens := h.tokens
  obtain ⟨-, hcpu, -, hpeak, hgpu, hnetwork, -⟩ := h
  unfold Policy.scarcityComponents
  refine .cons ?_ (.cons ?_ (.cons ?_ (.cons ?_ (.cons ?_ .nil))))
  all_goals
    split
    · first | exact le_rfl | gcongr
    · first | exact le_rfl | gcongr

theorem base_eq {components : List ℚ} :
    (if components.all (· = 0) then 0
      else 6 / 10 * greatest components + 4 / 10 * (components.sum / components.length)) =
      6 / 10 * greatest components + 4 / 10 * (components.sum / components.length) := by
  split
  · next hall =>
    have hzero : ∀ x ∈ components, x = 0 := by simpa using hall
    have hgreatest : greatest components = 0 :=
      le_antisymm (greatest_le le_rfl fun x hx => (hzero x hx).le) (greatest_nonneg _)
    rw [List.sum_eq_zero hzero, hgreatest]
    norm_num
  · rfl

theorem computeComponents_nonneg : ∀ x ∈ computeComponents estimate policy, 0 ≤ x := by
  simp only [Policy.computeComponents, List.mem_cons, List.not_mem_nil, or_false]
  rintro x (rfl | rfl | rfl | rfl | rfl | rfl)
  all_goals positivity

theorem computeBase_nonneg : 0 ≤ 6 / 10 * greatest (computeComponents estimate policy) +
    4 / 10 * ((computeComponents estimate policy).sum /
      (computeComponents estimate policy).length) := by
  have hgreatest := greatest_nonneg (computeComponents estimate policy)
  have hsum := List.sum_nonneg (computeComponents_nonneg policy estimate)
  positivity

theorem computeBurden_nonneg : 0 ≤ computeBurden logs estimate policy context := by
  unfold Policy.computeBurden
  dsimp only
  rw [base_eq]
  have hbase := computeBase_nonneg policy estimate
  have hscarcity := greatest_nonneg (Policy.scarcityComponents estimate policy context)
  exact logs.log1p_nonneg (by positivity)

theorem Improves.computeBurden (h : Improves f context a b) :
    computeBurden logs a.estimate policy context ≤ computeBurden logs b.estimate policy context := by
  unfold Policy.computeBurden
  dsimp only
  rw [base_eq, base_eq]
  have hcomponents : List.Forall₂ (· ≤ ·) (Policy.computeComponents a.estimate policy)
    (Policy.computeComponents b.estimate policy) := h.computeComponents policy
  have hgreatest := greatest_mono hcomponents
  have hsum := hcomponents.sum_le_sum
  have hscarcity := greatest_mono (h.scarcityComponents policy)
  have hbase := computeBase_nonneg policy a.estimate
  have hnonneg := greatest_nonneg (Policy.scarcityComponents a.estimate policy context)
  rw [hcomponents.length_eq] at hbase ⊢
  refine logs.log1p_mono _ _ (by positivity) ?_
  gcongr

/-! ### Subscriptions -/

variable {logs policy}

theorem confidenceUncertainty_nonneg (quota : Capacity.SubscriptionQuota) :
    0 ≤ confidenceUncertainty quota := by
  have hle : (quota.confidence : ℚ) ≤ 1 := by exact_mod_cast quota.confidence_le
  unfold confidenceUncertainty
  split
  · linarith
  · linarith

theorem resetFactor_nonneg (quota : Capacity.SubscriptionQuota) : 0 ≤ resetFactor quota := by
  unfold resetFactor
  split
  · norm_num
  · positivity
  · norm_num

theorem subscriptionPressure_nonneg {units pressure : ℚ} {quota : Capacity.SubscriptionQuota}
    (hunits : 0 ≤ units) (h : subscriptionPressure f units quota = some pressure) : 0 ≤ pressure := by
  unfold subscriptionPressure at h
  split at h
  · split at h
    · cases h
    · cases h
      positivity
  · split at h
    · cases h
    · cases h
      positivity
  · cases h
    positivity
  · obtain ⟨p, -, rfl⟩ := Option.map_eq_some_iff.mp h
    positivity

theorem subscriptionPressure_mono {units units' pressure pressure' : ℚ}
    {quota : Capacity.SubscriptionQuota} (hle : units ≤ units')
    (h : subscriptionPressure f units quota = some pressure)
    (h' : subscriptionPressure f units' quota = some pressure') : pressure ≤ pressure' := by
  unfold subscriptionPressure at h h'
  cases hremaining : quota.remainingUnits with
  | some remaining =>
    simp only [hremaining] at h h'
    split at h
    · cases h
    · next hne =>
      rw [if_neg hne] at h'
      cases h
      cases h'
      gcongr
  | none =>
    cases hallowance : quota.allowanceUnits with
    | some allowance =>
      simp only [hremaining, hallowance] at h h'
      split at h
      · cases h
      · next hne =>
        rw [if_neg hne] at h'
        cases h
        cases h'
        gcongr
    | none =>
      cases hused : quota.usedPercent with
      | some used =>
        simp only [hremaining, hallowance, hused] at h h'
        cases h
        cases h'
        gcongr
      | none =>
        simp only [hremaining, hallowance, hused] at h h'
        obtain ⟨p, hp, rfl⟩ := Option.map_eq_some_iff.mp h
        obtain ⟨p', hp', rfl⟩ := Option.map_eq_some_iff.mp h'
        obtain rfl := Option.some.inj (hp.symm.trans hp')
        gcongr

structure SubscriptionBurden.Nonneg (s : SubscriptionBurden) : Prop where
  burden : 0 ≤ s.burden
  value : 0 ≤ s.value

theorem subscriptionBurden_nonneg {pool : String} {units success : ℚ}
    {quota : Capacity.SubscriptionQuota} {s : SubscriptionBurden} (hunits : 0 ≤ units)
    (h : subscriptionBurden f logs policy pool units quota success = some s) : s.Nonneg := by
  obtain ⟨pressure, hpressure, rfl⟩ := Option.map_eq_some_iff.mp h
  have hpos := subscriptionPressure_nonneg hunits hpressure
  have hreset := resetFactor_nonneg quota
  have huncertain := confidenceUncertainty_nonneg quota
  refine ⟨div_nonneg (logs.log1p_nonneg (by positivity)) (by positivity), ?_⟩
  dsimp only
  positivity

theorem candidateBurden_nonneg {s : SubscriptionBurden}
    (h : candidateBurden f logs a.spec a.estimate policy a.quota = some s) : s.Nonneg := by
  unfold candidateBurden at h
  cases hquota : a.quota with
  | none =>
    rw [hquota] at h
    cases h
    exact ⟨le_rfl, le_rfl⟩
  | some quota =>
    rw [hquota] at h
    dsimp only at h
    split at h
    · cases h
      exact ⟨le_rfl, le_rfl⟩
    · exact subscriptionBurden_nonneg (NNRat.cast_nonneg _) h

theorem Improves.subscriptionBurden (h : Improves f context a b) {s t : SubscriptionBurden}
    (hs : candidateBurden f logs a.spec a.estimate policy a.quota = some s)
    (ht : candidateBurden f logs b.spec b.estimate policy b.quota = some t) :
    s.burden ≤ t.burden ∧ s.value ≤ t.value := by
  have hnonneg := candidateBurden_nonneg ht
  have hnone : s = .none → s.burden ≤ t.burden ∧ s.value ≤ t.value := by
    rintro rfl
    exact ⟨hnonneg.burden, hnonneg.value⟩
  unfold candidateBurden at hs ht
  rcases h.subscription with hquota | hunits | ⟨hpool, hquota, hunits⟩
  · rw [hquota] at hs
    exact hnone (Option.some.inj hs).symm
  · cases hquota : a.quota with
    | none =>
      rw [hquota] at hs
      exact hnone (Option.some.inj hs).symm
    | some quota =>
      simp only [hquota, hunits, if_true] at hs
      exact hnone (Option.some.inj hs).symm
  · rw [hquota] at hs
    cases hquota' : b.quota with
    | none =>
      rw [hquota'] at hs
      exact hnone (Option.some.inj hs).symm
    | some quota =>
      simp only [hquota'] at hs ht
      split at hs
      · exact hnone (Option.some.inj hs).symm
      · next hunits' =>
        have hne : subscriptionUnits f b.spec b.estimate.toRouteEstimate ≠ 0 := fun hzero =>
          hunits' (le_antisymm (hzero ▸ hunits) bot_le)
        rw [if_neg hne] at ht
        obtain ⟨pressure, hpressure, rfl⟩ := Option.map_eq_some_iff.mp hs
        obtain ⟨pressure', hpressure', rfl⟩ := Option.map_eq_some_iff.mp ht
        have hle : (subscriptionUnits f a.spec a.estimate.toRouteEstimate : ℚ) ≤
            subscriptionUnits f b.spec b.estimate.toRouteEstimate := by exact_mod_cast hunits
        have hpressures := subscriptionPressure_mono hle hpressure hpressure'
        have hpos := subscriptionPressure_nonneg (NNRat.cast_nonneg _) hpressure
        have hreset := resetFactor_nonneg quota
        have huncertain := confidenceUncertainty_nonneg quota
        have hsuccess : (b.estimate.successProbability : ℚ) ≤ a.estimate.successProbability := by
          exact_mod_cast h.success
        dsimp only
        rw [hpool]
        refine ⟨div_le_div₀ (logs.log1p_nonneg ?_) (logs.log1p_mono _ _ ?_ ?_) ?_ ?_, ?_⟩
        · have hpos' : 0 ≤ pressure' := hpos.trans hpressures
          positivity
        · positivity
        · gcongr
        · positivity
        · gcongr
        · gcongr

/-! ### The total -/

variable (logs policy)

theorem multiplier_nonneg : 0 ≤ 1 / successOf estimate := one_div_nonneg.mpr (successOf_pos estimate).le

theorem Improves.multiplier_le (h : Improves f context a b) :
    1 / successOf a.estimate ≤ 1 / successOf b.estimate :=
  one_div_le_one_div_of_le (successOf_pos _) (successOf_mono h.success)

/-- A smaller burden that is expected to be repeated less often. -/
theorem Improves.expected (h : Improves f context a b) {reference value value' : ℚ}
    (hpos : 0 < reference) (hvalue : 0 ≤ value) (hle : value ≤ value') :
    logOver logs (value * (1 / successOf a.estimate)) reference ≤
      logOver logs (value' * (1 / successOf b.estimate)) reference :=
  logOver_mono logs hpos (mul_le_mul hle h.multiplier_le (multiplier_nonneg _) (hvalue.trans hle))

theorem Improves.cashAmount_le (h : Improves f context a b) :
    (((cashAmount f a.estimate).getD 0 : ℚ≥0) : ℚ) ≤ ((cashAmount f b.estimate).getD 0 : ℚ≥0) := by
  have hcash := h.cash
  unfold CashAtMost at hcash
  split at hcash
  · next ha hb =>
    rw [ha, hb]
    exact_mod_cast hcash
  · next ha hb => rw [ha, hb]
  · exact hcash.elim

theorem Improves.cashUncertainty (h : Improves f context a b) :
    (cashAmount f a.estimate).isNone = (cashAmount f b.estimate).isNone := by
  have hcash := h.cash
  unfold CashAtMost at hcash
  split at hcash
  · next ha hb =>
    rw [ha, hb]
    rfl
  · next ha hb => rw [ha, hb]
  · exact hcash.elim

theorem Improves.locality_adjustment (h : Improves f context a b) :
    localityAdjustment a.spec policy context ≤ localityAdjustment b.spec policy context := by
  have hbonus : -(policy.preferLocalBonus : ℚ) ≤ 0 := neg_nonpos.mpr (NNRat.cast_nonneg _)
  have hadjust : ∀ {p q : Prop} [Decidable p] [Decidable q], (q → p) →
      (if p then -(policy.preferLocalBonus : ℚ) else 0) ≤
        if q then -(policy.preferLocalBonus : ℚ) else 0 := by
    intro p q _ _ himp
    split
    · split
      · exact le_rfl
      · exact hbonus
    · next hnot => rw [if_neg fun hq => hnot (himp hq)]
  exact add_le_add (hadjust h.locality) (hadjust h.stateLocality)

/-- A candidate that is no worse in anything has no higher a total. -/
theorem total_le_of_improves (h : Improves f context a b) {s t : SubscriptionBurden}
    (hburden : s.burden ≤ t.burden) (hvalue : 0 ≤ s.value) (hvalues : s.value ≤ t.value) :
    (breakdownOf f logs a.spec a.estimate policy context s).total ≤
      (breakdownOf f logs b.spec b.estimate policy context t).total := by
  obtain ⟨hmonetary, hlatency, -⟩ := policy.references.positive
  have hcash := h.expected logs (NNRat.cast_pos.mpr hmonetary) (NNRat.cast_nonneg _)
    h.cashAmount_le
  have hpolicyValue := h.expected logs (NNRat.cast_pos.mpr hmonetary)
    (add_nonneg (policyValuationAmount_nonneg policy _) hvalue)
    (add_le_add (h.policyValuation policy) hvalues)
  have hlatency := h.expected logs (NNRat.cast_pos.mpr hlatency) (NNRat.cast_nonneg _)
    (NNRat.cast_le.mpr h.latency)
  have hcompute := mul_le_mul (h.computeBurden logs policy) h.multiplier_le
    (multiplier_nonneg _) (computeBurden_nonneg logs policy _)
  have hreliability := logs.log_mono _ _ (successOf_pos _) (successOf_mono h.success)
  have hquality := h.quality
  have hrisk := h.risk
  have hconfidence := h.confidence
  have hlocality := h.locality_adjustment policy
  unfold breakdownOf
  dsimp only
  rw [h.cashUncertainty]
  gcongr

end Better

/-! ## Infinite pressure -/

section Pressure

variable {f : Floats} {logs : Logarithms} {spec : ExecutorSpec} {estimate : CostedEstimate}
  {policy : PolicyConfig} {context : ScoringContext} {quota : Option Capacity.SubscriptionQuota}

/-- The pressure of an executor with no reasons is infinite where the quota knows no remaining and an
allowance of nothing. -/
theorem subscriptionPressure_none {units : ℚ} {quota : Capacity.SubscriptionQuota}
    (hpressure : quota.state.pressure ≠ ⊤) (hremaining : ∀ left ∈ quota.remainingUnits,
      f.ofDecimal left ≠ 0) :
    subscriptionPressure f units quota = none ↔
      quota.remainingUnits = none ∧ ∃ most ∈ quota.allowanceUnits, f.ofDecimal most = 0 := by
  unfold subscriptionPressure
  cases hleft : quota.remainingUnits with
  | some left => simp [hremaining left hleft]
  | none =>
    cases hmost : quota.allowanceUnits with
    | some most => simp
    | none =>
      cases hused : quota.usedPercent with
      | some used => simp
      | none =>
        refine ⟨fun hnone => absurd ?_ hpressure, fun h => by simp at h⟩
        exact Option.map_eq_none_iff.mp hnone

theorem quota_of_reasons {q : Capacity.SubscriptionQuota}
    (hreasons : rejectionReasons f spec estimate.toRouteEstimate policy.constraints
      context.toActionContext (some q.toSubscriptionQuota) = []) :
    q.state.pressure ≠ ⊤ ∧ ∀ left ∈ q.remainingUnits,
      subscriptionUnits f spec estimate.toRouteEstimate ≤ f.ofDecimal left := by
  have havailable := (List.append_eq_nil_iff.mp hreasons).2
  simp only [availabilityReasons, List.append_eq_nil_iff, reasonIf_eq_nil] at havailable
  obtain ⟨⟨⟨⟨⟨⟨⟨-, hstate⟩, hunits⟩, -⟩, -⟩, -⟩, -⟩, -⟩ := havailable
  refine ⟨fun htop => hstate ⟨_, rfl, htop⟩, fun left hleft => ?_⟩
  exact not_lt.mp fun hlt => hunits ⟨_, rfl, left, hleft, hlt⟩

/-- The score of an executor fails just when nothing else is against it and it takes units of a
subscription that has no allowance and no remaining that is known. -/
theorem scoreCandidate_fails :
    (∃ e, scoreCandidate f logs spec estimate policy context quota = .error e) ↔
      rejectionReasons f spec estimate.toRouteEstimate policy.constraints context.toActionContext
        (quota.map (·.toSubscriptionQuota)) = [] ∧
      subscriptionUnits f spec estimate.toRouteEstimate ≠ 0 ∧
      ∃ q ∈ quota, q.remainingUnits = none ∧ ∃ most ∈ q.allowanceUnits, f.ofDecimal most = 0 := by
  have hburden : rejectionReasons f spec estimate.toRouteEstimate policy.constraints
        context.toActionContext (quota.map (·.toSubscriptionQuota)) = [] →
      (candidateBurden f logs spec estimate policy quota = none ↔
        subscriptionUnits f spec estimate.toRouteEstimate ≠ 0 ∧
        ∃ q ∈ quota, q.remainingUnits = none ∧ ∃ most ∈ q.allowanceUnits, f.ofDecimal most = 0) := by
    intro hreasons
    cases quota with
    | none => simp [candidateBurden]
    | some q =>
      obtain ⟨hstate, hleft⟩ := quota_of_reasons hreasons
      by_cases hunits : subscriptionUnits f spec estimate.toRouteEstimate = 0
      · simp [candidateBurden, hunits]
      · have hne : ∀ left ∈ q.remainingUnits, f.ofDecimal left ≠ 0 := fun left hmem hzero =>
          hunits (le_antisymm (hzero ▸ hleft left hmem) bot_le)
        simp only [candidateBurden, if_neg hunits, subscriptionBurden, Option.map_eq_none_iff]
        rw [subscriptionPressure_none hstate hne]
        simp [hunits]
  unfold scoreCandidate
  dsimp only
  by_cases hreasons : rejectionReasons f spec estimate.toRouteEstimate policy.constraints
      context.toActionContext (quota.map (·.toSubscriptionQuota)) = []
  · rw [if_neg (not_not.mpr hreasons), ← hburden hreasons]
    cases hb : candidateBurden f logs spec estimate policy quota with
    | none => exact ⟨fun _ => ⟨hreasons, rfl⟩, fun _ => ⟨_, rfl⟩⟩
    | some burden => exact ⟨fun ⟨_, he⟩ => (nomatch he), fun h => nomatch h.2⟩
  · rw [if_pos hreasons]
    exact ⟨fun ⟨_, he⟩ => (nomatch he), fun h => absurd h.1 hreasons⟩

end Pressure

end AeepRouter.Policy

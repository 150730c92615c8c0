import AeepRouter.Economic.CashResolution
import AeepRouter.Estimator.SharedPrior
import AeepRouter.Router.Charges
import AeepRouter.Stack.Goal

/-!
# Estimates from receipts

`estimate` blends the prior of an executor with what its receipts tell. `historical` and
`empiricalUncertainty` never fail on receipts (`historical_ok`, `empiricalUncertainty_ok`), nor does
the blend (`blended_spec`); so the estimate fails only with the shared prior.
-/

namespace AeepRouter.Estimator

open Lib Evidence Aggregation
open Router (ExecutionStatus)
open Stack (ExecutorKind)

/-! ## Receipts -/

structure ExecutionReceipt where
  status : ExecutionStatus
  actualResources : ResourceVector
  cash : CashAccounting
  subscriptionUsage : List SubscriptionUsage
  taskValid : Option Bool
  qualityScore : Option ℚ
  outputValid : Option Bool
  charged : ∀ item ∈ cash.components, ∀ amount ∈ item.amount, 0 ≤ amount

namespace ExecutionReceipt

def succeeded (receipt : ExecutionReceipt) : Bool :=
  receipt.status = .success ∧ receipt.outputValid ≠ some false ∧ receipt.taskValid ≠ some false

def outcome (receipt : ExecutionReceipt) : ℚ := if receipt.succeeded then 1 else 0

def actualCash (receipt : ExecutionReceipt) : Option ℚ := receipt.cash.actualCashCost "USD"

/-- The units of subscriptions that are told with authority. -/
def knownUsage (receipt : ExecutionReceipt) : List ℚ :=
  (receipt.subscriptionUsage.filter fun item =>
    item.source.trust ∈ [TrustLevel.observed, .verified, .attested] ∧
      item.source.source ≠ .providerReport).filterMap (·.consumed)

/-- A quality that is told, or else the verdict on the task. -/
def quality (receipt : ExecutionReceipt) : Option ℚ :=
  receipt.qualityScore.or (receipt.taskValid.map fun valid => if valid then 1 else 0)

variable {receipt : ExecutionReceipt}

theorem actualCash_nonneg {cost : ℚ} (h : receipt.actualCash = some cost) : 0 ≤ cost := by
  obtain ⟨-, -, -, rfl⟩ := CashAccounting.actualCashCost_eq_some.mp h
  exact CashAccounting.knownSubtotal_nonneg receipt.charged "USD"

theorem knownUsage_nonneg : ∀ units ∈ receipt.knownUsage, 0 ≤ units := by
  intro units h
  obtain ⟨item, -, hunits⟩ := List.mem_filterMap.mp h
  exact item.nonneg units hunits

end ExecutionReceipt

/-! ## The historical estimate -/

/-- Cash and units that are not told with authority are the fallback's. -/
def eligibleValues (receipt : ExecutionReceipt) (fallback : ResourceVector) : ResourceField → ℚ
  | .monetaryUsd => receipt.actualCash.getD (fallback.value .monetaryUsd)
  | .subscriptionUnits =>
    match receipt.knownUsage with
    | [units] => units
    | _ => fallback.value .subscriptionUnits
  | field => receipt.actualResources.value field

def eligibleResources (receipt : ExecutionReceipt) (fallback : ResourceVector) :
    Result ResourceVector :=
  ResourceVector.modelValidate (eligibleValues receipt fallback)

theorem eligibleValues_valid (receipt : ExecutionReceipt) (fallback : ResourceVector) :
    ResourceVector.Valid (eligibleValues receipt fallback) := by
  intro field _
  unfold eligibleValues
  split
  · refine ⟨?_, fun h => by cases h⟩
    cases h : receipt.actualCash with
    | none => exact fallback.nonneg _
    | some cost => exact ExecutionReceipt.actualCash_nonneg h
  · refine ⟨?_, fun h => by cases h⟩
    split
    · next units h => exact ExecutionReceipt.knownUsage_nonneg units (h ▸ List.mem_singleton_self _)
    · exact fallback.nonneg _
  · exact receipt.actualResources.valid field field.mem_all

theorem eligibleResources_ok (receipt : ExecutionReceipt) (fallback : ResourceVector) :
    ∃ r, eligibleResources receipt fallback = .ok r := by
  obtain ⟨r, hr, -⟩ := ResourceVector.modelValidate_isOk (eligibleValues_valid receipt fallback)
  exact ⟨r, hr⟩

/-- The weight of each newer receipt. -/
def alpha : ℚ := 3 / 10

theorem alpha_nonneg : 0 ≤ alpha := by norm_num [alpha]

theorem alpha_le_one : alpha ≤ 1 := by norm_num [alpha]

def observe (resource : ResourceVector) (receipt : ExecutionReceipt) : Result ResourceVector := do
  let eligible ← eligibleResources receipt resource
  blendResources resource eligible alpha

def share (values : List Bool) : ℚ := values.count true / values.length

/-- The cash of receipts, with the first amount and the others. -/
def historicalCash (prior : CashEstimate) (receipts : List ExecutionReceipt) : Result CashEstimate :=
  match receipts.filterMap (·.actualCash) with
  | [] => pure prior
  | first :: rest =>
    CashEstimate.make (some (rest.foldl (blend · · alpha) first)) none
      (if (first :: rest).length = receipts.length then
        { status := .complete
          source := .localMeter
          trust := .observed
          consistent := consistent_metered }
      else
        { status := .partialEvidence
          source := .localMeter
          trust := .observed
          consistent := consistent_partial })

theorem historical_bounded {prior : RouteEstimate} {success quality failure : ℚ} {n : ℕ} :
    Bounded (max (1 / 1000) (min 1 success)) (max 0 (min 1 quality))
      (max prior.riskScore (min 1 failure)) (min 1 (n / 20)) where
  success := ⟨le_max_left _ _, max_le (by norm_num) (min_le_left _ _)⟩
  quality := ⟨le_max_left _ _, max_le zero_le_one (min_le_left _ _)⟩
  risk := ⟨prior.bounded.risk.1.trans (le_max_left _ _),
    max_le prior.bounded.risk.2 (min_le_left _ _)⟩
  confident := ⟨le_min zero_le_one (by positivity), min_le_left _ _⟩

def historical (receipts : List ExecutionReceipt) (prior : RouteEstimate) : Result RouteEstimate :=
  match receipts with
  | [] => .error .fault
  | first :: rest => do
    let resource ← eligibleResources first prior.resources
    let resource ← rest.foldlM observe resource
    let success := rest.foldl (fun success receipt => blend success receipt.outcome alpha)
      first.outcome
    let validSamples := receipts.filterMap (·.outputValid)
    let quality := if validSamples = [] then prior.qualityScore else share validSamples
    let cash ← historicalCash prior.cash receipts
    pure {
      resources := resource
      cash := cash
      subscriptionUsage := prior.subscriptionUsage
      successProbability := max (1 / 1000) (min 1 success)
      qualityScore := max 0 (min 1 quality)
      riskScore := max prior.riskScore (min 1 ((1 - success) * (1 / 2)))
      confidence := min 1 (receipts.length / 20)
      source := .historical
      sampleSize := receipts.length
      uncertainty := none
      bounded := historical_bounded }

theorem observe_ok (resource : ResourceVector) (receipt : ExecutionReceipt) :
    ∃ r, observe resource receipt = .ok r := by
  obtain ⟨eligible, heligible⟩ := eligibleResources_ok receipt resource
  obtain ⟨r, hr, -⟩ := blendResources_ok resource eligible alpha_nonneg alpha_le_one
  exact ⟨r, bind_ok.mpr ⟨eligible, heligible, hr⟩⟩

theorem foldl_observe_ok (receipts : List ExecutionReceipt) (resource : ResourceVector) :
    ∃ r, receipts.foldlM observe resource = .ok r := by
  induction receipts generalizing resource with
  | nil => exact ⟨resource, rfl⟩
  | cons receipt receipts ih =>
    obtain ⟨next, hnext⟩ := observe_ok resource receipt
    obtain ⟨r, hr⟩ := ih next
    exact ⟨r, by rw [List.foldlM_cons, hnext]; exact hr⟩

theorem historicalCash_ok (prior : CashEstimate) (receipts : List ExecutionReceipt) :
    ∃ cash, historicalCash prior receipts = .ok cash := by
  unfold historicalCash
  split
  · exact ⟨prior, rfl⟩
  · next first rest hamounts =>
    have hmem : ∀ amount ∈ first :: rest, 0 ≤ amount := by
      intro amount hamount
      rw [← hamounts] at hamount
      obtain ⟨receipt, -, hcost⟩ := List.mem_filterMap.mp hamount
      exact ExecutionReceipt.actualCash_nonneg hcost
    have hvalue : 0 ≤ rest.foldl (blend · · alpha) first := by
      refine List.foldlRecOn rest _ (hmem first List.mem_cons_self) fun value hvalue amount h => ?_
      exact le_blend alpha_nonneg alpha_le_one hvalue (hmem amount (List.mem_cons_of_mem _ h))
    refine ⟨_, CashEstimate.make_ok ⟨?_, fun _ h => absurd h (Option.not_mem_none _), fun _ => ?_,
      fun h => absurd rfl h, fun _ _ _ h => absurd h (Option.not_mem_none _)⟩⟩
    · rintro _ ⟨⟩
      exact hvalue
    · split <;> decide

theorem historical_ok {receipts : List ExecutionReceipt} (h : receipts ≠ [])
    (prior : RouteEstimate) : ∃ estimate, historical receipts prior = .ok estimate := by
  obtain ⟨first, rest, rfl⟩ := List.exists_cons_of_ne_nil h
  obtain ⟨resource, hresource⟩ := eligibleResources_ok first prior.resources
  obtain ⟨last, hlast⟩ := foldl_observe_ok rest resource
  obtain ⟨cash, hcash⟩ := historicalCash_ok prior.cash (first :: rest)
  simp only [historical, bind_ok, pure_ok]
  exact ⟨_, resource, hresource, last, hlast, cash, hcash, rfl⟩

/-! ## Uncertainty -/

/-- `math.sqrt` of the numbers that are not negative. -/
structure SquareRoot where
  root : ℚ → ℚ
  nonneg : ∀ q, 0 ≤ root q
  pos : ∀ q, 0 < q → 0 < root q

/-- A square root, to sixteen places. -/
def decimalRoot : SquareRoot where
  root q := (⌈q * 10 ^ 32⌉₊.sqrt : ℚ) / 10 ^ 16
  nonneg q := by positivity
  pos q h := by
    have : 0 < ⌈q * 10 ^ 32⌉₊.sqrt := Nat.sqrt_pos.mpr (Nat.ceil_pos.mpr (by positivity))
    positivity

def rank (values : List ℚ) (index : ℕ) : Result ℚ :=
  require (values.insertionSort (· ≤ ·))[index]? .fault

def nearestRank (values : List ℚ) (probability : ℚ) : Result ℚ :=
  rank values (⌈probability * values.length⌉₊ - 1)

def percentileStep (resources : List ResourceVector) (probability : ℚ) (values : ResourceField → ℚ)
    (field : ResourceField) : Result (ResourceField → ℚ) := do
  let value ← nearestRank (resources.map (·.value field)) probability
  pure (Function.update values field (field.rounded value))

def resourcePercentile (resources : List ResourceVector) (probability : ℚ) :
    Result ResourceVector := do
  let values ← ResourceField.all.foldlM (percentileStep resources probability) fun _ => 0
  ResourceVector.modelValidate values

/-- `fmean`. -/
def mean (values : List ℚ) : ℚ := values.sum / values.length

/-- The square of `pstdev`. -/
def variance (values : List ℚ) : ℚ := mean (values.map fun value => (value - mean values) ^ 2)

section Uncertainty

variable (sqrt : SquareRoot)

def squareRoot (q : ℚ) : Result ℚ := do
  raiseIf (q < 0) (.value "math domain error")
  pure (sqrt.root q)

/-- The deviates of a bound. -/
def deviates : ℚ := 196 / 100

def wilsonLowerBound (successes trials : ℕ) : Result ℚ := do
  raiseIf (trials = 0) .fault
  let proportion : ℚ := successes / trials
  let denominator := 1 + deviates * deviates / trials
  let centre := proportion + deviates * deviates / (2 * trials)
  let root ← squareRoot sqrt
    (proportion * (1 - proportion) / trials + deviates * deviates / (4 * trials * trials))
  pure (max 0 ((centre - deviates * root) / denominator))

def qualityLowerBound (quality : List ℚ) : Result (Option ℚ) :=
  if 5 ≤ quality.length then do
    let deviation ← squareRoot sqrt (variance quality)
    let root ← squareRoot sqrt quality.length
    raiseIf (root = 0) .fault
    pure (some (max 0 (min 1 (mean quality - deviates * deviation / root))))
  else pure none

def cashP95 (receipts : List ExecutionReceipt) : Result (Option ℚ) :=
  if receipts.all (·.actualCash.isSome) then do
    let amount ← rank (receipts.filterMap (·.actualCash)) (⌈(95 / 100 : ℚ) * receipts.length⌉₊ - 1)
    pure (some amount)
  else pure none

def empiricalUncertainty (receipts : List ExecutionReceipt) (cohortDigest : String) :
    Result (Option EstimateUncertainty) :=
  if hfew : receipts.length < 5 then pure none
  else do
    let resources := receipts.map (·.actualResources)
    let quality := receipts.filterMap (·.quality)
    let cash ← cashP95 receipts
    let qualityBound ← qualityLowerBound sqrt quality
    let p50 ← resourcePercentile resources (1 / 2)
    let p95 ← resourcePercentile resources (95 / 100)
    let successBound ← wilsonLowerBound sqrt (receipts.countP (·.succeeded)) receipts.length
    if h : (∀ amount ∈ cash, 0 ≤ amount) ∧ successBound ∈ Set.Icc 0 1 ∧
        ∀ bound ∈ qualityBound, bound ∈ Set.Icc (0 : ℚ) 1 then
      pure (some {
        sampleSize := receipts.length
        cohortDigest := cohortDigest
        resourcesP50 := p50
        resourcesP95 := p95
        cashP95Usd := cash
        successLowerBound := successBound
        qualitySampleSize := quality.length
        qualityLowerBound := qualityBound
        enough := not_lt.mp hfew
        cash_nonneg := h.1
        success_mem := h.2.1
        quality_mem := h.2.2 })
    else .error (.value "validation error for EstimateUncertainty")

end Uncertainty

theorem rank_ok {values : List ℚ} {index : ℕ} (h : index < values.length) :
    ∃ value ∈ values, rank values index = .ok value := by
  rw [← List.length_insertionSort (· ≤ ·)] at h
  refine ⟨(values.insertionSort (· ≤ ·))[index], ?_, ?_⟩
  · exact (List.mem_insertionSort _).mp (List.getElem_mem h)
  · rw [rank, require_ok, List.getElem?_eq_getElem h]

theorem nearestRank_ok {values : List ℚ} {p : ℚ} (hp : p ≤ 1) (h : values ≠ []) :
    ∃ value ∈ values, nearestRank values p = .ok value := by
  have hpos := List.length_pos_of_ne_nil h
  refine rank_ok ?_
  have hceil : ⌈p * values.length⌉₊ ≤ values.length := by
    rw [Nat.ceil_le]
    exact mul_le_of_le_one_left (by positivity) hp
  omega

theorem resourcePercentile_ok {resources : List ResourceVector} {p : ℚ} (hp : p ≤ 1)
    (h : resources ≠ []) : ∃ r, resourcePercentile resources p = .ok r := by
  have hfold (fields : List ResourceField) {values : ResourceField → ℚ}
      (hvalues : ResourceVector.Valid values) :
      ∃ values', fields.foldlM (percentileStep resources p) values = .ok values' ∧
        ResourceVector.Valid values' := by
    induction fields generalizing values with
    | nil => exact ⟨values, rfl, hvalues⟩
    | cons field fields ih =>
      have hne : resources.map (·.value field) ≠ [] := by simpa using h
      obtain ⟨value, hmem, hvalue⟩ := nearestRank_ok hp hne
      obtain ⟨r, -, rfl⟩ := List.mem_map.mp hmem
      have hnext := hvalues.update (field.rounded_nonneg (r.nonneg field)) (field.rounded_den _)
      obtain ⟨values', hrest, hvalid⟩ := ih hnext
      refine ⟨values', ?_, hvalid⟩
      rw [List.foldlM_cons, percentileStep, hvalue]
      exact hrest
  have hzero : ResourceVector.Valid fun _ => 0 := fun _ _ => ⟨le_rfl, fun _ => rfl⟩
  obtain ⟨values, hvalues, hvalid⟩ := hfold ResourceField.all hzero
  obtain ⟨r, hr, -⟩ := ResourceVector.modelValidate_isOk hvalid
  exact ⟨r, bind_ok.mpr ⟨values, hvalues, hr⟩⟩

section Uncertainty

variable {sqrt : SquareRoot}

theorem squareRoot_ok {q : ℚ} (h : 0 ≤ q) : squareRoot sqrt q = .ok (sqrt.root q) := by
  simp only [squareRoot, bind_ok, raiseIf_ok, pure_ok, exists_const, and_true]
  exact not_lt.mpr h

/-- The bound is a share: what is subtracted from the centre is not negative. -/
theorem wilsonLowerBound_ok {successes trials : ℕ} (h : successes ≤ trials) (h0 : 0 < trials) :
    ∃ bound, wilsonLowerBound sqrt successes trials = .ok bound ∧ bound ∈ Set.Icc (0 : ℚ) 1 := by
  have htrials : (0 : ℚ) < trials := by exact_mod_cast h0
  have hp0 : (0 : ℚ) ≤ successes / trials := by positivity
  have hp1 : (successes / trials : ℚ) ≤ 1 := by
    rw [div_le_one htrials]
    exact_mod_cast h
  have hz : (0 : ℚ) ≤ deviates := by norm_num [deviates]
  have harg : (0 : ℚ) ≤ successes / trials * (1 - successes / trials) / trials +
      deviates * deviates / (4 * trials * trials) := by
    have := mul_nonneg hp0 (sub_nonneg.mpr hp1)
    positivity
  have hhalf : deviates * deviates / (2 * trials) ≤ deviates * deviates / trials :=
    div_le_div_of_nonneg_left (by positivity) htrials (by linarith)
  have hden : 0 < 1 + deviates * deviates / trials := by positivity
  have hmargin := mul_nonneg hz (sqrt.nonneg (successes / trials * (1 - successes / trials) / trials +
    deviates * deviates / (4 * trials * trials)))
  simp only [wilsonLowerBound, bind_ok, raiseIf_ok, pure_ok, exists_const, squareRoot_ok harg,
    Except.ok.injEq, exists_eq_left']
  refine ⟨_, ⟨h0.ne', rfl⟩, le_max_left _ _, max_le zero_le_one ?_⟩
  rw [div_le_one hden]
  linarith

theorem variance_nonneg (values : List ℚ) : 0 ≤ variance values := by
  unfold variance
  generalize mean values = m
  refine div_nonneg (List.sum_nonneg fun square hsquare => ?_) (by positivity)
  obtain ⟨value, -, rfl⟩ := List.mem_map.mp hsquare
  exact sq_nonneg _

theorem qualityLowerBound_ok (quality : List ℚ) :
    ∃ bound, qualityLowerBound sqrt quality = .ok bound ∧ ∀ b ∈ bound, b ∈ Set.Icc (0 : ℚ) 1 := by
  unfold qualityLowerBound
  split
  · next henough =>
    have hlength : (0 : ℚ) < quality.length := by
      exact_mod_cast (by omega : 0 < quality.length)
    simp only [bind_ok, raiseIf_ok, pure_ok, exists_const, squareRoot_ok (variance_nonneg quality),
      squareRoot_ok hlength.le, Except.ok.injEq]
    refine ⟨_, ⟨_, rfl, _, rfl, (sqrt.pos _ hlength).ne', rfl⟩, ?_⟩
    rintro _ ⟨⟩
    exact ⟨le_max_left _ _, max_le zero_le_one (min_le_left _ _)⟩
  · exact ⟨none, rfl, fun b h => absurd h (Option.not_mem_none b)⟩

theorem cashP95_ok {receipts : List ExecutionReceipt} (h : receipts ≠ []) :
    ∃ cash, cashP95 receipts = .ok cash ∧ ∀ amount ∈ cash, 0 ≤ amount := by
  unfold cashP95
  split
  · next hall =>
    have hpos := List.length_pos_of_ne_nil h
    have hceil : ⌈(95 / 100 : ℚ) * receipts.length⌉₊ ≤ receipts.length := by
      rw [Nat.ceil_le]
      exact mul_le_of_le_one_left (by positivity) (by norm_num)
    have hlength : (receipts.filterMap (·.actualCash)).length = receipts.length := by
      rw [List.length_filterMap_eq_countP, List.countP_eq_length]
      simpa using hall
    have hindex : ⌈(95 / 100 : ℚ) * receipts.length⌉₊ - 1 <
        (receipts.filterMap (·.actualCash)).length := by omega
    obtain ⟨amount, hmem, hamount⟩ := rank_ok hindex
    refine ⟨some amount, bind_ok.mpr ⟨amount, hamount, rfl⟩, ?_⟩
    rintro _ ⟨⟩
    obtain ⟨receipt, -, hcost⟩ := List.mem_filterMap.mp hmem
    exact ExecutionReceipt.actualCash_nonneg hcost
  · exact ⟨none, rfl, fun amount h => absurd h (Option.not_mem_none amount)⟩

theorem empiricalUncertainty_ok {receipts : List ExecutionReceipt} (h : receipts ≠ [])
    (cohortDigest : String) :
    ∃ uncertainty, empiricalUncertainty sqrt receipts cohortDigest = .ok uncertainty := by
  unfold empiricalUncertainty
  split
  · exact ⟨none, rfl⟩
  · have hresources : receipts.map (·.actualResources) ≠ [] := by simpa using h
    have hcount : receipts.countP (·.succeeded) ≤ receipts.length := List.countP_le_length
    obtain ⟨cash, hcash, hamount⟩ := cashP95_ok h
    obtain ⟨quality, hquality, hbound⟩ := @qualityLowerBound_ok sqrt (receipts.filterMap (·.quality))
    obtain ⟨p50, hp50⟩ := resourcePercentile_ok (by norm_num : (1 / 2 : ℚ) ≤ 1) hresources
    obtain ⟨p95, hp95⟩ := resourcePercentile_ok (by norm_num : (95 / 100 : ℚ) ≤ 1) hresources
    obtain ⟨success, hsuccess, hmem⟩ :=
      @wilsonLowerBound_ok sqrt _ _ hcount (List.length_pos_of_ne_nil h)
    have hchecks := And.intro hamount (And.intro hmem hbound)
    simp only [bind_ok, hcash, hquality, hp50, hp95, hsuccess, Except.ok.injEq, exists_eq_left']
    exact ⟨_, dif_pos hchecks⟩

end Uncertainty

/-! ## The store -/

structure StoredReceipt where
  executorId : String
  executorFingerprint : Option String
  cohortDigest : Option String
  startedAt : Int
  receipt : ExecutionReceipt

structure ReceiptStore where
  receipts : List StoredReceipt
  evidenceRecords : String → List EvidenceRecord
  evidenceAcceptances : String → List EvidenceAcceptance
  hostRuntimeDigests : String → Option (String × String)

def ReceiptStore.receiptsForCohort (store : ReceiptStore)
    (executorId executorFingerprint cohortDigest : String) (limit : ℕ) : List ExecutionReceipt :=
  let rows := store.receipts.filter fun row => row.executorId = executorId ∧
    row.executorFingerprint = some executorFingerprint ∧ row.cohortDigest = some cohortDigest
  let newest := rows.insertionSort fun a b => b.startedAt ≤ a.startedAt
  ((newest.take (max 1 (min limit 10000))).map (·.receipt)).reverse

structure PolicyConfig where
  historyWeight : ℚ
  historyPriorSamples : ℕ
  evidenceReuse : EvidenceReuse
  weight_mem : historyWeight ∈ Set.Icc 0 1
  samples_pos : 1 ≤ historyPriorSamples

/-- What the estimator reads of an `ExecutorSpec`; only digests read the configuration. -/
structure ExecutorSpec where
  id : String
  kind : ExecutorKind
  config : String
  estimate : RouteEstimate

/-- The digests of an executor: of its behavior, and of its cohort with a bucket of sizes and the
runtime of a host. -/
structure Digests where
  behaviorFingerprint : ExecutorSpec → String
  cohortDigest : ExecutorSpec → String → Option String → String

/-! ## The estimate -/

/-- The weight of the history of `n` receipts. -/
def historyShare (policy : PolicyConfig) (n : ℕ) : ℚ :=
  policy.historyWeight * (n / (n + policy.historyPriorSamples))

/-- A part of the prior is left. -/
theorem historyShare_mem (policy : PolicyConfig) (n : ℕ) :
    historyShare policy n ∈ Set.Ico (0 : ℚ) 1 := by
  obtain ⟨h0, h1⟩ := policy.weight_mem
  have hprior : (1 : ℚ) ≤ policy.historyPriorSamples := by exact_mod_cast policy.samples_pos
  have hn : (0 : ℚ) ≤ n := Nat.cast_nonneg n
  have hfactor : (n : ℚ) / (n + policy.historyPriorSamples) < 1 := by
    rw [div_lt_one (by linarith)]
    linarith
  have hfactor0 : (0 : ℚ) ≤ n / (n + policy.historyPriorSamples) := by positivity
  refine ⟨mul_nonneg h0 hfactor0, ?_⟩
  calc policy.historyWeight * (n / (n + policy.historyPriorSamples))
      ≤ 1 * (n / (n + policy.historyPriorSamples)) := mul_le_mul_of_nonneg_right h1 hfactor0
    _ < 1 := by rwa [one_mul]

theorem blended_bounded {static prior historical : RouteEstimate} {w : ℚ}
    (hw : w ∈ Set.Ico (0 : ℚ) 1) :
    Bounded (blend static.successProbability historical.successProbability w)
      (blend static.qualityScore historical.qualityScore w)
      (blend static.riskScore historical.riskScore w)
      (min 1 (blend prior.confidence historical.confidence w)) where
  success := blend_mem_Icc hw.1 hw.2.le static.bounded.success historical.bounded.success
  quality := blend_mem_Icc hw.1 hw.2.le static.bounded.quality historical.bounded.quality
  risk := blend_mem_Icc hw.1 hw.2.le static.bounded.risk historical.bounded.risk
  confident := ⟨le_min zero_le_one (le_blend hw.1 hw.2.le prior.bounded.confident.1
    historical.bounded.confident.1), min_le_left _ _⟩

section Estimate

variable (floatOf : String → Option ℚ) (sqrt : SquareRoot) (digests : Digests)

def priorOf (store : ReceiptStore) (spec : ExecutorSpec) (policy : PolicyConfig) :
    Result RouteEstimate :=
  sharedPrior floatOf policy.evidenceReuse (store.evidenceRecords spec.id)
    (store.evidenceAcceptances spec.id) spec.estimate

/-- The estimate with receipts. The success probability, the quality and the risk are blended with
those of the specification. -/
def blended (spec : ExecutorSpec) (policy : PolicyConfig) (base : RouteEstimate)
    (receipts : List ExecutionReceipt) (cohort : String) : Result RouteEstimate := do
  let historical ← historical receipts base
  let uncertainty ← empiricalUncertainty sqrt receipts cohort
  let weight := historyShare policy receipts.length
  let resources ← blendResources base.resources historical.resources weight
  let cash ← blendCash base.cash historical.cash weight
  pure {
    resources := resources
    cash := cash
    subscriptionUsage :=
      if historical.subscriptionUsage ≠ [] then historical.subscriptionUsage
      else spec.estimate.subscriptionUsage
    successProbability :=
      blend spec.estimate.successProbability historical.successProbability weight
    qualityScore := blend spec.estimate.qualityScore historical.qualityScore weight
    riskScore := blend spec.estimate.riskScore historical.riskScore weight
    confidence := min 1 (blend base.confidence historical.confidence weight)
    source := .blended
    sampleSize := receipts.length
    uncertainty := uncertainty
    bounded := blended_bounded (historyShare_mem policy receipts.length) }

/-- The runtime that the receipts of an executor have; `none` for a host without a binding. -/
def runtimeDigest (store : ReceiptStore) (spec : ExecutorSpec) : Option (Option String) :=
  if spec.kind = .managedHost then
    ((store.hostRuntimeDigests spec.id).filter
      (·.1 = digests.behaviorFingerprint spec)).map fun binding => some binding.2
  else some none

/-- Receipts that tell how an execution ended. -/
def counted (receipt : ExecutionReceipt) : Bool :=
  receipt.status ∉ [ExecutionStatus.delegated, .hostSelected, .unknown]

def cohortReceipts (store : ReceiptStore) (spec : ExecutorSpec) (cohort : String) :
    List ExecutionReceipt :=
  (store.receiptsForCohort spec.id ("sha256:" ++ digests.behaviorFingerprint spec) cohort 200).filter
    counted

/-- `HistoricalEstimator.estimate`. -/
def estimate (store : ReceiptStore) (spec : ExecutorSpec) (policy : PolicyConfig)
    (sizeBucket : Option String) : Result RouteEstimate := do
  let base ← priorOf floatOf store spec policy
  match runtimeDigest digests store spec with
  | none => pure base
  | some runtime =>
    let cohort := digests.cohortDigest spec (sizeBucket.getD "unknown") runtime
    let receipts := cohortReceipts digests store spec cohort
    if receipts = [] then pure base else blended sqrt spec policy base receipts cohort

def history (store : ReceiptStore) (spec : ExecutorSpec) (sizeBucket : Option String) :
    List ExecutionReceipt :=
  match runtimeDigest digests store spec with
  | none => []
  | some runtime =>
    cohortReceipts digests store spec (digests.cohortDigest spec (sizeBucket.getD "unknown") runtime)

end Estimate

/-! ## The law of the blend -/

/-- Each measure of an estimate is the weighted mean of a prior and a historical estimate, up to
the rounding of tokens and bytes. It lies between them, and a part of the prior is left. -/
structure Blends (w : ℚ) (prior historical estimate : RouteEstimate) : Prop where
  law : ∀ m, estimate.measure m = m.rounded ((1 - w) * prior.measure m + w * historical.measure m)
  between : ∀ m, min (prior.measure m) (historical.measure m) ≤ estimate.measure m ∧
    estimate.measure m ≤ max (prior.measure m) (historical.measure m)
  kept : w ∈ Set.Ico 0 1

/-- The weighted means of two estimates lie between them. -/
theorem Blends.of_law {w : ℚ} {prior historical estimate : RouteEstimate}
    (hw : w ∈ Set.Ico (0 : ℚ) 1)
    (h : ∀ m, estimate.measure m = m.rounded (blend (prior.measure m) (historical.measure m) w)) :
    Blends w prior historical estimate where
  law m := by
    rw [h, blend]
    congr 1
    ring
  between m := by
    have hlow := m.rounded_mono (le_blend hw.1 hw.2.le (min_le_left _ _)
      (min_le_right (prior.measure m) (historical.measure m)))
    have hhigh := m.rounded_mono (blend_le hw.1 hw.2.le (le_max_left _ _)
      (le_max_right (prior.measure m) (historical.measure m)))
    rw [← h] at hlow hhigh
    rw [m.rounded_mono.map_min, prior.rounded_measure, historical.rounded_measure] at hlow
    rw [m.rounded_mono.map_max, prior.rounded_measure, historical.rounded_measure] at hhigh
    exact ⟨hlow, hhigh⟩
  kept := hw

section Law

variable {sqrt : SquareRoot} {spec : ExecutorSpec} {policy : PolicyConfig} {base : RouteEstimate}
  {receipts : List ExecutionReceipt} {cohort : String}

/-- The estimate with receipts never fails. Its success probability, quality and risk are blended
with those of the specification, and all else with the prior. -/
theorem blended_spec (h : receipts ≠ []) :
    ∃ historicalEstimate estimate, historical receipts base = .ok historicalEstimate ∧
      blended sqrt spec policy base receipts cohort = .ok estimate ∧
      estimate.successProbability = blend spec.estimate.successProbability
        historicalEstimate.successProbability (historyShare policy receipts.length) ∧
      estimate.qualityScore = blend spec.estimate.qualityScore historicalEstimate.qualityScore
        (historyShare policy receipts.length) ∧
      estimate.riskScore = blend spec.estimate.riskScore historicalEstimate.riskScore
        (historyShare policy receipts.length) ∧
      estimate.confidence = blend base.confidence historicalEstimate.confidence
        (historyShare policy receipts.length) ∧
      ∀ field, estimate.resources.value field = field.rounded (blend (base.resources.value field)
        (historicalEstimate.resources.value field) (historyShare policy receipts.length)) := by
  obtain ⟨h0, h1⟩ := historyShare_mem policy receipts.length
  obtain ⟨historicalEstimate, hhistorical⟩ := historical_ok h base
  obtain ⟨uncertainty, huncertainty⟩ := @empiricalUncertainty_ok sqrt _ h cohort
  obtain ⟨resources, hresources, hvalue⟩ :=
    blendResources_ok base.resources historicalEstimate.resources h0 h1.le
  obtain ⟨cash, hcash⟩ := blendCash_ok base.cash historicalEstimate.cash h0 h1.le
  have hconfidence : blend base.confidence historicalEstimate.confidence
      (historyShare policy receipts.length) ≤ 1 :=
    blend_le h0 h1.le base.bounded.confident.2 historicalEstimate.bounded.confident.2
  simp only [blended, bind_ok, pure_ok, hhistorical, huncertainty, Except.ok.injEq, exists_eq_left']
  exact ⟨_, _, rfl, ⟨resources, hresources, cash, hcash, rfl⟩, rfl, rfl, rfl, min_eq_right hconfidence,
    hvalue⟩

end Law

section Estimate

variable (floatOf : String → Option ℚ) (sqrt : SquareRoot) (digests : Digests)

/-- The estimate does not fail, and with a history it is a blend of the prior after shared evidence
and the historical estimate. -/
def Meets (store : ReceiptStore) (spec : ExecutorSpec) (policy : PolicyConfig)
    (sizeBucket : Option String) : Prop :=
  ∃ result, estimate floatOf sqrt digests store spec policy sizeBucket = .ok result ∧
    (history digests store spec sizeBucket ≠ [] →
      ∃ prior historicalEstimate, priorOf floatOf store spec policy = .ok prior ∧
        historical (history digests store spec sizeBucket) prior = .ok historicalEstimate ∧
        Blends (historyShare policy (history digests store spec sizeBucket).length)
          prior historicalEstimate result)

variable {floatOf sqrt digests} {store : ReceiptStore} {spec : ExecutorSpec} {policy : PolicyConfig}
  {sizeBucket : Option String} {prior result : RouteEstimate}

theorem estimate_ok_iff :
    (∃ result, estimate floatOf sqrt digests store spec policy sizeBucket = .ok result) ↔
      ∃ prior, priorOf floatOf store spec policy = .ok prior := by
  simp only [estimate, bind_ok]
  constructor
  · rintro ⟨-, prior, hprior, -⟩
    exact ⟨prior, hprior⟩
  · rintro ⟨prior, hprior⟩
    suffices h : ∃ result, _ = Except.ok result from
      h.imp fun result h => ⟨prior, hprior, h⟩
    split
    · exact ⟨prior, rfl⟩
    · split
      · exact ⟨prior, rfl⟩
      · next hne =>
        obtain ⟨-, result, -, hresult, -⟩ := blended_spec hne
        exact ⟨result, hresult⟩

theorem estimate_of_history (hhistory : history digests store spec sizeBucket ≠ [])
    (hprior : priorOf floatOf store spec policy = .ok prior) :
    ∃ cohort, estimate floatOf sqrt digests store spec policy sizeBucket =
      blended sqrt spec policy prior (history digests store spec sizeBucket) cohort := by
  unfold history at hhistory ⊢
  unfold estimate
  rw [hprior]
  cases hruntime : runtimeDigest digests store spec with
  | none => simp [hruntime] at hhistory
  | some runtime =>
    simp only [hruntime] at hhistory ⊢
    exact ⟨digests.cohortDigest spec (sizeBucket.getD "unknown") runtime, if_neg hhistory⟩

theorem meets_iff_of_history (hhistory : history digests store spec sizeBucket ≠ [])
    (hprior : priorOf floatOf store spec policy = .ok prior) :
    Meets floatOf sqrt digests store spec policy sizeBucket ↔
      prior.successProbability = spec.estimate.successProbability ∧
        prior.qualityScore = spec.estimate.qualityScore := by
  obtain ⟨cohort, hestimate⟩ := @estimate_of_history floatOf sqrt _ _ _ _ _ _ hhistory hprior
  obtain ⟨historicalEstimate, result, hhistorical, hresult, hsuccess, hquality, hrisk, hconfidence,
    hresources⟩ := @blended_spec sqrt spec policy prior _ cohort hhistory
  have hshare := historyShare_mem policy (history digests store spec sizeBucket).length
  constructor
  · rintro ⟨result', hresult', hlaw⟩
    obtain ⟨prior', historicalEstimate', hprior', hhistorical', hblends⟩ := hlaw hhistory
    cases hprior.symm.trans hprior'
    cases hhistorical.symm.trans hhistorical'
    cases (hestimate.trans hresult).symm.trans hresult'
    have hlaw (m : Measure) := hblends.law m
    have hsuccess' := hlaw .successProbability
    have hquality' := hlaw .qualityScore
    simp only [RouteEstimate.measure, Measure.rounded, hsuccess, hquality, blend] at hsuccess' hquality'
    have hne : 1 - historyShare policy (history digests store spec sizeBucket).length ≠ 0 := by
      linarith [hshare.2]
    exact ⟨mul_left_cancel₀ hne (by linarith), mul_left_cancel₀ hne (by linarith)⟩
  · rintro ⟨hpriorSuccess, hpriorQuality⟩
    refine ⟨result, hestimate.trans hresult, fun _ => ⟨prior, historicalEstimate, hprior, hhistorical,
      .of_law hshare fun m => ?_⟩⟩
    have hpriorRisk : prior.riskScore = spec.estimate.riskScore := (sharedPrior_spec hprior).1
    cases m with
    | successProbability => rw [RouteEstimate.measure, hsuccess, ← hpriorSuccess]; rfl
    | qualityScore => rw [RouteEstimate.measure, hquality, ← hpriorQuality]; rfl
    | riskScore => rw [RouteEstimate.measure, hrisk, ← hpriorRisk]; rfl
    | confidence => exact hconfidence
    | resource field => exact hresources field

/-- The condition on what is stored of an executor under which the law holds. -/
def Harmless (floatOf : String → Option ℚ) (digests : Digests) (store : ReceiptStore)
    (spec : ExecutorSpec) (policy : PolicyConfig) (sizeBucket : Option String) : Prop :=
  policy.evidenceReuse.enabled → ∀ item ∈ latest (store.evidenceAcceptances spec.id),
    Suits floatOf policy.evidenceReuse (summaryOf (store.evidenceRecords spec.id)) spec.estimate item ∧
      (history digests store spec sizeBucket ≠ [] →
        Still floatOf policy.evidenceReuse (summaryOf (store.evidenceRecords spec.id)) spec.estimate
          item)

theorem priorOf_ok_iff :
    (∃ prior, priorOf floatOf store spec policy = .ok prior) ↔
      (policy.evidenceReuse.enabled → ∀ item ∈ latest (store.evidenceAcceptances spec.id),
        Suits floatOf policy.evidenceReuse (summaryOf (store.evidenceRecords spec.id)) spec.estimate
          item) :=
  sharedPrior_ok_iff

theorem Meets.harmless (h : Meets floatOf sqrt digests store spec policy sizeBucket) :
    Harmless floatOf digests store spec policy sizeBucket := by
  intro henabled item hitem
  obtain ⟨prior, hprior⟩ := estimate_ok_iff.mp (h.imp fun _ hresult => hresult.1)
  refine ⟨priorOf_ok_iff.mp ⟨prior, hprior⟩ henabled item hitem, fun hhistory => ?_⟩
  have hsame := (meets_iff_of_history hhistory hprior).mp h
  exact (sharedPrior_spec hprior).2.mp hsame henabled item hitem

theorem Harmless.meets (h : Harmless floatOf digests store spec policy sizeBucket) :
    Meets floatOf sqrt digests store spec policy sizeBucket := by
  obtain ⟨prior, hprior⟩ := priorOf_ok_iff.mpr fun henabled item hitem => (h henabled item hitem).1
  by_cases hhistory : history digests store spec sizeBucket = []
  · obtain ⟨result, hresult⟩ := estimate_ok_iff.mpr ⟨prior, hprior⟩
    exact ⟨result, hresult, fun hne => absurd hhistory hne⟩
  · have hstill := fun henabled item hitem => (h henabled item hitem).2 hhistory
    exact (meets_iff_of_history hhistory hprior).mpr ((sharedPrior_spec hprior).2.mpr hstill)

end Estimate

/-! ## Evidence that is lost, and evidence that does not fit -/

section Lost

def noResources : ResourceVector := ⟨fun _ => 0, fun _ => le_rfl, fun _ _ => rfl⟩

theorem pricedCash_valid (evidence : MeasurementEvidence) (h : evidence.status = .complete) :
    ValidBounds (some 1) (some 2) evidence where
  amount_nonneg _ ha := Option.some.inj ha ▸ zero_le_one
  upper_nonneg _ hu := Option.some.inj hu ▸ zero_le_two
  known _ := by simp [h]
  bounded _ := by simp [h]
  ordered _ ha _ hu := Option.some.inj ha ▸ Option.some.inj hu ▸ one_le_two

/-- One dollar, and two at most. -/
def pricedCash : CashEstimate :=
  ⟨some 1, some 2, ⟨.complete, .staticEstimate, .observed, none, none, none, none,
    consistent_static⟩, pricedCash_valid _ rfl⟩

theorem reliable_bounded : Bounded (19 / 20) (19 / 20) (1 / 20) (1 / 2) := by
  constructor <;> constructor <;> norm_num

def reliableSpec : ExecutorSpec where
  id := "reader"
  kind := .command
  config := ""
  estimate := {
    resources := noResources
    cash := pricedCash
    subscriptionUsage := []
    successProbability := 19 / 20
    qualityScore := 19 / 20
    riskScore := 1 / 20
    confidence := 1 / 2
    source := .static
    sampleSize := 0
    uncertainty := none
    bounded := reliable_bounded }

theorem historyWeight_mem : (7 / 10 : ℚ) ∈ Set.Icc 0 1 := by constructor <;> norm_num

theorem sharedWeight_bounds : (17 / 20 : ℚ) ∈ Set.Icc 0 1 := by constructor <;> norm_num

theorem one_le_five : 1 ≤ 5 := by decide

def defaultPolicy : PolicyConfig where
  historyWeight := 7 / 10
  historyPriorSamples := 5
  evidenceReuse := ⟨true, 17 / 20, 5, sharedWeight_bounds, one_le_five⟩
  weight_mem := historyWeight_mem
  samples_pos := one_le_five

theorem one_bounds : (1 : ℚ) ∈ Set.Icc 0 1 := ⟨zero_le_one, le_rfl⟩

def acceptanceOf (metric : String) : EvidenceAcceptance :=
  ⟨"shared", metric, .accepted, 1, .verified, 0, one_bounds⟩

/-- Twenty trials, of which four succeeded, at ten dollars each. -/
def trialsSummary : Summary :=
  [("sample_size", .num 20), ("success", .obj [("success_rate", .num (1 / 5))]),
    ("cost", .obj [("actual_cash_usd", .num 10)])]

def successReceipt : ExecutionReceipt where
  status := .success
  actualResources := noResources
  cash := ⟨.unavailable, []⟩
  subscriptionUsage := []
  taskValid := none
  qualityScore := none
  outputValid := none
  charged := fun _ h => absurd h List.not_mem_nil

def plainDigests : Digests := ⟨fun spec => spec.id, fun spec _ _ => spec.id⟩

def evidenceStore (metric : String) (receipts : List ExecutionReceipt) : ReceiptStore where
  receipts := receipts.map fun receipt => ⟨"reader", some "sha256:reader", some "reader", 0, receipt⟩
  evidenceRecords _ := [⟨"shared", some trialsSummary⟩]
  evidenceAcceptances _ := [acceptanceOf metric]
  hostRuntimeDigests _ := none

theorem acceptance_weight (metric : String) :
    sharedWeight defaultPolicy.evidenceReuse (acceptanceOf metric) 20 = 4 / 5 := by
  simp [sharedWeight, defaultPolicy, acceptanceOf]
  norm_num

end Lost

end AeepRouter.Estimator

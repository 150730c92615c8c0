import AeepRouter.Lib.Resample
import AeepRouter.Benchmark.Records

/-!
# Reports of an assessment

`fitReport` compares the trials of a candidate and a baseline position by position, and resamples
the template families and cases of the differences. A resample draws by index from the families and
cases in the order they were first seen: the order of the trials, and for `incrementalUtility` the
order in which a set of positions is iterated.

Times and rates are exact. The generator and the order of the positions are arguments.
-/

namespace AeepRouter.Reporting

open Lib Benchmark

/-! ## Measurements -/

abbrev Measurements := List (String × Option ℚ)

namespace Measurements

def put (result : Measurements) (key : String) (value : Option ℚ) : Measurements :=
  result.filter (·.1 ≠ key) ++ [(key, value)]

def get (result : Measurements) (key : String) : Option ℚ :=
  (result.find? (·.1 = key)).bind (·.2)

/-- Adds to a key, which stays unknown once an amount is. -/
def add (result : Measurements) (key : String) (amount : Option ℚ) : Measurements :=
  match result.find? (·.1 = key) with
  | none => result.put key amount
  | some (_, known) => result.put key (known.bind fun total => amount.map (total + ·))

end Measurements

def usageMeasurements (usage : ModelTokenUsage) : Measurements :=
  let pre := s!"model.{usage.provider}.{usage.model}.{usage.accessChannel.value}."
  [ ("input_tokens", usage.inputTokens), ("cached_input_tokens", usage.cachedInputTokens),
    ("cache_write_input_tokens", usage.cacheWriteInputTokens),
    ("output_tokens", usage.outputTokens),
    ("reasoning_output_tokens", usage.reasoningOutputTokens) ].map fun (field, count) =>
      (pre ++ field, if usage.evidence.measured then some (count : ℚ) else none)

def subscriptionMeasurement (subscription : SubscriptionUsage) : String × Option ℚ :=
  (s!"subscription.{subscription.provider}.{subscription.resourcePool}.{subscription.unit}",
    if subscription.source.measured then subscription.consumed else none)

def resourceMeasurements (accounting : Benchmark.ResourceAccounting) (resources : ResourceVector) :
    Measurements :=
  let currencies := (accounting.cash.components.map (·.currency)).eraseDups
  let cash : Measurements := currencies.map fun currency =>
    ("cash." ++ currency, accounting.cash.actualCashCost currency)
  let amounts := accounting.modelUsage.flatMap usageMeasurements ++
    accounting.subscriptionUsage.map subscriptionMeasurement
  let counted := amounts.foldl (fun result (key, amount) => result.add key amount) cash
  -- a zero cannot prove that nothing was used
  [ ("cpu_ms", resources.cpuMs), ("memory_mb_seconds", resources.memoryMbSeconds),
    ("gpu_ms", resources.gpuMs), ("network_bytes", resources.networkBytes) ].foldl
      (fun result (field, value) =>
        result.put ("local." ++ field) (if 0 < value then some value else none)) counted

def nativeMeasurements (trial : BenchmarkTrial) : Measurements :=
  resourceMeasurements trial.accounting trial.actualResources

/-! ## Intervals -/

def minimumPairedCases : ℕ := 20

def minimumHoldoutCases : ℕ := 100

/-- The resamples of `paired_interval`. -/
def resampleCount : ℕ := 2000

def lowerIndex (alpha : ℚ) : ℕ := (max 0 (⌊(resampleCount : ℚ) * alpha / 2⌋ - 1)).toNat

def upperIndex (alpha : ℚ) : ℕ :=
  (min ((resampleCount : Int) - 1) (⌊(resampleCount : ℚ) * (1 - alpha / 2)⌋ - 1)).toNat

def familyMembers (f : Aggregate) (family : String → Option String)
    (differences : List (String × ℚ)) : List (String × ℚ) :=
  (aggregates f differences).filterMap fun (case, value) => (family case).map (·, value)

def pairedInterval (g : Generator) (f : Aggregate) (family : String → Option String) (seed : Int)
    (alpha : ℚ) (differences : List (String × ℚ)) : Option ℚ × Option (ℚ × ℚ) :=
  let cases := aggregates f differences
  if cases.any fun (case, _) => family case = none then (none, none)
  else
    let savings := if cases = [] then none else some (f (cases.map (·.2)))
    if cases.length < minimumPairedCases then (savings, none)
    else
      let groups := (groups (familyMembers f family differences)).map (·.2)
      let estimates := g.resamples f groups resampleCount seed
      (savings, some (estimates.getD (lowerIndex alpha) 0, estimates.getD (upperIndex alpha) 0))

/-! ## Plans -/

structure UtilityPolicy where
  benefitDimensions : List String
  guardrailDimensions : List String
  minimumResourceBenefit : ℚ
  minimumSuccessGain : ℚ
  maximumResourceRegression : ℚ
  familyErrorRate : ℚ
  rate : 0 < familyErrorRate ∧ familyErrorRate ≤ 1 / 20
  deriving DecidableEq, Repr

inductive ExperimentStage where
  | qualification
  | marginalValue
  | nativeCatalog
  | aeepValue (normalHost : String)
  deriving DecidableEq, Repr

structure IncrementalExperiment where
  stage : ExperimentStage
  utility : UtilityPolicy
  challengers : List String
  feasibleChallengers : List String
  deriving DecidableEq, Repr

inductive ComparisonStructure where
  | direct
  | controlledAgent
  | workflow
  deriving DecidableEq, Repr

structure AssessmentComparison where
  comparisonStructure : ComparisonStructure
  /-- Whether the candidate has a `host_config`. -/
  candidateHosted : Bool
  primaryCondition : TrialCondition
  experiment : Option IncrementalExperiment
  deriving DecidableEq, Repr

structure AssessmentPlan where
  candidateId : String
  baselineId : String
  referenceId : Option String
  suite : BenchmarkSuite
  comparison : Option AssessmentComparison
  /-- Whether the plan is a timing pilot. -/
  pilot : Bool

structure RecipeDefinition where
  variations : List String
  deriving DecidableEq, Repr

/-- `case.rsplit("-", 1)[0]`. -/
def caseStem (case : String) : String :=
  if '-' ∈ case.toList then
    String.ofList ((case.toList.reverse.dropWhile (· ≠ '-')).tail.reverse)
  else case

namespace AssessmentPlan

variable (plan : AssessmentPlan)

def experiment : Option IncrementalExperiment := plan.comparison.bind (·.experiment)

def condition : Option TrialCondition := plan.comparison.map (·.primaryCondition)

/-- `families.get(case)`. -/
def templateFamily (case : String) : Option String :=
  (plan.suite.cases.find? (·.caseId = case)).bind (·.templateFamily)

/-- The family of a case in the intervals of a report. -/
def family (case : String) : Option String :=
  if plan.comparison.isSome then plan.templateFamily case else some (caseStem case)

/-- The cases held out. -/
def expected : List String := (plan.suite.cases.filter (·.split = .holdout)).map (·.caseId)

/-- The set of positions of the cases held out. -/
def positions : List (String × ℕ) := plan.expected.product (List.range plan.suite.repetitions)

end AssessmentPlan

/-! ## Trials -/

def passed (trial : BenchmarkTrial) : Bool := trial.ok ∧ trial.valid = some true

def runAt (trials : List BenchmarkTrial) (keep : BenchmarkTrial → Bool) (at_ : Position) :
    Option BenchmarkTrial :=
  lastAt position (trials.filter keep) at_

section Campaign

variable (plan : AssessmentPlan) (recipe : RecipeDefinition) (trials : List BenchmarkTrial)

def selected : List BenchmarkTrial :=
  trials.filter fun trial => trial.routeId = plan.candidateId ∧ trial.phase = .holdout

def failed (trial : BenchmarkTrial) : Bool :=
  trial.correctnessFailed = some true ∨
    (trial.correctnessFailed = none ∧ trial.ok ∧ trial.valid = some false)

def failures : ℕ :=
  (trials.filter fun trial =>
    trial.routeId = plan.candidateId ∧ trial.phase ≠ .setup ∧ failed trial).length

def cases : List String := ((selected plan trials).map (·.caseId)).eraseDups

def Covered (variation : String) : Prop :=
  ∃ case ∈ plan.suite.cases, case.caseId ∈ cases plan trials ∧
    if plan.comparison.isSome then case.variation = some variation
    else ("-" ++ variation ++ "-").toList <:+: case.caseId.toList

instance : DecidablePred (Covered plan trials) := fun _ => by unfold Covered; infer_instance

def OneModel (runs : List BenchmarkTrial) : Prop :=
  (∀ trial ∈ runs, trial.hostModels.getD [] ≠ []) ∧
    (runs.flatMap fun trial => (trial.hostModels.getD []).map (·.2)).eraseDups.length = 1

instance (runs : List BenchmarkTrial) : Decidable (OneModel runs) := by
  unfold OneModel
  infer_instance

def heldOut (routes : List String) : List BenchmarkTrial :=
  trials.filter fun trial => trial.phase = .holdout ∧ trial.routeId ∈ routes

def incrementalManaged (comparison : AssessmentComparison) : Bool :=
  comparison.experiment.isSome ∧ comparison.candidateHosted

def ModelsMatch : Prop :=
  ∀ comparison ∈ plan.comparison,
    comparison.comparisonStructure = .controlledAgent ∨ incrementalManaged comparison →
    OneModel (heldOut trials [plan.candidateId, plan.baselineId]) ∧
    ∀ experiment ∈ comparison.experiment, incrementalManaged comparison →
      OneModel (heldOut trials (plan.candidateId :: plan.baselineId :: experiment.challengers))

instance : Decidable (ModelsMatch plan trials) := by unfold ModelsMatch; infer_instance

def CompletePositions : Prop :=
  (∀ trial ∈ selected plan trials, trial.caseId ∈ plan.expected ∧
    trial.condition ∈ plan.suite.conditions ∧ trial.repetition < plan.suite.repetitions) ∧
  ∀ case ∈ plan.expected, ∀ condition ∈ plan.suite.conditions,
    ∀ repetition ∈ List.range plan.suite.repetitions, ∃ trial ∈ selected plan trials,
      trial.caseId = case ∧ trial.condition = condition ∧ trial.repetition = repetition

instance : Decidable (CompletePositions plan trials) := by unfold CompletePositions; infer_instance

structure Qualified : Prop where
  correct : failures plan trials = 0
  enough : minimumHoldoutCases ≤ (cases plan trials).length
  within : ∀ case ∈ cases plan trials, case ∈ plan.expected
  covers : ∀ case ∈ plan.expected, case ∈ cases plan trials
  complete : (selected plan trials).length =
    plan.expected.length * plan.suite.repetitions * plan.suite.conditions.length
  positions : plan.comparison.isSome → CompletePositions plan trials
  passed : ∀ trial ∈ selected plan trials, passed trial
  variations : ∀ variation ∈ recipe.variations, Covered plan trials variation
  models : ModelsMatch plan trials

instance : Decidable (Qualified plan recipe trials) :=
  decidable_of_iff (failures plan trials = 0 ∧
      minimumHoldoutCases ≤ (cases plan trials).length ∧
      (∀ case ∈ cases plan trials, case ∈ plan.expected) ∧
      (∀ case ∈ plan.expected, case ∈ cases plan trials) ∧
      (selected plan trials).length =
        plan.expected.length * plan.suite.repetitions * plan.suite.conditions.length ∧
      (plan.comparison.isSome → CompletePositions plan trials) ∧
      (∀ trial ∈ selected plan trials, passed trial) ∧
      (∀ variation ∈ recipe.variations, Covered plan trials variation) ∧ ModelsMatch plan trials)
    ⟨fun ⟨h₁, h₂, h₃, h₄, h₅, h₆, h₇, h₈, h₉⟩ => ⟨h₁, h₂, h₃, h₄, h₅, h₆, h₇, h₈, h₉⟩,
      fun ⟨h₁, h₂, h₃, h₄, h₅, h₆, h₇, h₈, h₉⟩ => ⟨h₁, h₂, h₃, h₄, h₅, h₆, h₇, h₈, h₉⟩⟩

/-! ## The differences of a report -/

/-- Whether a trial enters the paired comparison. -/
def comparable (trial : BenchmarkTrial) : Bool :=
  trial.phase = .holdout ∧ passed trial ∧ trial.routeId ∈ [plan.candidateId, plan.baselineId] ∧
    ModelsMatch plan trials ∧ ∀ condition ∈ plan.condition, trial.condition = condition

/-- The case, condition and repetition of a trial, whatever its route. -/
def onRoute (route : String) (at_ : Position) : Position := { at_ with routeId := route }

/-- `paired`: the positions in the order they were first seen, with the trials of both routes. -/
def paired : List (String × BenchmarkTrial × BenchmarkTrial) :=
  (((trials.filter (comparable plan trials)).map
    fun trial => onRoute plan.candidateId (position trial)).eraseDups).filterMap fun at_ =>
      if plan.candidateId = plan.baselineId then none
      else
        (runAt trials (comparable plan trials) at_).bind fun candidate =>
          (runAt trials (comparable plan trials) (onRoute plan.baselineId at_)).map fun baseline =>
            (at_.caseId, candidate, baseline)

/-- By how much a measure of the baseline exceeds the candidate's. -/
def savedIn (measure : BenchmarkTrial → Option ℚ) (pair : String × BenchmarkTrial × BenchmarkTrial) :
    Option (String × ℚ) :=
  (measure pair.2.1).bind fun candidate =>
    (measure pair.2.2).map fun baseline => (pair.1, baseline - candidate)

def differences (measure : BenchmarkTrial → Option ℚ) : List (String × ℚ) :=
  (paired plan trials).filterMap (savedIn measure)

def measurementsOf (trialId : String) : Measurements :=
  ((lastAt (·.trialId) trials trialId).map nativeMeasurements).getD []

def measurementKeys : List String :=
  ((trials.map (·.trialId)).eraseDups.flatMap fun trialId =>
    (measurementsOf trials trialId).map (·.1)).eraseDups

def metric (key : String) (trial : BenchmarkTrial) : Option ℚ :=
  (measurementsOf trials trial.trialId).get key

/-- By how much a held-out trial of the candidate exceeds the reference in time. -/
def overReference (reference : String) (trial : BenchmarkTrial) : Option (String × ℚ) :=
  if (∀ condition ∈ plan.condition, trial.condition = condition) ∧ trial.ok then
    (runAt trials (fun other => other.routeId = reference ∧ other.phase = .holdout ∧ passed other)
      (onRoute reference (position trial))).bind fun other =>
        trial.wallTimeMs.bind fun time =>
          other.wallTimeMs.map fun referenceTime => (trial.caseId, time - referenceTime)
  else none

def referenceDifferences (reference : String) : List (String × ℚ) :=
  (selected plan trials).filterMap (overReference plan trials reference)

end Campaign

/-! ## Incremental utility -/

/-- A metric of a comparison of two routes. -/
structure Measured where
  /-- `relative_saving`, or `success_gain` of the task. -/
  estimate : Option ℚ
  interval : Option (ℚ × ℚ)
  distinctPairs : ℕ
  zeroBaselineRegression : Bool
  deriving DecidableEq, Repr

/-- The comparison of two routes. -/
structure Compared where
  metrics : List (String × Measured)
  complete : Bool
  benefit : Bool
  guardrailsPassed : Bool
  deriving DecidableEq, Repr

structure Utility where
  primary : Compared
  challengers : List (String × Compared)
  discoveryVsNormal : Option Compared
  discoveryComplete : Option Bool
  complete : Bool
  benefit : Bool
  dominated : Bool
  stage : ExperimentStage
  familyErrorRate : ℚ
  deriving DecidableEq, Repr

def value (metric : String) (trial : BenchmarkTrial) : Option ℚ :=
  if metric = "task_success" then
    if passed trial then some 1 else if trial.correctnessFailed = some true then some 0 else none
  else if ¬ passed trial ∧ trial.correctnessFailed ≠ some true then none
  else if metric = "wall_time_ms" then trial.wallTimeMs
  else (nativeMeasurements trial).get metric

def aggregateOf (metric : String) : Aggregate :=
  if metric = "task_success" then .mean else .median

/-- What a candidate gains on a base, unless it uses what the base does not. -/
def gain (metric : String) (left right : ℚ) : Option ℚ :=
  if metric = "task_success" then some (left - right)
  else if right = 0 then if 0 < left then none else some 0
  else some ((right - left) / right)

section Utility

variable (plan : AssessmentPlan) (condition : TrialCondition) (experiment : IncrementalExperiment)
  (trials : List BenchmarkTrial)

def dimensions : List String :=
  (experiment.utility.benefitDimensions ++ experiment.utility.guardrailDimensions).eraseDups

def alpha : ℚ :=
  let compared := match experiment.stage with
    | .aeepValue _ => 3
    | _ => experiment.feasibleChallengers.length + 1
  experiment.utility.familyErrorRate /
    (max 1 ((dimensions experiment).length * compared * plan.suite.conditions.length) : ℕ)

/-- Whether a trial enters the comparisons. -/
def assigned (trial : BenchmarkTrial) : Bool :=
  trial.phase = .holdout ∧ trial.condition = condition

def runs (route : String) : List BenchmarkTrial :=
  trials.filter fun trial => assigned condition trial ∧ trial.routeId = route

/-- `runs[route_id].get(position)`. -/
def run (route : String) (at_ : String × ℕ) : Option BenchmarkTrial :=
  runAt trials (assigned condition) ⟨route, at_.1, condition, at_.2⟩

/-- The values of a metric for both routes at a position. -/
def valuesAt (metric candidate base : String) (at_ : String × ℕ) : Option (ℚ × ℚ) :=
  (run condition trials candidate at_).bind fun trial =>
    (run condition trials base at_).bind fun baseTrial =>
      (value metric trial).bind fun left => (value metric baseTrial).map fun right => (left, right)

def gainAt (metric candidate base : String) (at_ : String × ℕ) : Option (String × ℚ) :=
  (valuesAt condition trials metric candidate base at_).bind fun (left, right) =>
    (gain metric left right).map (at_.1, ·)

/-- `differences` of a metric, with the positions in the order of the iteration. -/
def gains (order : List (String × ℕ)) (metric candidate base : String) : List (String × ℚ) :=
  order.filterMap (gainAt condition trials metric candidate base)

def ZeroRegression (metric candidate base : String) : Prop :=
  metric ≠ "task_success" ∧ ∃ at_ ∈ plan.positions,
    ∃ values ∈ valuesAt condition trials metric candidate base at_, values.2 = 0 ∧ 0 < values.1

instance (metric candidate base : String) :
    Decidable (ZeroRegression plan condition trials metric candidate base) := by
  unfold ZeroRegression
  infer_instance

/-- `set(runs[route_id]) == positions`. -/
def RunsComplete (route : String) : Prop :=
  (∀ trial ∈ runs condition trials route, (trial.caseId, trial.repetition) ∈ plan.positions) ∧
    ∀ at_ ∈ plan.positions, ∃ trial ∈ runs condition trials route,
      (trial.caseId, trial.repetition) = at_

/-- What `complete` asks of the runs of both routes. -/
def Complete (candidate base : String) : Prop :=
  ((trials.filter (assigned condition)).map position).Nodup ∧
    RunsComplete plan condition trials candidate ∧ RunsComplete plan condition trials base ∧
    ∀ route ∈ [candidate, base], ∀ trial ∈ runs condition trials route,
      trial.valid = some true ∨ trial.correctnessFailed = some true

instance (candidate base : String) : Decidable (Complete plan condition trials candidate base) := by
  unfold Complete RunsComplete
  infer_instance

def measure (g : Generator) (order : List (String × ℕ)) (metric candidate base : String) :
    Measured :=
  let differences := gains condition trials order metric candidate base
  let (estimate, interval) := pairedInterval g (aggregateOf metric) plan.templateFamily
    plan.suite.seed (alpha plan experiment) differences
  { estimate, interval
    distinctPairs := (groups differences).length
    zeroBaselineRegression := ZeroRegression plan condition trials metric candidate base }

/-- Whether the lower bound of a metric reaches a threshold. -/
def Measured.reaches (measured : Measured) (threshold : ℚ) : Bool :=
  measured.interval.any fun (lower, _) => threshold ≤ lower

def compare (g : Generator) (order : List (String × ℕ)) (candidate base : String) : Compared :=
  let measured metric := measure plan condition experiment trials g order metric candidate base
  let policy := experiment.utility
  { metrics := (dimensions experiment).map fun metric => (metric, measured metric)
    complete := Complete plan condition trials candidate base ∧
      ∀ metric ∈ dimensions experiment,
        (measured metric).interval.isSome ∨ (measured metric).zeroBaselineRegression
    benefit := policy.benefitDimensions.any fun metric =>
      (measured metric).reaches (if metric = "task_success" then policy.minimumSuccessGain
        else policy.minimumResourceBenefit)
    guardrailsPassed := policy.guardrailDimensions.all fun metric =>
      !(measured metric).zeroBaselineRegression &&
        (measured metric).reaches (-policy.maximumResourceRegression) }

/-- Whether the discovery of a trial is recorded in full. -/
def discovered (trial : BenchmarkTrial) : Bool :=
  trial.capabilityDiscovery.any fun discovery => ["exposed", "retrieved", "invoked"].all fun key =>
    ((discovery.find? (·.1 = key)).bind (·.2)).isSome

def DiscoveryComplete : Prop :=
  runs condition trials plan.candidateId ≠ [] ∧
    ∀ trial ∈ runs condition trials plan.candidateId, discovered trial

instance : Decidable (DiscoveryComplete plan condition trials) := by
  unfold DiscoveryComplete
  infer_instance

def incrementalUtility (g : Generator) (order : List (String × ℕ)) : Utility :=
  let compare := compare plan condition experiment trials g order
  let primary := compare plan.candidateId plan.baselineId
  let challengers := experiment.feasibleChallengers.map fun challenger =>
    (challenger, compare challenger plan.candidateId)
  let discoveryVsNormal := match experiment.stage with
    | .aeepValue normalHost => some (compare plan.baselineId normalHost)
    | _ => none
  let discoveryComplete := match experiment.stage with
    | .nativeCatalog => some (decide (DiscoveryComplete plan condition trials))
    | _ => none
  { primary, challengers, discoveryVsNormal, discoveryComplete
    complete := primary.complete && challengers.all (·.2.complete) &&
      discoveryVsNormal.all (·.complete) && discoveryComplete.all (·)
    -- a qualification never shows a benefit
    benefit := primary.benefit && experiment.stage != .qualification
    dominated := challengers.any fun (challenger, result) =>
      result.complete && result.benefit && result.guardrailsPassed &&
        (runs condition trials challenger).all passed
    stage := experiment.stage
    familyErrorRate := experiment.utility.familyErrorRate }

end Utility

/-! ## Reports -/

inductive AssessmentOutcome where
  | usefulWithinScope
  | noMeasuredBenefit
  | unsuitable
  | insufficientEvidence
  deriving DecidableEq, Repr

/-- A report, by what an admission reads and what is published of it. -/
structure AssessmentReport where
  outcome : AssessmentOutcome
  qualificationPassed : Bool
  pairedSavings : String → Option (Option ℚ)
  savingsInterval : String → Option (ℚ × ℚ)
  utilityEvidence : Option Utility

section Report

variable (g : Generator) (plan : AssessmentPlan) (recipe : RecipeDefinition)
  (order : List (String × ℕ)) (trials : List BenchmarkTrial)

/-- `paired_interval` as a report calls it. -/
def interval (differences : List (String × ℚ)) : Option ℚ × Option (ℚ × ℚ) :=
  pairedInterval g .median plan.family plan.suite.seed (1 / 20) differences

def reportedMeasure (key : String) : BenchmarkTrial → Option ℚ :=
  if key = "wall_time_ms" then (·.wallTimeMs) else metric trials key

def reported : List String := "wall_time_ms" :: measurementKeys trials

def saving (key : String) : Option ℚ × Option (ℚ × ℚ) :=
  interval g plan (differences plan trials (reportedMeasure trials key))

def referencePreferred : Bool :=
  (plan.referenceId.filter (· ≠ "")).any fun reference =>
    (interval g plan (referenceDifferences plan trials reference)).2.any fun (lower, _) => 0 < lower

def wallBenefit : Bool :=
  minimumPairedCases ≤ (groups (differences plan trials (·.wallTimeMs))).length &&
    ((saving g plan trials "wall_time_ms").2.any fun (lower, _) => 0 < lower) &&
      !referencePreferred g plan trials

def utilityEvidence : Option Utility :=
  plan.comparison.bind fun comparison => comparison.experiment.map fun experiment =>
    incrementalUtility plan comparison.primaryCondition experiment trials g order

def useful : Bool :=
  Qualified plan recipe trials && match utilityEvidence g plan order trials with
    | some utility =>
      utility.benefit && utility.primary.guardrailsPassed && !utility.dominated && utility.complete
    | none => wallBenefit g plan trials

/-- Whether what the outcome is read off is complete. -/
def measuredInFull : Bool :=
  match utilityEvidence g plan order trials with
  | some utility => utility.complete
  | none => (saving g plan trials "wall_time_ms").2.isSome

def outcome : AssessmentOutcome :=
  if useful g plan recipe order trials then .usefulWithinScope
  else if failures plan trials ≠ 0 then .unsuitable
  else if Qualified plan recipe trials ∧ measuredInFull g plan order trials then .noMeasuredBenefit
  else .insufficientEvidence

/-- `fit_report`; a timing pilot admits nothing. -/
def fitReport : AssessmentReport where
  outcome := if plan.pilot then .insufficientEvidence else outcome g plan recipe order trials
  qualificationPassed := !plan.pilot && Qualified plan recipe trials
  pairedSavings key :=
    if key ∈ reported trials then
      some ((saving g plan trials key).2.bind fun _ => (saving g plan trials key).1)
    else none
  savingsInterval key := if key ∈ reported trials then (saving g plan trials key).2 else none
  utilityEvidence := utilityEvidence g plan order trials

end Report

end AeepRouter.Reporting

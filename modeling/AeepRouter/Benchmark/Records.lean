import AeepRouter.Economic.Accounting

/-!
# Benchmark suites and trials
-/

namespace AeepRouter.Benchmark

/-- `TrialCondition`: the conditions of a benchmark, then those of an assessment. -/
inductive TrialCondition where
  | processCold
  | routerWarm
  | routerFresh
  | freshWorker
  | reusedWorker
  deriving DecidableEq, Repr

def TrialCondition.value : TrialCondition → String
  | processCold => "process-cold"
  | routerWarm => "router-warm"
  | routerFresh => "router-fresh"
  | freshWorker => "fresh-worker"
  | reusedWorker => "reused-worker"

inductive BenchmarkSplit where
  | qualification
  | training
  | holdout
  deriving DecidableEq, Repr

def BenchmarkSplit.value : BenchmarkSplit → String
  | qualification => "qualification"
  | training => "training"
  | holdout => "holdout"

inductive BenchmarkPhase where
  | setup
  | qualification
  | measurement
  | holdout
  deriving DecidableEq, Repr

structure BenchmarkCase where
  caseId : String
  split : BenchmarkSplit
  variation : Option String
  templateFamily : Option String
  deriving DecidableEq, Repr

/-- A suite with its checks; a route is known by its id. -/
structure BenchmarkSuite where
  suiteId : String
  seed : Int
  repetitions : ℕ
  routes : List String
  conditions : List TrialCondition
  cases : List BenchmarkCase
  sequentialStages : Bool
  stopOnScreeningFailure : Bool
  warmupCases : List BenchmarkCase
  pairedOrder : Bool
  repeated : 1 ≤ repetitions ∧ repetitions ≤ 1000
  routes_nodup : routes.Nodup
  cases_nodup : (cases.map (·.caseId)).Nodup
  warmup_nodup : (warmupCases.map (·.caseId)).Nodup
  warmup_separate : ∀ case ∈ warmupCases, case.caseId ∉ cases.map (·.caseId)
  staged_warmup : sequentialStages →
    .routerWarm ∈ conditions ∨ .reusedWorker ∈ conditions → warmupCases ≠ []

/-! ## Measurements -/

inductive ModelAccessChannel where
  | api
  | subscription
  | purchasedCredit
  | mixed
  | unknown
  deriving DecidableEq, Repr

def ModelAccessChannel.value : ModelAccessChannel → String
  | api => "api"
  | subscription => "subscription"
  | purchasedCredit => "purchased_credit"
  | mixed => "mixed"
  | unknown => "unknown"

/-- `TrustLevel` of a measurement. -/
inductive EvidenceTrust where
  | untrusted
  | selfAsserted
  | observed
  | verified
  | attested
  deriving DecidableEq, Repr

structure MeasurementEvidence where
  status : EvidenceStatus
  trust : EvidenceTrust
  deriving DecidableEq, Repr

def MeasurementEvidence.measured (evidence : MeasurementEvidence) : Bool :=
  evidence.status = .complete ∧ evidence.trust ∈ [.observed, .verified]

structure ModelTokenUsage where
  provider : String
  model : String
  accessChannel : ModelAccessChannel
  inputTokens : ℕ
  cachedInputTokens : ℕ
  cacheWriteInputTokens : ℕ
  outputTokens : ℕ
  reasoningOutputTokens : ℕ
  evidence : MeasurementEvidence
  deriving DecidableEq, Repr

structure SubscriptionUsage where
  provider : String
  resourcePool : String
  unit : String
  consumed : Option ℚ
  source : MeasurementEvidence
  deriving DecidableEq, Repr

structure ResourceAccounting where
  cash : CashAccounting
  subscriptionUsage : List SubscriptionUsage
  modelUsage : List ModelTokenUsage
  deriving DecidableEq

structure ResourceVector where
  cpuMs : ℚ
  memoryMbSeconds : ℚ
  gpuMs : ℚ
  networkBytes : ℚ
  deriving DecidableEq, Repr

/-- A trial, by the fields a run and a report read. -/
structure BenchmarkTrial where
  trialId : String
  caseId : String
  routeId : String
  condition : TrialCondition
  repetition : ℕ
  phase : BenchmarkPhase
  ok : Bool
  valid : Option Bool
  wallTimeMs : Option ℚ
  actualResources : ResourceVector
  accounting : ResourceAccounting
  hostModels : Option (List (String × String))
  correctnessFailed : Option Bool
  capabilityDiscovery : Option (List (String × Option Bool))
  deriving DecidableEq

/-- Where a trial stands in a campaign. -/
structure Position where
  routeId : String
  caseId : String
  condition : TrialCondition
  repetition : ℕ
  deriving DecidableEq, Repr

def position (trial : BenchmarkTrial) : Position :=
  ⟨trial.routeId, trial.caseId, trial.condition, trial.repetition⟩

end AeepRouter.Benchmark

import AeepRouter.Lib.Resample
import AeepRouter.Base
import AeepRouter.Benchmark.Records

/-!
# The benchmark runner

`run` plans the trials of a suite in a shuffled order and goes through the plan: a trial whose id is
stored is taken from the store, any other is claimed and executed. A router kept warm is set up by a
trial of its own before its first trial. `interrupted` is a call that stops between two trials, and
`campaign` a sequence of such calls with one that runs to its end.

The shuffle, the digest of the suite and what an execution measures are given by the environment. A
call that raises ends the campaign.
-/

namespace AeepRouter.Benchmark

open Lib

/-! ## Plans -/

/-- A trial to come. -/
structure Planned where
  case : BenchmarkCase
  routeId : String
  condition : TrialCondition
  repetition : ℕ
  deriving DecidableEq, Repr

def Planned.position (item : Planned) : Position :=
  ⟨item.routeId, item.case.caseId, item.condition, item.repetition⟩

structure Block where
  case : BenchmarkCase
  condition : TrialCondition
  repetition : ℕ
  deriving DecidableEq, Repr

def Block.planned (block : Block) (routeId : String) : Planned :=
  ⟨block.case, routeId, block.condition, block.repetition⟩

/-- What an execution measures, and whether it failed. -/
structure TrialResult where
  ok : Bool
  valid : Option Bool
  wallTimeMs : Option ℚ
  actualResources : ResourceVector
  accounting : ResourceAccounting
  hostModels : Option (List (String × String))
  correctnessFailed : Option Bool
  capabilityDiscovery : Option (List (String × Option Bool))
  failed : Bool
  deriving DecidableEq

/-- What a runner meets: the generator of the seed, the digest of the suite, and the executions. -/
structure Environment where
  suiteDigest : String
  shuffle : List Planned → List Planned
  shuffleBlocks : List Block → List Block
  shuffle_perm : ∀ items, (shuffle items).Perm items
  shuffleBlocks_perm : ∀ blocks, (shuffleBlocks blocks).Perm blocks
  execute : ℕ → BenchmarkTrial → TrialResult

def BenchmarkSplit.stageOrder : BenchmarkSplit → ℕ
  | qualification => 0
  | training => 1
  | holdout => 2

/-- `sort` by the stage; equal stages keep their order. -/
def sortByStage {α : Type} (case : α → BenchmarkCase) (items : List α) : List α :=
  items.insertionSort fun a b => (case a).split.stageOrder ≤ (case b).split.stageOrder

namespace BenchmarkSuite

variable (suite : BenchmarkSuite)

def blocks : List Block :=
  suite.cases.flatMap fun case => suite.conditions.flatMap fun condition =>
    (List.range suite.repetitions).map fun repetition => ⟨case, condition, repetition⟩

def alternate (seen : List (BenchmarkSplit × TrialCondition)) : List Block → List Planned
  | [] => []
  | block :: blocks =>
    let key := (block.case.split, block.condition)
    let routes := if seen.count key % 2 = 1 then suite.routes.reverse else suite.routes
    routes.map block.planned ++ alternate (key :: seen) blocks

def planned (env : Environment) : List Planned :=
  let items :=
    if suite.pairedOrder then
      let blocks := env.shuffleBlocks suite.blocks
      suite.alternate [] (if suite.sequentialStages then sortByStage (·.case) blocks else blocks)
    else env.shuffle (suite.blocks.flatMap fun block => suite.routes.map block.planned)
  if suite.sequentialStages then sortByStage (·.case) items else items

def positions : List Position :=
  suite.blocks.flatMap fun block => suite.routes.map fun route => (block.planned route).position

end BenchmarkSuite

/-! ## Identities -/

def BenchmarkSuite.trialId (suite : BenchmarkSuite) (at_ : Position) : String :=
  "trial_" ++ suite.suiteId ++ "_" ++ at_.caseId ++ "_" ++ at_.routeId ++ "_" ++
    at_.condition.value ++ "_" ++ toString at_.repetition

/-- A router kept warm: its route and condition. -/
abbrev WorkerKey := String × TrialCondition

/-- Whether a condition takes a new router for every trial. -/
def TrialCondition.cold : TrialCondition → Bool
  | processCold | routerFresh | freshWorker => true
  | routerWarm | reusedWorker => false

/-- What a set-up trial is named after: the stage, if there are stages, and a reused worker. -/
def setupSuffix (stage : Option BenchmarkSplit) (condition : TrialCondition) : String :=
  "_" ++ (match stage with
    | some split => split.value
    | none => "all") ++ if condition = .reusedWorker then "_" ++ condition.value else ""

/-- The id of a set-up trial. -/
def setupId (env : Environment) (key : WorkerKey) (stage : Option BenchmarkSplit) : String :=
  "setup_run_" ++ env.suiteDigest ++ "_" ++ key.1 ++ setupSuffix stage key.2

def BenchmarkSplit.phase : BenchmarkSplit → BenchmarkPhase
  | qualification => .qualification
  | training => .measurement
  | holdout => .holdout

namespace Planned

def workerKey (item : Planned) : WorkerKey := (item.routeId, item.condition)

def stage (suite : BenchmarkSuite) (item : Planned) : Option BenchmarkSplit :=
  if suite.sequentialStages then some item.case.split else none

def newTrial (item : Planned) (trialId : String) (repetition : ℕ) (phase : BenchmarkPhase) :
    BenchmarkTrial where
  trialId := trialId
  caseId := item.case.caseId
  routeId := item.routeId
  condition := item.condition
  repetition := repetition
  phase := phase
  ok := false
  valid := none
  wallTimeMs := none
  actualResources := ⟨0, 0, 0, 0⟩
  accounting := ⟨⟨.unavailable, []⟩, [], []⟩
  hostModels := none
  correctnessFailed := none
  capabilityDiscovery := none

def trial (suite : BenchmarkSuite) (item : Planned) : BenchmarkTrial :=
  item.newTrial (suite.trialId item.position) item.repetition item.case.split.phase

def setup (env : Environment) (suite : BenchmarkSuite) (item : Planned) : BenchmarkTrial :=
  item.newTrial (setupId env item.workerKey (item.stage suite)) 0 .setup

end Planned

/-! ## Runs -/

inductive TrialState where
  | running
  | complete
  | failed
  | skipped
  deriving DecidableEq, Repr

structure TrialRow where
  trial : BenchmarkTrial
  state : TrialState
  deriving DecidableEq

def TrialRow.id (row : TrialRow) : String := row.trial.trialId

/-- The store of the runner, with the trials executed so far, in order. -/
structure Database where
  trials : Table TrialRow TrialRow.id
  executed : List BenchmarkTrial
  deriving DecidableEq

/-- A call between two trials. -/
structure Call extends Database where
  warmed : List WorkerKey
  previousSplit : Option BenchmarkSplit
  reported : List BenchmarkTrial
  screenedOut : List String

def Call.start (db : Database) : Call := ⟨db, [], none, [], []⟩

/-- A trial with what its execution measured. -/
def finish (trial : BenchmarkTrial) (result : TrialResult) : BenchmarkTrial :=
  { trial with
    ok := result.ok
    valid := result.valid
    wallTimeMs := result.wallTimeMs
    actualResources := result.actualResources
    accounting := result.accounting
    hostModels := result.hostModels
    correctnessFailed := result.correctnessFailed
    capabilityDiscovery := result.capabilityDiscovery }

/-- What an execution leaves of its trial. -/
def completedRow (trial : BenchmarkTrial) (result : TrialResult) : TrialRow :=
  ⟨finish trial result, if result.failed then .failed else .complete⟩

def claimTrial (trial : BenchmarkTrial) (call : Call) : Result Call := do
  refuseIf (call.trials.find? trial.trialId).isSome
    "benchmark trial already claimed; resume explicitly"
  pure { call with trials := call.trials.insert ⟨trial, .running⟩ }

def executeTrial (env : Environment) (trial : BenchmarkTrial) (call : Call) : Call :=
  let result := env.execute call.executed.length trial
  { call with
    trials := call.trials.put (completedRow trial result)
    executed := call.executed ++ [trial]
    reported := call.reported ++ [finish trial result] }

/-- Routers kept warm do not outlive a stage. -/
def enterStage (suite : BenchmarkSuite) (item : Planned) (call : Call) : Call :=
  if suite.sequentialStages ∧ call.previousSplit ≠ some item.case.split then
    { call with warmed := [], previousSplit := some item.case.split }
  else call

/-- Sets up the router of a trial, once. -/
def warmUp (env : Environment) (suite : BenchmarkSuite) (item : Planned) (call : Call) :
    Result Call :=
  if item.condition.cold ∨ item.workerKey ∈ call.warmed then .ok call
  else (claimTrial (item.setup env suite) call).map fun call =>
    { executeTrial env (item.setup env suite) call with
      warmed := item.workerKey :: call.warmed }

def screen (routeId : String) (trial : BenchmarkTrial) (call : Call) : Call :=
  if trial.phase = .qualification ∧ trial.valid = some false then
    { call with screenedOut := routeId :: call.screenedOut }
  else call

/-- Takes a stored trial. -/
def resume (item : Planned) (row : TrialRow) (call : Call) : Result Call := do
  refuseIf (row.state = .running) s!"ambiguous running benchmark trial {row.id}"
  pure (screen item.routeId row.trial { call with reported := call.reported ++ [row.trial] })

def start (env : Environment) (suite : BenchmarkSuite) (item : Planned) (call : Call) :
    Result Call := do
  let claimed ← claimTrial (item.trial suite) call
  let warm ← warmUp env suite item claimed
  let completed := finish (item.trial suite) (env.execute warm.executed.length (item.trial suite))
  pure (screen item.routeId completed (executeTrial env (item.trial suite) warm))

/-- One turn of the loop of `run`. -/
def turn (env : Environment) (suite : BenchmarkSuite) (call : Call) (item : Planned) :
    Result Call :=
  if suite.stopOnScreeningFailure ∧ item.routeId ∈ call.screenedOut then .ok call
  else
    let call := enterStage suite item call
    match call.trials.find? (suite.trialId item.position) with
    | some row => resume item row call
    | none => start env suite item call

/-- A call that stops after some trials of the plan. A stop between a set-up trial and the trial it is
for, which is claimed by then, is none of these: it leaves a running trial that fails every call. -/
def interrupted (env : Environment) (suite : BenchmarkSuite) (db : Database) (stop : ℕ) :
    Result Call :=
  ((suite.planned env).take stop).foldlM (turn env suite) (Call.start db)

def campaign (env : Environment) (suite : BenchmarkSuite) (stops : List ℕ) : Result Call := do
  let db ← stops.foldlM
    (fun db stop => (interrupted env suite db stop).map Call.toDatabase) ⟨∅, []⟩
  (suite.planned env).foldlM (turn env suite) (Call.start db)

/-- The trials of the final report: by id, with the set-up trials that are stored. -/
def Call.report (call : Call) : List BenchmarkTrial :=
  dictionary (·.trialId)
    (call.reported ++ call.trials.select (·.trial.phase = .setup) TrialRow.trial)

end AeepRouter.Benchmark

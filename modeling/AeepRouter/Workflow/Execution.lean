import AeepRouter.Stack.Runtime
import AeepRouter.Workflow.Request

/-!
# Running a workflow

`execute_workflow` runs the steps that are ready in waves until none is pending, a step fails or
a step waits for somebody else; `resume_workflow` takes up a waiting outcome. The two paths merge
the outcomes of a wave in different ways (`mergeOffline`, `mergeEconomic`).

Routing, preparation, quotas and budgets answer a round as its `Admission`, and the calls of
`execute` and `execute_prepared` as `StepCall`s, which say beside what the caller gets what the call
did. Every wave is logged. A call without a round left was cut off.
-/

namespace AeepRouter.Workflow

open Lib Stack

/-! ## Calls -/

/-- What a workflow reads of an `ExecutionReceipt`. -/
structure Receipt where
  receiptId : String
  componentReceiptIds : List String := []
  rest : String := ""
  deriving DecidableEq

structure ExecutionOutcome where
  ok : Bool
  status : ExecutionStatus
  output : Json
  decisionId : String
  receipts : List Receipt

def ExecutionOutcome.waits (outcome : ExecutionOutcome) : Bool :=
  outcome.status ∈ [.hostSelected, .delegated]

/-- What a call gives: an outcome, or an exception of some type. -/
inductive StepResult where
  | returned (outcome : ExecutionOutcome)
  | raised (type : String)

/-- A call of `execute` or `execute_prepared`: whether it invoked an executor, the receipts it saved
of its invocations, and what it gave. -/
structure StepCall where
  invoked : Bool
  made : List Receipt
  result : StepResult
  made_invoked : made ≠ [] → invoked

/-- The call gave a result that is neither valid nor waited for. -/
def StepCall.failed (call : StepCall) : Bool :=
  match call.result with
  | .returned outcome => !outcome.ok && !outcome.waits
  | .raised _ => false

/-- How a round begins. -/
inductive Admission where
  | raised (error : Err)
  | refused (error : String)
  | admitted (exclusive : WorkflowStep → Bool)

/-- What the router answers in one round. -/
structure Round where
  admission : Admission
  call : WorkflowStep → Json → StepCall

structure Member where
  stepId : String
  call : StepCall

structure Wave where
  economic : Bool
  members : List Member

/-! ## Outcomes -/

/-- `step_outputs`. -/
abbrev Outputs := AList fun _ : String => Json

/-- `step_outputs` and `receipts`; the steps pending are those without an output. -/
structure Progress where
  outputs : Outputs
  receipts : List Receipt

inductive WorkflowStatus where
  | success
  | failed
  | waiting
  deriving DecidableEq, Repr

/-- `WorkflowExecutionOutcome`, its durations and valuations aside. -/
structure WorkflowOutcome where
  status : WorkflowStatus
  outputs : List (String × Json)
  stepOutputs : Outputs
  receipts : List Receipt
  waitingStepId : Option String
  waitingDecisionId : Option String
  error : Option String

def independentReceipts (receipts : List Receipt) : List Receipt :=
  let items := (receipts.map (·.receiptId)).reverse.dedup.reverse.filterMap fun receiptId =>
    receipts.reverse.find? (·.receiptId = receiptId)
  let components := items.flatMap fun receipt =>
    receipt.componentReceiptIds.filter (· ≠ receipt.receiptId)
  items.filter (·.receiptId ∉ components)

def WorkflowOutcome.accounted (outcome : WorkflowOutcome) : List Receipt :=
  independentReceipts outcome.receipts

/-- How a workflow ends. -/
inductive Verdict where
  | success
  | waiting (stepId decisionId : String)
  | failed (error : String)

def workflowResult (workflow : WorkflowRequest) (p : Progress) :
    Verdict → Result WorkflowOutcome
  | .success => do
    let outputs ← workflow.outputs.mapM fun projection => do
      let output ← require (p.outputs.lookup projection.stepId) (.value projection.stepId)
      pure (projection.name, ← pointerGet output projection.path)
    pure ⟨.success, outputs, p.outputs, p.receipts, none, none, none⟩
  | .waiting stepId decisionId =>
    pure ⟨.waiting, [], p.outputs, p.receipts, some stepId, some decisionId, none⟩
  | .failed error => pure ⟨.failed, [], p.outputs, p.receipts, none, none, some error⟩

/-! ## Waves -/

def pending (workflow : WorkflowRequest) (p : Progress) : List WorkflowStep :=
  workflow.steps.filter (·.stepId ∉ p.outputs)

/-- The pending steps whose dependencies are done, by name. -/
def ready (workflow : WorkflowRequest) (p : Progress) : List WorkflowStep :=
  ((pending workflow p).filter fun step => step.dependsOn.all (· ∈ p.outputs)).insertionSort
    (·.stepId ≤ ·.stepId)

/-- The first step that must run alone, or up to eight. -/
def waveOf (exclusive : WorkflowStep → Bool) (ready : List WorkflowStep) : List WorkflowStep :=
  match ready.find? exclusive with
  | some step => [step]
  | none => ready.take 8

def resolve (workflow : WorkflowRequest) (p : Progress) (step : WorkflowStep) : Result Json :=
  step.bindings.foldlM
    (fun input binding => do
      let source ← match binding.sourceStepId with
        | none => pure workflow.input
        | some stepId => require (p.outputs.lookup stepId) (.value stepId)
      pointerReplace input binding.targetPath (← pointerGet source binding.sourcePath))
    step.action.input

/-- A merge goes on with the next wave, or ends the workflow. -/
inductive Merged where
  | proceed (p : Progress)
  | halt (p : Progress) (verdict : Verdict)

/-- The merge of the offline path: it stops at the first step that raises, waits or fails. -/
def mergeOffline : Progress → List Member → Merged
  | p, [] => .proceed p
  | p, m :: rest =>
    match m.call.result with
    | .raised type => .halt p (.failed ("step " ++ m.stepId ++ " failed: " ++ type))
    | .returned outcome =>
      let p := { p with receipts := p.receipts ++ outcome.receipts }
      if outcome.waits then .halt p (.waiting m.stepId outcome.decisionId)
      else if ¬ outcome.ok then
        .halt p (.failed ("step " ++ m.stepId ++ " did not produce a valid result"))
      else mergeOffline { p with outputs := p.outputs.insert m.stepId outcome.output } rest

def returnedReceipts (members : List Member) : List Receipt :=
  members.flatMap fun m =>
    match m.call.result with
    | .returned outcome => outcome.receipts
    | .raised _ => []

def firstRaised (members : List Member) : Option (String × String) :=
  members.findSome? fun m =>
    match m.call.result with
    | .returned _ => none
    | .raised type => some (m.stepId, type)

/-- The second loop of the economic merge: the outputs, and the last member that waits or fails. -/
def sortOut (outputs : Outputs) (waiting : Option (String × String)) (invalid : Option String) :
    List Member → Outputs × Option (String × String) × Option String
  | [] => (outputs, waiting, invalid)
  | m :: rest =>
    match m.call.result with
    | .raised _ => sortOut outputs waiting invalid rest
    | .returned outcome =>
      if outcome.waits then sortOut outputs (some (m.stepId, outcome.decisionId)) invalid rest
      else if ¬ outcome.ok then sortOut outputs waiting (some m.stepId) rest
      else sortOut (outputs.insert m.stepId outcome.output) waiting invalid rest

def mergeEconomic (p : Progress) (members : List Member) : Merged :=
  let p := { p with receipts := p.receipts ++ returnedReceipts members }
  match firstRaised members with
  | some (stepId, type) => .halt p (.failed ("step " ++ stepId ++ " failed: " ++ type))
  | none =>
    match sortOut p.outputs none none members with
    | (outputs, some (stepId, decisionId), _) =>
      .halt { p with outputs := outputs } (.waiting stepId decisionId)
    | (outputs, none, some stepId) =>
      .halt { p with outputs := outputs }
        (.failed ("step " ++ stepId ++ " did not produce a valid result"))
    | (outputs, none, none) => .proceed { p with outputs := outputs }

def Wave.merge (wave : Wave) (p : Progress) : Merged :=
  if wave.economic then mergeEconomic p wave.members else mergeOffline p wave.members

/-! ## The loop -/

/-- What a workflow returns before its next round, if anything. -/
def opening (workflow : WorkflowRequest) (p : Progress) : Option (Result WorkflowOutcome) :=
  if pending workflow p = [] then some (workflowResult workflow p .success)
  else if ready workflow p = [] then
    some (workflowResult workflow p (.failed "workflow has no executable ready step"))
  else none

/-- The wave of a round, once its calls are made, or what the workflow returns instead. -/
def Round.run (round : Round) (economic : Bool) (workflow : WorkflowRequest) (p : Progress) :
    Except (Result WorkflowOutcome) Wave :=
  match round.admission with
  | .raised error => .error (.error error)
  | .refused error => .error (workflowResult workflow p (.failed error))
  | .admitted exclusive =>
    match (ready workflow p).mapM fun step => do
        pure (step.stepId, ← resolve workflow p step) with
    | .error error => .error (.error error)
    | .ok inputs =>
      .ok ⟨economic, (waveOf exclusive (ready workflow p)).map fun step =>
        ⟨step.stepId, round.call step ((inputs.lookup step.stepId).getD step.action.input)⟩⟩

def loop (economic : Bool) (workflow : WorkflowRequest) :
    List Round → Progress → List Wave × Result WorkflowOutcome
  | [], p => ([], (opening workflow p).getD (.error .fault))
  | round :: rounds, p =>
    match opening workflow p with
    | some result => ([], result)
    | none =>
      match round.run economic workflow p with
      | .error result => ([], result)
      | .ok wave =>
        match wave.merge p with
        | .halt p verdict => ([wave], workflowResult workflow p verdict)
        | .proceed p =>
          let rest := loop economic workflow rounds p
          (wave :: rest.1, rest.2)

/-- What the router answers during one call: the schemas of the routes, and the rounds. -/
structure Answers where
  preflight : Result Unit
  rounds : List Round

def executeWorkflow (economic : Bool) (workflow : WorkflowRequest) (answers : Answers)
    (initial : Progress) : List Wave × Result WorkflowOutcome :=
  match answers.preflight with
  | .error error => ([], .error error)
  | .ok () => loop economic workflow answers.rounds initial

/-! ## Sessions -/

/-- A row of `workflow_checkpoints`. -/
structure Checkpoint where
  status : WorkflowStatus
  waitingStepId : Option String
  waitingDecisionId : Option String
  deriving DecidableEq

/-- What happened: a wave was run, or an outcome from outside was recorded. -/
inductive Entry where
  | wave (wave : Wave)
  | reported (receipt : Receipt)

/-- One execution of a workflow and the resumptions after it. `waiting` is the last waiting outcome
the caller was given, `last` what the last call returned; `reported` are the decisions with
a recorded outcome from outside. -/
structure Session where
  checkpoint : Option Checkpoint := none
  waiting : Option WorkflowOutcome := none
  last : Option WorkflowOutcome := none
  reported : List String := []
  log : List Entry := []

def Session.conclude (s : Session) (call : List Wave × Result WorkflowOutcome) : Session :=
  match call.2 with
  | .error _ => { s with last := none, log := s.log ++ call.1.map .wave }
  | .ok o =>
    { s with
      checkpoint := some ⟨o.status, o.waitingStepId, o.waitingDecisionId⟩
      waiting := if o.status = .waiting then some o else s.waiting
      last := some o
      log := s.log ++ call.1.map .wave }

/-- The session begun by a call of `execute_workflow`. -/
def Session.start (economic : Bool) (workflow : WorkflowRequest) (answers : Answers) : Session :=
  Session.conclude {} (executeWorkflow economic workflow answers ⟨∅, []⟩)

/-- A call of `resume_workflow`: `admitted` stands for the checks of the decision, its route and
the output, `terminal` for the receipt of the outcome from outside. -/
structure Resumption where
  stepId : String
  output : Json
  admitted : Result Unit
  terminal : Receipt
  answers : Answers

def Resumption.check (r : Resumption) (workflow : WorkflowRequest) (s : Session)
    (prior : WorkflowOutcome) : Result String := do
  refuseIf (prior.status ≠ .waiting ∨
      (∀ checkpoint ∈ s.checkpoint, checkpoint.waitingStepId ≠ some r.stepId) ∨
      prior.waitingStepId ≠ some r.stepId)
    "workflow continuation does not match the waiting checkpoint"
  r.admitted
  let step ← require (workflow.steps.find? (·.stepId = r.stepId)) .fault
  let _ ← resolve workflow ⟨prior.stepOutputs, prior.receipts⟩ step
  let decisionId := prior.waitingDecisionId.getD ""
  refuseIf (decisionId ∈ s.reported)
    ("an external outcome was already reported for decision '" ++ decisionId ++ "'")
  pure decisionId

/-- `resume_workflow`, with the last waiting outcome. -/
def Session.resume (economic : Bool) (workflow : WorkflowRequest) (s : Session) (r : Resumption) :
    Session :=
  match s.waiting with
  | none => s
  | some prior =>
    match r.check workflow s prior with
    | .error _ => { s with last := none }
    | .ok decisionId =>
      Session.conclude
        { s with reported := decisionId :: s.reported, log := s.log ++ [.reported r.terminal] }
        (executeWorkflow economic workflow r.answers
          ⟨prior.stepOutputs.insert r.stepId r.output, prior.receipts ++ [r.terminal]⟩)

def session (enabled requirePrepared : Bool) (workflow : WorkflowRequest) (answers : Answers)
    (resumptions : List Resumption) : Session :=
  run (Session.resume enabled workflow) (.start (enabled || requirePrepared) workflow answers)
    resumptions

end AeepRouter.Workflow

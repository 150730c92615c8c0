import AeepRouter.Stack.Runtime

/-!
# Concurrent runs of a proposal

A call of `run` reads the progress once, examines it and claims the row; then it takes the steps of
the workflow in order, acting on the copy it read. Between two of its transactions other calls, a
recovery or a crash may come. `System.step` is one transaction or one move of a call; what the
router answers, which checks fail and when is up to the events. The log notes dispatches, with the
state the node was recorded in, and completions.
-/

namespace AeepRouter.Stack

open Lib

structure RunRequest where
  inputDigest : String
  completedOutputs : List (String × Json) := []
  delegatedOutputs : List (String × Json) := []

/-! ## Before the claim -/

section Examine

variable (runtime : StackRuntime) (proposal : Proposal) (request : RunRequest)
  (evidence : Evidence)

/-- The receipt of a completed node is still there. -/
def receiptStands (component : Implementation) (receiptId : String) : Prop :=
  ∃ receipt ∈ evidence.getReceipt receiptId,
    receipt.executorId = component.executorId ∧ receipt.status = .success

instance (component : Implementation) (receiptId : String) :
    Decidable (receiptStands evidence component receiptId) :=
  inferInstanceAs (Decidable (∃ receipt ∈ evidence.getReceipt receiptId, _))

/-- The loop of `run` over the progress: the node that waits for its output, if there is one. -/
def examineRecords : List (Σ _ : String, NodeRecord) → Result (Option String)
  | [] => return none
  | ⟨nodeId, record⟩ :: rest =>
    match record.state with
    | .waiting =>
      if (request.delegatedOutputs.lookup nodeId).isNone then return some nodeId
      else examineRecords rest
    | .retryable => do
      let component ← demand (proposal.selected nodeId) nodeId
      let spec := runtime.registry component.executorId
      refuseIf (¬ replayable spec.idempotent spec.sideEffect)
        "retry requires idempotent read-only work"
      examineRecords rest
    | .complete => do
      refuseIf ((request.completedOutputs.lookup nodeId).map runtime.outputDigest ≠
          record.outputDigest ∨ record.outputDigest = none)
        (nodeId ++ ": matching completed artifact required; outputs are not stored")
      let component ← demand (proposal.selected nodeId) nodeId
      refuseIf (∃ receiptId ∈ record.receiptIds, ¬ receiptStands evidence component receiptId)
        "completed artifact receipt unavailable"
      examineRecords rest
    | .started | .uncertain =>
      .error (.configuration "incomplete node requires reconciliation; no automatic replay")

/-- What `run` makes of the progress it read. -/
def examine (prior : Progress) : Result (Option String) := do
  refuseIf (∃ d ∈ request.delegatedOutputs, stateOf prior d.1 ≠ some .waiting)
    "delegated output does not belong to a selected waiting node"
  refuseIf (∃ c ∈ request.completedOutputs, c.1 ∉ prior) "unknown completed artifact"
  examineRecords runtime proposal request evidence prior.entries

end Examine

/-! ## Calls -/

/-- What a call writes about the node it dispatched. -/
inductive Write where
  | suspend (decisionId : Option String) (workflowHash : String)
  | allowRetry (failedReceipts : List String)
  | complete (outputDigest : String) (receiptIds : List String)
  deriving DecidableEq

/-- Where a call stands, with the copy of the progress it acts on. -/
inductive Phase where
  | idle
  | checked (prior : Progress) (inputDigest : String)
  | between (prior : Progress) (nodeId : String) (rest : List String)
  | awaiting (prior : Progress) (nodeId : String) (rest : List String)
  | returned (prior : Progress) (nodeId : String) (rest : List String) (write : Write)
  | closing (state : RunState)
  | stopped

namespace Phase

/-- The node a call has dispatched and not settled. -/
def pending : Phase → Option String
  | .awaiting _ nodeId _ | .returned _ nodeId _ _ => some nodeId
  | _ => none

/-- Goes on with the next step that the copy does not hold complete. -/
def proceed (prior : Progress) (steps : List String) : Phase :=
  match steps.filter fun nodeId => stateOf prior nodeId ≠ some .complete with
  | [] => .closing .complete
  | nodeId :: rest => .between prior nodeId rest

end Phase

/-- What the router comes to for one node. -/
inductive NodeResult where
  | waiting (decisionId : Option String) (workflowHash : String)
  | failed (receipts : List NodeReceipt)
  | success (output : Json) (receipts : List NodeReceipt)
  | raised

/-- The attempt a call takes its work on a node for. -/
def nodeAttempt (prior : Progress) (nodeId : String) : ℕ :=
  attemptsOf prior nodeId + if stateOf prior nodeId = some .waiting then 0 else 1

section Answers

variable (runtime : StackRuntime) (proposal : Proposal)

def safeRetry (prior : Progress) (nodeId : String) (receipts : List NodeReceipt) : Prop :=
  (∃ component ∈ proposal.selected nodeId, replayable
    (runtime.registry component.executorId).idempotent
    (runtime.registry component.executorId).sideEffect) ∧
  receipts ≠ [] ∧ (∀ r ∈ receipts, r.status ∈ [.failed, .rejected]) ∧
  nodeAttempt prior nodeId ≤ proposal.goal.limits.retryReserve

instance (prior : Progress) (nodeId : String) (receipts : List NodeReceipt) :
    Decidable (safeRetry runtime proposal prior nodeId receipts) := by
  unfold safeRetry
  infer_instance

/-- The checks of a successful node. -/
def verified (nodeId : String) (output : Json) (receipts : List NodeReceipt) : Prop :=
  (∃ component ∈ proposal.selected nodeId, runtime.accepts component.executorId output) ∧
  receipts ≠ [] ∧ ∀ r ∈ receipts, r.outputValid ≠ some false ∧ r.taskValid ≠ some false

instance (nodeId : String) (output : Json) (receipts : List NodeReceipt) :
    Decidable (verified runtime proposal nodeId output receipts) := by
  unfold verified
  infer_instance

/-- What a call does with an answer. -/
def settle (prior : Progress) (nodeId : String) (rest : List String) : NodeResult → Phase
  | .waiting decisionId workflowHash =>
    .returned prior nodeId rest (.suspend decisionId workflowHash)
  | .failed receipts =>
    if safeRetry runtime proposal prior nodeId receipts then
      .returned prior nodeId rest (.allowRetry (receipts.map (·.receiptId)))
    else .closing .uncertain
  | .success output receipts =>
    if verified runtime proposal nodeId output receipts then
      .returned prior nodeId rest
        (.complete (runtime.outputDigest output) (receipts.map (·.receiptId)))
    else .closing .uncertain
  | .raised => .closing .uncertain

end Answers

/-! ## The system -/

inductive LogEntry where
  | dispatched (nodeId : String) (found : Option NodeState)
  | completed (nodeId : String)
  deriving DecidableEq

/-- The table, the calls and what happened. -/
structure System where
  runs : StackRuns
  calls : AList fun _ : ℕ => Phase := ∅
  /-- The decisions with an externally reported outcome, of which each takes one. -/
  reported : List String := []
  log : List LogEntry := []

inductive StackEvent where
  | start (call : ℕ) (request : RunRequest) (evidence : Evidence)
  | claim (call : ℕ) (now : Int)
  /-- A check before a dispatch fails. -/
  | refuse (call : ℕ)
  | dispatch (call : ℕ) (now : Int)
  | answer (call : ℕ) (result : NodeResult)
  | record (call : ℕ)
  | close (call : ℕ)
  | crash (call : ℕ)
  /-- The outcome of a decision is reported past the run. -/
  | report (decisionId : String)
  | reconcile (recovery : StackRecovery) (output : Json) (evidence : Evidence)

namespace System

variable (runtime : StackRuntime) (proposal : Proposal)

def row (s : System) : Option StackRun := s.runs.lookup proposal.proposalId

def progress (s : System) : Progress := (s.row proposal).elim ∅ (·.progress)

def phase (s : System) (call : ℕ) : Phase := (s.calls.lookup call).getD .idle

def put (s : System) (call : ℕ) (phase : Phase) : System :=
  { s with calls := s.calls.insert call phase }

/-- A resumed node: its decision takes one outcome, and the workflow ends with it. -/
def resume (s : System) (call : ℕ) (prior : Progress) (nodeId : String) (rest : List String)
    (decisionId : Option String) : NodeResult → System
  | .success output receipts =>
    match decisionId with
    | some decision =>
      if decision ∈ s.reported then s.put call (.closing .uncertain)
      else { s with reported := decision :: s.reported }.put call
        (settle runtime proposal prior nodeId rest (.success output receipts))
    | none => s.put call (.closing .uncertain)
  | _ => s.put call (.closing .uncertain)

/-- The transaction with the outcome of a node. -/
def write (s : System) (call : ℕ) (prior : Progress) (nodeId : String) (rest : List String) :
    Write → System
  | .suspend decisionId workflowHash =>
    match Stack.suspend s.runs proposal.proposalId nodeId (nodeAttempt prior nodeId) decisionId
        workflowHash with
    | some runs => { s with runs }.put call .stopped
    | none => s.put call (.closing .uncertain)
  | .allowRetry failedReceipts =>
    match Stack.allowRetry s.runs proposal.proposalId nodeId (nodeAttempt prior nodeId)
        failedReceipts with
    | some runs => { s with runs }.put call (.closing .paused)
    | none => s.put call (.closing .uncertain)
  | .complete outputDigest receiptIds =>
    match Stack.complete s.runs proposal.proposalId nodeId outputDigest receiptIds with
    | some runs => { s with runs, log := .completed nodeId :: s.log }.put call
        (.proceed prior rest)
    | none => s.put call (.closing .uncertain)

def step (s : System) : StackEvent → System
  | .start call request evidence =>
    match s.phase call, examine runtime proposal request evidence (s.progress proposal) with
    | .idle, .ok none => s.put call (.checked (s.progress proposal) request.inputDigest)
    | _, _ => s
  | .claim call now =>
    match s.phase call, proposal.steps with
    | .checked prior inputDigest, .ok steps =>
      match Stack.claim s.runs proposal inputDigest now with
      | .ok runs => { s with runs }.put call (.proceed prior steps)
      | .error _ => s.put call .stopped
    | _, _ => s
  | .refuse call =>
    match s.phase call with
    | .between _ _ _ => s.put call (.closing .paused)
    | _ => s
  | .dispatch call now =>
    match s.phase call with
    | .between prior nodeId rest =>
      if stateOf prior nodeId = some .waiting then s.put call (.awaiting prior nodeId rest)
      else match reserve s.runs proposal nodeId now with
        | .ok runs => { s with
            runs
            log := .dispatched nodeId (stateOf (s.progress proposal) nodeId) :: s.log }.put call
              (.awaiting prior nodeId rest)
        | .error _ => s.put call (.closing .paused)
    | _ => s
  | .answer call result =>
    match s.phase call with
    | .awaiting prior nodeId rest =>
      if stateOf prior nodeId = some .waiting then
        s.resume runtime proposal call prior nodeId rest
          ((prior.lookup nodeId).bind (·.decisionId)) result
      else s.put call (settle runtime proposal prior nodeId rest result)
    | _ => s
  | .record call =>
    match s.phase call with
    | .returned prior nodeId rest write => s.write proposal call prior nodeId rest write
    | _ => s
  | .close call =>
    match s.phase call with
    | .closing state => { s with runs := setState s.runs proposal.proposalId state }.put call
        .stopped
    | _ => s
  | .crash call => s.put call .stopped
  | .report decisionId => { s with reported := decisionId :: s.reported }
  | .reconcile recovery output evidence =>
    match runtime.reconcile s.runs proposal recovery output evidence with
    | .ok runs => { s with runs, log := .completed recovery.nodeId :: s.log }
    | .error _ => s

end System

end AeepRouter.Stack

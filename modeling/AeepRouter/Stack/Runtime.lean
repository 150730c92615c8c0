import AeepRouter.Attempt.Records
import AeepRouter.Stack.Planning
import AeepRouter.Store.Records
import Mathlib.Data.List.AList

/-!
# Checkpoints of a stack

A proposal that is executed has one row of `stack_runs`: its state, the attempts spent, the deadline
the first run fixed, and a record for every node that was dispatched. The transactions here are the
only writers of the table; each reads the row anew. What the outcome of a node comes to, what the
other tables hold and the readiness of a proposal are given.
-/

namespace AeepRouter.Stack

open Lib

/-! ## Rows -/

/-- The states of a node in `progress_json`. -/
inductive NodeState where
  | started
  | waiting
  | retryable
  | uncertain
  | complete
  deriving DecidableEq, Repr

instance : LawfulBEq (Option NodeState) := inferInstance

inductive RunState where
  | running
  | waiting
  | paused
  | uncertain
  | complete
  | superseded
  deriving DecidableEq, Repr

structure NodeRecord where
  state : NodeState
  attempts : ℕ
  outputDigest : Option String := none
  receiptIds : List String := []
  historyReceiptIds : List String := []
  decisionId : Option String := none
  workflowHash : Option String := none
  recoveryDigest : Option String := none
  deriving DecidableEq

/-- `progress_json`. -/
abbrev Progress := AList fun _ : String => NodeRecord

/-- `progress.get(node_id, {}).get('state')`. -/
def stateOf (progress : Progress) (nodeId : String) : Option NodeState :=
  (progress.lookup nodeId).map (·.state)

/-- `progress.get(node_id, {}).get('attempts', 0)`. -/
def attemptsOf (progress : Progress) (nodeId : String) : ℕ :=
  (progress.lookup nodeId).elim 0 (·.attempts)

section Progress

variable {progress : Progress} {nodeId : String} {record : NodeRecord}

theorem stateOf_eq_some {state : NodeState} :
    stateOf progress nodeId = some state ↔
      ∃ record, progress.lookup nodeId = some record ∧ record.state = state := by
  simp [stateOf]

theorem stateOf_of_lookup (h : progress.lookup nodeId = some record) :
    stateOf progress nodeId = some record.state := by
  simp [stateOf, h]

theorem attemptsOf_of_lookup (h : progress.lookup nodeId = some record) :
    attemptsOf progress nodeId = record.attempts := by
  simp [attemptsOf, h]

theorem lookup_insert (m : String) :
    (progress.insert nodeId record).lookup m =
      if m = nodeId then some record else progress.lookup m := by
  split
  · next h => rw [h, AList.lookup_insert]
  · next h => rw [AList.lookup_insert_ne h]

theorem stateOf_insert (m : String) :
    stateOf (progress.insert nodeId record) m =
      if m = nodeId then some record.state else stateOf progress m := by
  unfold stateOf
  rw [lookup_insert]
  split <;> rfl

theorem attemptsOf_insert (m : String) :
    attemptsOf (progress.insert nodeId record) m =
      if m = nodeId then record.attempts else attemptsOf progress m := by
  unfold attemptsOf
  rw [lookup_insert]
  split <;> rfl

@[simp] theorem stateOf_empty : stateOf ∅ nodeId = none := rfl

@[simp] theorem attemptsOf_empty : attemptsOf ∅ nodeId = 0 := rfl

end Progress

/-- A row of `stack_runs`. -/
structure StackRun where
  inputDigest : String
  state : RunState
  attempts : ℕ
  deadline : Int
  progress : Progress

abbrev StackRuns := AList fun _ : String => StackRun

/-! ## Proposals -/

/-- What is executed of a `StackComponent`. -/
structure Implementation where
  nodeId : String
  executorId : String
  executorFingerprint : String
  portsDigest : String
  sideEffect : SideEffect
  idempotent : Bool
  deriving DecidableEq

/-- Work that may be done a second time. -/
def replayable (idempotent : Bool) (sideEffect : SideEffect) : Bool :=
  idempotent && decide (sideEffect.rank ≤ SideEffect.read.rank)

/-- What is executed of a stored `StackProposal`. -/
structure Proposal where
  proposalId : String
  parentId : Option String
  goal : GoalSpec
  components : List Implementation
  edges : List CompatibilityEdge

namespace Proposal

variable (proposal : Proposal)

/-- The predecessor, unless its name is empty. -/
def parent? : Option String := proposal.parentId.filter (· ≠ "")

def selected (nodeId : String) : Option Implementation :=
  proposal.components.reverse.find? (·.nodeId = nodeId)

/-- The steps of the compiled workflow; a converter runs before the node it feeds. -/
def steps : Result (List String) := do
  refuseIf (proposal.components = []) "blocked stack cannot compile"
  refuseIf (∃ node ∈ proposal.goal.orderedNodes, proposal.selected node.nodeId = none)
    "incomplete stack"
  let steps := proposal.goal.orderedNodes.flatMap fun node =>
    (proposal.edges.filter fun edge => edge.targetNode = node.nodeId ∧ edge.converterId.isSome)
      |>.filterMap (·.converterNode) |>.append [node.nodeId]
  raiseIf (¬ steps.Nodup) (.value "duplicate workflow step id")
  return steps

end Proposal

/-! ## The rest of the store -/

inductive ExecutionStatus where
  | success
  | failed
  | timeout
  | rejected
  | hostSelected
  | delegated
  | unknown
  deriving DecidableEq, Repr

/-- What checkpoints read of an `ExecutionReceipt`. -/
structure NodeReceipt where
  receiptId : String
  actionId : String
  decisionId : String
  executorId : String
  executorFingerprint : String
  status : ExecutionStatus
  outputValid : Option Bool
  taskValid : Option Bool
  preparedId : Option String
  deriving DecidableEq

/-- What other tables hold when a transaction reads them. -/
structure Evidence where
  /-- The digests of `assessment_reviews` that are not revoked. -/
  reviewed : List String := []
  receipts : List NodeReceipt := []
  prepared : List (String × PreparedDecisionState) := []
  attemptForPrepared : List (String × ExecutionAttemptState) := []
  attemptForDecision : List (String × ExecutionAttemptState) := []

def Evidence.getReceipt (evidence : Evidence) (receiptId : String) : Option NodeReceipt :=
  evidence.receipts.find? (·.receiptId = receiptId)

/-- What a run reads of the spec of an executor. -/
structure RunnerSpec where
  idempotent : Bool
  sideEffect : SideEffect

structure StackRecovery where
  recoveryId : String
  proposalId : String
  nodeId : String
  outputDigest : String
  receiptIds : List String

/-- `StackRuntime`, with what it calls outside the table. -/
structure StackRuntime where
  /-- `registry.get` of a component. -/
  registry : String → RunnerSpec
  /-- An output has the ports of its executor, each within its contract. -/
  accepts : String → Json → Bool
  /-- The executor has an output schema and the output meets it. -/
  verifies : String → Json → Bool
  /-- `content_digest({'output': output})`. -/
  outputDigest : Json → String
  recoveryDigest : StackRecovery → String
  /-- The action id of an attempt at a node of a proposal. -/
  actionId : String → String → ℕ → String

/-! ## Transactions of a run -/

section Transactions

variable {runs runs' : StackRuns} {proposal : Proposal} {identity nodeId inputDigest : String}
  {now : Int}

def StackRun.setState (row : StackRun) (state : RunState) : StackRun := { row with state }

/-- `_state`; without a row nothing is updated. -/
def setState (runs : StackRuns) (identity : String) (state : RunState) : StackRuns :=
  match runs.lookup identity with
  | none => runs
  | some row => runs.insert identity (row.setState state)

def claim (runs : StackRuns) (proposal : Proposal) (inputDigest : String) (now : Int) :
    Result StackRuns :=
  match runs.lookup proposal.proposalId with
  | none => do
    refuseIf (∃ parent ∈ proposal.parent?, (runs.lookup parent).isSome)
      "executed predecessor requires explicit amendment; allowance cannot reset"
    return runs.insert proposal.proposalId {
      inputDigest
      state := .running
      attempts := 0
      deadline := now + Decimal.halfEven (proposal.goal.limits.maxElapsedSeconds * 1000000)
      progress := ∅ }
  | some row => do
    refuseIf (row.inputDigest ≠ inputDigest) "stack inputs changed; create a successor proposal"
    refuseIf (row.state ∈ [.running, .uncertain, .superseded])
      "stack has an active or uncertain dispatch; reconcile before resuming"
    refuseIf (row.deadline ≤ now) "stack execution deadline expired"
    return runs.insert proposal.proposalId (row.setState .running)

theorem claim_ok (h : claim runs proposal inputDigest now = .ok runs') :
    (runs.lookup proposal.proposalId = none ∧
      (∀ parent ∈ proposal.parent?, runs.lookup parent = none) ∧
      runs' = runs.insert proposal.proposalId ⟨inputDigest, .running, 0,
        now + Decimal.halfEven (proposal.goal.limits.maxElapsedSeconds * 1000000), ∅⟩) ∨
    ∃ row, runs.lookup proposal.proposalId = some row ∧ row.inputDigest = inputDigest ∧
      row.state ∉ [RunState.running, .uncertain, .superseded] ∧ now < row.deadline ∧
      runs' = runs.insert proposal.proposalId (row.setState .running) := by
  unfold claim at h
  split at h
  · next hrow =>
    simp only [bind_ok, pure_ok, raiseIf_ok, exists_const] at h
    obtain ⟨hparent, rfl⟩ := h
    refine .inl ⟨hrow, fun parent hp => ?_, rfl⟩
    rw [← Option.not_isSome_iff_eq_none]
    exact fun hs => hparent ⟨parent, hp, hs⟩
  · next row hrow =>
    simp only [bind_ok, pure_ok, raiseIf_ok, exists_const] at h
    obtain ⟨hinput, hstate, hdeadline, rfl⟩ := h
    exact .inr ⟨row, hrow, not_not.mp hinput, hstate, not_le.mp hdeadline, rfl⟩

def dispatchRecord (progress : Progress) (nodeId : String) : NodeRecord where
  state := .started
  attempts := attemptsOf progress nodeId + 1
  historyReceiptIds := (progress.lookup nodeId).elim [] fun previous =>
    previous.historyReceiptIds ++ previous.receiptIds

def reserve (runs : StackRuns) (proposal : Proposal) (nodeId : String) (now : Int) :
    Result StackRuns := do
  let row ← demand (runs.lookup proposal.proposalId) "stack attempt allowance exhausted"
  refuseIf (row.state ≠ .running ∨ proposal.goal.limits.maxAttempts ≤ row.attempts)
    "stack attempt allowance exhausted"
  refuseIf (row.deadline ≤ now) "stack execution deadline expired"
  refuseIf (stateOf row.progress nodeId ∈ [some .started, some .uncertain, some .complete])
    "node cannot be replayed"
  refuseIf (1 + proposal.goal.limits.retryReserve < attemptsOf row.progress nodeId + 1)
    "node retry reserve exhausted"
  return runs.insert proposal.proposalId { row with
    attempts := row.attempts + 1
    progress := row.progress.insert nodeId (dispatchRecord row.progress nodeId) }

theorem reserve_ok (h : reserve runs proposal nodeId now = .ok runs') :
    ∃ row, runs.lookup proposal.proposalId = some row ∧ row.state = .running ∧
      row.attempts < proposal.goal.limits.maxAttempts ∧
      stateOf row.progress nodeId ∉ [some NodeState.started, some .uncertain, some .complete] ∧
      attemptsOf row.progress nodeId ≤ proposal.goal.limits.retryReserve ∧
      runs' = runs.insert proposal.proposalId { row with
        attempts := row.attempts + 1
        progress := row.progress.insert nodeId (dispatchRecord row.progress nodeId) } := by
  simp only [reserve, bind_ok, pure_ok, require_ok, raiseIf_ok, exists_const] at h
  obtain ⟨row, hrow, hrunning, -, hstate, hretries, rfl⟩ := h
  rw [not_or, not_not, not_le] at hrunning
  exact ⟨row, hrow, hrunning.1, hrunning.2, hstate, by omega, rfl⟩

/-- A transaction that rewrites the record of a node, and the state of the row with it. The row
and the record are indexed, not looked up. -/
def rewrite (runs : StackRuns) (identity nodeId : String) (state : Option RunState)
    (change : NodeRecord → NodeRecord) : Option StackRuns := do
  let row ← runs.lookup identity
  let previous ← row.progress.lookup nodeId
  return runs.insert identity { row with
    state := state.getD row.state
    progress := row.progress.insert nodeId (change previous) }

theorem rewrite_eq_some {state : Option RunState} {change : NodeRecord → NodeRecord}
    (h : rewrite runs identity nodeId state change = some runs') :
    ∃ row previous, runs.lookup identity = some row ∧ row.progress.lookup nodeId = some previous ∧
      runs' = runs.insert identity { row with
        state := state.getD row.state
        progress := row.progress.insert nodeId (change previous) } := by
  simp only [rewrite, Option.bind_eq_bind, Option.bind_eq_some_iff, Option.pure_def,
    Option.some.injEq] at h
  obtain ⟨row, hrow, previous, hprevious, rfl⟩ := h
  exact ⟨row, previous, hrow, hprevious, rfl⟩

def complete (runs : StackRuns) (identity nodeId outputDigest : String)
    (receiptIds : List String) : Option StackRuns :=
  rewrite runs identity nodeId none fun previous => {
    state := .complete
    attempts := previous.attempts
    outputDigest := some outputDigest
    receiptIds
    historyReceiptIds := previous.historyReceiptIds }

def suspend (runs : StackRuns) (identity nodeId : String) (nodeAttempt : ℕ)
    (decisionId : Option String) (workflowHash : String) : Option StackRuns :=
  rewrite runs identity nodeId (some .waiting) fun previous => {
    state := .waiting
    attempts := nodeAttempt
    decisionId
    workflowHash := some workflowHash
    historyReceiptIds := previous.historyReceiptIds }

/-- The node failed and may be tried again. -/
def allowRetry (runs : StackRuns) (identity nodeId : String) (nodeAttempt : ℕ)
    (failedReceipts : List String) : Option StackRuns :=
  rewrite runs identity nodeId none fun previous => {
    state := .retryable
    attempts := nodeAttempt
    receiptIds := failedReceipts
    historyReceiptIds := previous.historyReceiptIds }

end Transactions

namespace StackRuntime

variable (runtime : StackRuntime)

/-! ## Recovery of a checkpoint -/

/-- What `reconcile` asks of one receipt. -/
def vouches (component : Implementation) (action : String) (evidence : Evidence)
    (receiptId : String) : Result Unit := do
  let refusal := "recovery requires verified successful receipts for this exact dispatch"
  let receipt ← demand (evidence.getReceipt receiptId) refusal
  refuseIf (receipt.actionId ≠ action ∨ receipt.executorId ≠ component.executorId ∨
    receipt.executorFingerprint ≠ component.executorFingerprint ∨ receipt.status ≠ .success ∨
    receipt.outputValid ≠ some true ∨ receipt.taskValid ≠ some true) refusal
  refuseIf (∃ preparedId ∈ receipt.preparedId,
      evidence.prepared.lookup preparedId ≠ some .settled)
    "prepared dispatch must be settled before checkpoint recovery"
  let attempt := match receipt.preparedId.filter (· ≠ "") with
    | some preparedId => evidence.attemptForPrepared.lookup preparedId
    | none => evidence.attemptForDecision.lookup receipt.decisionId
  refuseIf (∃ state ∈ attempt, state ≠ .completed)
    "existing attempt recovery must complete first"

def reconcile (runs : StackRuns) (proposal : Proposal) (recovery : StackRecovery) (output : Json)
    (evidence : Evidence) : Result StackRuns := do
  refuseIf (recovery.proposalId ≠ proposal.proposalId) "unknown stack proposal"
  refuseIf (runtime.outputDigest output ≠ recovery.outputDigest)
    "reviewed recovery artifact does not match"
  let component ← demand (proposal.components.find? (·.nodeId = recovery.nodeId))
    "unknown recovery node"
  refuseIf (¬ runtime.verifies component.executorId output) "recovery requires output verification"
  refuseIf (¬ runtime.accepts component.executorId output) "recovered artifact port missing"
  refuseIf (runtime.recoveryDigest recovery ∉ evidence.reviewed)
    "exact recovery observation requires operator review"
  let row ← demand (runs.lookup proposal.proposalId) "stack has no interrupted claim to reconcile"
  refuseIf (row.state ∉ [.running, .uncertain]) "stack has no interrupted claim to reconcile"
  let record ← demand (row.progress.lookup recovery.nodeId) "node is not an interrupted dispatch"
  refuseIf (record.state ≠ .started) "node is not an interrupted dispatch"
  recovery.receiptIds.forM (vouches component
    (runtime.actionId proposal.proposalId recovery.nodeId record.attempts) evidence)
  return runs.insert proposal.proposalId { row with
    state := .paused
    progress := row.progress.insert recovery.nodeId {
      state := .complete
      attempts := record.attempts
      outputDigest := some recovery.outputDigest
      receiptIds := recovery.receiptIds
      recoveryDigest := some (runtime.recoveryDigest recovery)
      historyReceiptIds := record.historyReceiptIds } }

variable {runtime}

theorem reconcile_ok {runs runs' : StackRuns} {proposal : Proposal} {recovery : StackRecovery}
    {output : Json} {evidence : Evidence}
    (h : runtime.reconcile runs proposal recovery output evidence = .ok runs') :
    ∃ row record recovered, runs.lookup proposal.proposalId = some row ∧
      row.state ∈ [RunState.running, .uncertain] ∧
      row.progress.lookup recovery.nodeId = some record ∧ record.state = .started ∧
      recovered.state = .complete ∧ recovered.attempts = record.attempts ∧
      runs' = runs.insert proposal.proposalId { row with
        state := .paused
        progress := row.progress.insert recovery.nodeId recovered } := by
  simp only [reconcile, bind_ok, pure_ok, require_ok, raiseIf_ok, exists_const] at h
  obtain ⟨-, -, component, -, -, -, -, row, hrow, hstate, record, hrecord, hstarted, h⟩ := h
  obtain ⟨u, -, rfl⟩ := h
  refine ⟨row, record, _, hrow, not_not.mp hstate, hrecord, not_not.mp hstarted, ?_, ?_, rfl⟩
  · rfl
  · rfl

end StackRuntime

end AeepRouter.Stack

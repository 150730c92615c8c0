import AeepRouter.Lib.Search
import AeepRouter.Stack.Limits
import Mathlib.Data.List.Lex
import Mathlib.Data.String.Basic

/-!
# The search for a configuration

`propose` takes the nodes of a goal in order and keeps a beam of partial configurations. For each it
tries the candidates of the next node; `edges` finds the ways to connect a candidate, each binding
directly or through one converter. What does not fit the limits is dropped, and the flag of the
search is lowered wherever a list is cut or the allowance of work or time ends.

What an executor is estimated to take and how it scores, the ports of the executors and the
readings of the clock are given.
-/

namespace AeepRouter.Stack

open Lib

/-! ## The router -/

structure StackPortMapping where
  inputs : List (String × ArtifactContract) := []
  outputs : List (String × ArtifactContract) := []
  setupIds : List String := []

structure ExecutorSpec where
  id : String
  capability : String
  enabled : Bool := true
  outputSchema : Option Json := none

structure ActionRequest where
  capability : String
  input : List (String × Json) := []
  policy : String
  constraints : ActionConstraints
  dataSensitivity : DataSensitivity
  size : capability.toList ≠ [] ∧ capability.toList.length ≤ 200

/-- The constructor with its validation. -/
def ActionRequest.make (capability : String) (input : List (String × Json)) (policy : String)
    (constraints : ActionConstraints) (dataSensitivity : DataSensitivity) : Result ActionRequest :=
  if h : capability.toList ≠ [] ∧ capability.toList.length ≤ 200 then
    .ok ⟨capability, input, policy, constraints, dataSensitivity, h⟩
  else .error (.value "capability")

structure Estimate where
  score : ℚ
  resources : ResourceVector
  amountUsd : Option ℚ≥0
  upperBoundUsd : Option ℚ≥0

/-- What estimating and scoring an executor comes to. -/
inductive Assessed where
  | scored (estimate : Estimate)
  | infeasible
  | unavailable

/-- What planning uses of a `Router`. -/
structure Router where
  executors : List ExecutorSpec
  policies : List String
  defaultPolicy : String
  /-- `port_mapping`. -/
  ports : String → StackPortMapping
  /-- `_require_active_spec` does not raise. -/
  active : ExecutorSpec → Bool
  assess : ActionRequest → ExecutorSpec → Assessed
  distinct : (executors.map (·.id)).Nodup
  default_mem : defaultPolicy ∈ policies

namespace Router

/-- `registry.get`. -/
def get? (router : Router) (executorId : String) : Option ExecutorSpec :=
  router.executors.find? (·.id = executorId)

/-- `registry.find`, in the order of the names. -/
def find (router : Router) (capability : String) : List ExecutorSpec :=
  (router.executors.filter fun spec => spec.capability = capability ∧ spec.enabled).insertionSort
    fun a b => a.id ≤ b.id

/-- `_policy_for`; only whether there is one matters here. -/
def policyFor (router : Router) (action : ActionRequest) : Result Unit :=
  let name := if action.policy = "" then router.defaultPolicy else action.policy
  refuseIf (name ∉ router.policies) ("unknown policy '" ++ name ++ "'; available: " ++
    String.intercalate ", " (router.policies.insertionSort (· ≤ ·)))

end Router

structure StackPlanningConfig where
  candidatesPerNode : ℕ := 8
  beamWidth : ℕ := 32
  maxExpansions : ℕ := 16384
  maxSeconds : ℚ≥0 := (10 : ℕ)
  maxGoalBytes : ℕ := 131072
  converterIds : List String := []

/-- `StackService`, with the readings of the clock in the order they are made. -/
structure StackService where
  router : Router
  config : StackPlanningConfig := {}
  clock : ℕ → ℚ
  /-- The bytes of a goal as JSON. -/
  encodedSize : GoalSpec → ℕ
  inspect : String → Result Unit

/-! ## Edges and configurations -/

structure CompatibilityEdge where
  sourceNode : String
  sourcePort : String
  targetNode : String
  targetPort : String
  verdict : Verdict
  reasons : List String
  converterId : Option String := none
  converterNode : Option String := none
  deriving DecidableEq

def CompatibilityEdge.through (edge : CompatibilityEdge) : Option StackComponent → CompatibilityEdge
  | none => edge
  | some converter =>
    { edge with
      verdict := .compatible
      reasons := ["reviewed converter required"]
      converterId := some converter.executorId
      converterNode := some converter.nodeId }

structure Variant where
  edges : List CompatibilityEdge
  converters : List StackComponent
  deriving DecidableEq

structure Configuration where
  components : List StackComponent
  edges : List CompatibilityEdge
  deriving DecidableEq

def scoreOf (components : List StackComponent) : ℚ := (components.map (·.score)).sum

def sortKey (components : List StackComponent) : ℚ ×ₗ List String :=
  toLex (scoreOf components, components.map (·.executorId))

/-! ## The state of a search -/

inductive Raised where
  | timeout
  | key (name : String)
  | error (e : Err)
  deriving DecidableEq

/-- What a search has done and noted. -/
structure Search where
  reads : ℕ := 0
  work : ℕ := 0
  rejected : List String := []
  alternatives : List (String × List String) := []

abbrev Planning := EStateM Raised Search

/-- Raises the error of a failed call. -/
def lift {α : Type} : Result α → Planning α
  | .ok a => pure a
  | .error e => throw (.error e)

/-- `by_node[name]`; a later component hides an earlier one. -/
def byNode (chosen : List StackComponent) (name : String) : Planning StackComponent :=
  match chosen.reverse.find? (·.nodeId = name) with
  | some component => pure component
  | none => throw (.key name)

def converterName (node : TaskNode) (binding : StackBinding) : String :=
  "convert:" ++ node.nodeId ++ ":" ++ binding.targetPort

namespace StackService

variable (service : StackService)

/-- `time.monotonic()`. -/
def now : Planning ℚ := fun s => .ok (service.clock s.reads) { s with reads := s.reads + 1 }

/-- One expansion. -/
def spend : Planning Unit := modify fun s => { s with work := s.work + 1 }

/-! ## Candidates -/

/-- What an executor offers for a node, or why it is rejected. -/
def offer (action : ActionRequest) (node : TaskNode) (spec : ExecutorSpec) :
    Except String StackComponent :=
  let ports := service.router.ports spec.id
  let unavailable := node.nodeId ++ "/" ++ spec.id ++
    ": contract, evidence or authority unavailable"
  if ¬ service.router.active spec then .error unavailable
  else if node.verificationRequired ∧ spec.outputSchema.isNone then .error unavailable
  else if ¬ ∀ port ∈ node.inputs,
      (compatible (some port.2) (ports.inputs.lookup port.1)).1 = .compatible then
    .error unavailable
  else if ¬ ∀ port ∈ node.outputs,
      (compatible (ports.outputs.lookup port.1) (some port.2)).1 = .compatible then
    .error unavailable
  else match service.router.assess action spec with
    | .unavailable => .error unavailable
    | .infeasible => .error (node.nodeId ++ "/" ++ spec.id ++ ": policy-ineligible")
    | .scored estimate => .ok {
        nodeId := node.nodeId
        executorId := spec.id
        score := estimate.score
        estimated := estimate.resources
        expectedCashUsd := estimate.amountUsd
        maximumCashUsd := estimate.upperBoundUsd
        setupIds := ports.setupIds }

/-- The loop of `_candidates`. -/
def consider (action : ActionRequest) (node : TaskNode) (deadline : ℚ) :
    List ExecutorSpec → Planning (List StackComponent × List String)
  | [] => pure ([], [])
  | spec :: specs => do
    if deadline ≤ (← service.now) then
      throw .timeout
    else
      let (found, rejected) ← consider action node deadline specs
      match service.offer action node spec with
      | .ok component => return (component :: found, rejected)
      | .error reason => return (found, reason :: rejected)

def sortFound (found : List StackComponent) : List StackComponent :=
  found.insertionSort fun a b => toLex (a.score, a.executorId) ≤ toLex (b.score, b.executorId)

/-- The request candidates are found for. -/
def action (goal : GoalSpec) (node : TaskNode) : Result ActionRequest :=
  ActionRequest.make node.capability [] goal.policy goal.constraints (nodeContext node)

def candidates (goal : GoalSpec) (node : TaskNode) (deadline : ℚ) :
    Planning (List StackComponent × List String) := do
  let action ← lift (action goal node)
  lift (service.router.policyFor action)
  let (found, rejected) ←
    service.consider action node deadline (service.router.find node.capability)
  return (sortFound found, rejected)

/-! ## Edges of one node -/

def converterNode? (node : TaskNode) (binding : StackBinding)
    (output target : Option ArtifactContract) (executorId : String) : Option TaskNode :=
  match service.router.get? executorId with
  | none => none
  | some spec =>
    let mapping := service.router.ports executorId
    match mapping.inputs, mapping.outputs with
    | [(_, input)], [(_, result)] =>
      if (compatible output (some input)).1 ≠ .compatible ∨
          (compatible (some result) target).1 ≠ .compatible then none
      else some {
        nodeId := converterName node binding
        capability := spec.capability
        inputs := mapping.inputs
        outputs := mapping.outputs }
    | _, _ => none

def convertersOf (goal : GoalSpec) (node : TaskNode) (binding : StackBinding)
    (output target : Option ArtifactContract) (deadline : ℚ) (executorId : String) :
    Planning (Option (Listing StackComponent)) :=
  match service.converterNode? node binding output target executorId with
  | none => return some ⟨[], true⟩
  | some converterNode => do
    lift converterNode.validate
    let (possible, _) ← service.candidates goal converterNode deadline
    return some ⟨possible.filter (·.executorId = executorId), true⟩

/-- The converters for a binding, unless its ports are compatible. -/
def options (goal : GoalSpec) (node : TaskNode) (binding : StackBinding)
    (output target : Option ArtifactContract) (deadline : ℚ) : Planning (Listing StackComponent) :=
  if (compatible output target).1 ≠ .compatible then do
    let found ← gather (service.convertersOf goal node binding output target deadline)
      (sortedSet service.config.converterIds)
    return (found.sortBy fun c : StackComponent => toLex (c.score, c.executorId)).cut
      service.config.candidatesPerNode
  else return ⟨[], true⟩

/-- One way to go on with a variant. -/
def tryRoute (goal : GoalSpec) (chosen : List StackComponent) (candidate : StackComponent)
    (edge : CompatibilityEdge) (deadline : ℚ) (variant : Variant)
    (converter : Option StackComponent) : Planning (Option (Listing Variant)) := do
  if service.config.maxExpansions ≤ (← get).work then
    throw .timeout
  else if deadline ≤ (← service.now) then
    throw .timeout
  else
    spend
    let added := variant.converters ++ converter.toList
    if fits goal (chosen ++ added ++ [candidate]) then
      return some ⟨[⟨variant.edges ++ [edge.through converter], added⟩], true⟩
    else return some ⟨[], true⟩

def outputOf (source : StackComponent) (binding : StackBinding) : Option ArtifactContract :=
  (service.router.ports source.executorId).outputs.lookup binding.sourcePort

def targetOf (candidate : StackComponent) (binding : StackBinding) : Option ArtifactContract :=
  (service.router.ports candidate.executorId).inputs.lookup binding.targetPort

def directEdge (node : TaskNode) (binding : StackBinding) (source candidate : StackComponent) :
    CompatibilityEdge :=
  let comparison := compatible (service.outputOf source binding)
    (service.targetOf candidate binding)
  { sourceNode := binding.sourceNode
    sourcePort := binding.sourcePort
    targetNode := node.nodeId
    targetPort := binding.targetPort
    verdict := comparison.1
    reasons := comparison.2 }

def choices : List StackComponent → List (Option StackComponent)
  | [] => [none]
  | options => options.map some

/-- The loop of `_edges` over the bindings of a node. -/
def extendVariants (goal : GoalSpec) (node : TaskNode) (candidate : StackComponent)
    (chosen : List StackComponent) (deadline : ℚ) :
    List StackBinding → Listing Variant → Planning (Listing Variant)
  | [], variants => return variants
  | binding :: bindings, variants => do
    let source ← byNode chosen binding.sourceNode
    let options ← service.options goal node binding (service.outputOf source binding)
      (service.targetOf candidate binding) deadline
    let expanded ← gather (fun variant => return some (← gather
      (service.tryRoute goal chosen candidate (service.directEdge node binding source candidate)
        deadline variant) (choices options.items))) variants.items
    extendVariants goal node candidate chosen deadline bindings
      (((expanded.sortBy fun v : Variant => sortKey v.converters).cut service.config.beamWidth).onlyIf
        (variants.complete && options.complete))

def edges (goal : GoalSpec) (node : TaskNode) (candidate : StackComponent)
    (chosen : List StackComponent) (deadline : ℚ) : Planning (Listing Variant) :=
  service.extendVariants goal node candidate chosen deadline node.bindings ⟨[⟨[], []⟩], true⟩

/-! ## The beam -/

/-- What is noted about the edges that are not compatible. -/
def complaints (variant : Variant) : List String :=
  variant.edges.flatMap fun e =>
    if e.verdict ≠ .compatible then e.reasons.map fun reason =>
      e.sourceNode ++ "->" ++ e.targetNode ++ "/" ++ e.targetPort ++ ": " ++
        (if e.verdict = .incompatible then "incompatible" else "unknown") ++ ": " ++ reason
    else []

/-- The configuration with a candidate and the variant of its edges, if it may be kept. -/
def extend (goal : GoalSpec) (current : Configuration) (candidate : StackComponent)
    (variant : Variant) : Option Configuration :=
  if ∃ edge ∈ variant.edges, edge.verdict ≠ .compatible then none
  else if fits goal (current.components ++ variant.converters ++ [candidate]) then
    some ⟨current.components ++ variant.converters ++ [candidate], current.edges ++ variant.edges⟩
  else none

/-- One candidate for the next node of a configuration; `none` when the allowance has ended. -/
def tryCandidate (goal : GoalSpec) (started : ℚ) (node : TaskNode) (current : Configuration)
    (candidate : StackComponent) : Planning (Option (Listing Configuration)) := do
  if service.config.maxExpansions ≤ (← get).work then
    return none
  else if service.config.maxSeconds < (← service.now) - started then
    return none
  else
    spend
    let variants ← service.edges goal node candidate current.components
      (started + service.config.maxSeconds)
    modify fun s => { s with rejected := s.rejected ++ variants.items.flatMap complaints }
    return some ⟨variants.items.filterMap (extend goal current candidate), variants.complete⟩

/-- The loop of `propose` over the nodes. -/
def search (goal : GoalSpec) (started : ℚ) :
    List TaskNode → Listing Configuration → Planning (Listing Configuration)
  | [], beam => return beam
  | node :: nodes, beam => do
    let (found, reasons) ← service.candidates goal node (started + service.config.maxSeconds)
    let kept := (Listing.mk found true).cut service.config.candidatesPerNode
    modify fun s => { s with
      rejected := s.rejected ++ reasons
      alternatives := s.alternatives ++ [(node.nodeId, kept.items.map (·.executorId))] }
    let next ← gather (fun current => return some (← gather
      (service.tryCandidate goal started node current) kept.items)) beam.items
    let beam := ((next.sortBy fun c : Configuration => sortKey c.components).cut
      service.config.beamWidth).onlyIf (beam.complete && kept.complete)
    if beam.items = [] then return beam else search goal started nodes beam

end StackService

/-! ## Proposals -/

inductive ProposalStatus where
  | ready
  | needsSetup
  | needsAssessment
  | blocked
  deriving DecidableEq, Repr

structure StackProposal where
  goal : GoalSpec
  components : List StackComponent
  edges : List CompatibilityEdge
  estimated : ResourceVector
  expectedCashUsd : Option ℚ
  maximumCashUsd : Option ℚ
  status : ProposalStatus
  blockers : List String
  warnings : List String
  alternatives : List (String × List String)
  searchComplete : Bool
  expansions : ℕ
  parentId : Option String

/-- The policy behind a familiar name. -/
def aliases (policy : String) : String :=
  if policy = "cost" then "cheapest"
  else if policy = "speed" then "fastest"
  else if policy = "quality" then "reliable"
  else if policy = "privacy" then "resource_saver"
  else policy

namespace StackService

variable (service : StackService)

def prepare (goal : GoalSpec) : GoalSpec :=
  { goal with
    constraints :=
      if goal.policy = "privacy" then
        mergeConstraints goal.constraints { requireLocal := true, allowNetwork := false }
      else goal.constraints
    policy := if goal.policy ∈ service.router.policies then goal.policy else aliases goal.policy }

def conclude (goal : GoalSpec) (parentId : Option String) (beam : Listing Configuration)
    (s : Search) : StackProposal :=
  let best := beam.items.head?.getD ⟨[], []⟩
  let totals := aggregate best.components goal.limits.retryReserve
  let empty := best.components.isEmpty
  { goal
    components := best.components
    edges := best.edges
    estimated := totals.1
    expectedCashUsd := if empty then none else totals.2.1
    maximumCashUsd := if empty then none else totals.2.2
    status :=
      if ∃ c ∈ best.components, c.setupIds ≠ [] then .needsSetup
      else if beam.items.isEmpty then .blocked else .ready
    blockers := if beam.items.isEmpty then
      ["No compatible configuration within the inspected candidates and budget."] else []
    warnings := s.rejected ++
      (if beam.complete then [] else
        ["Search was bounded; optimality or global infeasibility is not established."]) ++
      ["Resource estimates are priors for unresolved inputs; dispatch revalidates real inputs."]
    alternatives := s.alternatives
    searchComplete := beam.complete
    expansions := s.work
    parentId }

def propose (goal : GoalSpec) (parentId : Option String := none) :
    Except Raised StackProposal := do
  ((parentId.filter (· ≠ "")).forM service.inspect).mapError .error
  goal.validate.mapError .error
  let goal := service.prepare goal
  raiseIf (service.config.maxGoalBytes < service.encodedSize goal)
    (.error (.configuration "semantic graph exceeds operator size ceiling"))
  let started := service.clock 0
  let beam : Listing Configuration := ⟨[⟨[], []⟩], true⟩
  match (service.search goal started goal.orderedNodes beam).run { reads := 1 } with
  | .ok beam s => return conclude goal parentId beam s
  | .error .timeout s => return conclude goal parentId ⟨[], false⟩ { s with
      rejected := s.rejected ++ ["Planning allowance exhausted; search incomplete."] }
  | .error e _ => throw e

end StackService

end AeepRouter.Stack

import AeepRouter.Base
import AeepRouter.Lib.Layers
import AeepRouter.Stack.Compatibility

/-!
# Goals

A goal is a graph of task nodes, whose bindings carry an output port of one node to an input port of
another, with limits and constraints. `GoalSpec.validate` is the validation of the models; the nodes
are taken in the order of `orderedNodes`. Floating-point fields are exact.
-/

namespace AeepRouter.Stack

open Lib

/-! ## Constraints -/

inductive ExecutorKind where
  | command
  | python
  | http
  | mcp
  | host
  | managedHost
  | delegate
  deriving DecidableEq, Repr

inductive DataSensitivity where
  | publicData
  | internalData
  | confidential
  | restricted
  deriving DecidableEq, Repr

structure ActionConstraints where
  maxCostUsd : Option ℚ≥0 := none
  maxLatencyMs : Option ℚ≥0 := none
  maxCpuMs : Option ℚ≥0 := none
  maxMemoryMbSeconds : Option ℚ≥0 := none
  maxPeakMemoryMb : Option ℚ≥0 := none
  maxGpuMs : Option ℚ≥0 := none
  maxNetworkBytes : Option ℕ := none
  maxContextTokens : Option ℕ := none
  minSuccessProbability : ℚ≥0 := (7 : ℕ) / (10 : ℕ)
  minQualityScore : ℚ≥0 := 1 / (2 : ℕ)
  maxRiskScore : ℚ≥0 := 1 / (2 : ℕ)
  maxSideEffect : SideEffect := .read
  allowNetwork : Bool := true
  requireLocal : Bool := false
  allowedExecutorKinds : Option (List ExecutorKind) := none
  allowedExecutorIds : Option (List String) := none
  deniedExecutorIds : List String := []
  allowedDataResidency : Option (List String) := none
  deriving DecidableEq

def strictestMax {α : Type} [Min α] : Option α → Option α → Option α
  | none, b => b
  | a, none => a
  | some a, some b => some (min a b)

def intersection {α : Type} [DecidableEq α] : Option (List α) → Option (List α) → Option (List α)
  | none, b => b
  | a, none => a
  | some a, some b => some (a.filter (· ∈ b))

def sortedSet (values : List String) : List String := values.dedup.insertionSort (· ≤ ·)

def mergeConstraints (policy request : ActionConstraints) : ActionConstraints where
  maxCostUsd := strictestMax policy.maxCostUsd request.maxCostUsd
  maxLatencyMs := strictestMax policy.maxLatencyMs request.maxLatencyMs
  maxCpuMs := strictestMax policy.maxCpuMs request.maxCpuMs
  maxMemoryMbSeconds := strictestMax policy.maxMemoryMbSeconds request.maxMemoryMbSeconds
  maxPeakMemoryMb := strictestMax policy.maxPeakMemoryMb request.maxPeakMemoryMb
  maxGpuMs := strictestMax policy.maxGpuMs request.maxGpuMs
  maxNetworkBytes := strictestMax policy.maxNetworkBytes request.maxNetworkBytes
  maxContextTokens := strictestMax policy.maxContextTokens request.maxContextTokens
  minSuccessProbability := max policy.minSuccessProbability request.minSuccessProbability
  minQualityScore := max policy.minQualityScore request.minQualityScore
  maxRiskScore := min policy.maxRiskScore request.maxRiskScore
  maxSideEffect :=
    if policy.maxSideEffect.rank ≤ request.maxSideEffect.rank then policy.maxSideEffect
    else request.maxSideEffect
  allowNetwork := policy.allowNetwork && request.allowNetwork
  requireLocal := policy.requireLocal || request.requireLocal
  allowedExecutorKinds := intersection policy.allowedExecutorKinds request.allowedExecutorKinds
  allowedExecutorIds := intersection policy.allowedExecutorIds request.allowedExecutorIds
  deniedExecutorIds := sortedSet (policy.deniedExecutorIds ++ request.deniedExecutorIds)
  allowedDataResidency := intersection policy.allowedDataResidency request.allowedDataResidency

/-! ## Nodes -/

/-- `^[A-Za-z0-9_.:-]+$`, at most 100 characters. -/
def isStepId (s : String) : Bool :=
  s.toList ≠ [] && s.toList.all (fun c => c.isAlphanum || c ∈ ['_', '.', ':', '-']) &&
    s.toList.length ≤ 100

/-- `^[a-z0-9][a-z0-9_.-]*@[0-9]+(?:\.[0-9]+){0,2}$`. -/
def isCapability (s : String) : Bool :=
  match s.toList.splitOn '@' with
  | [first :: name, version] =>
    (first.isLower || first.isDigit) &&
      name.all (fun c => c.isLower || c.isDigit || c ∈ ['_', '.', '-']) &&
      (version.splitOn '.').length ≤ 3 &&
      (version.splitOn '.').all fun part => part ≠ [] && part.all Char.isDigit
  | _ => false

structure StackBinding where
  sourceNode : String
  sourcePort : String
  targetPort : String
  deriving DecidableEq

structure TaskNode where
  nodeId : String
  capability : String
  inputs : List (String × ArtifactContract) := []
  outputs : List (String × ArtifactContract) := []
  bindings : List StackBinding := []
  dependsOn : List String := []
  verificationRequired : Bool := true

/-- A simple property name: not empty, without `/` and `~`. -/
def isPort (key : String) : Bool := key.toList ≠ [] && '/' ∉ key.toList && '~' ∉ key.toList

/-- The validation of a `TaskNode`; an error of a field names the field. -/
def TaskNode.validate (node : TaskNode) : Result Unit := do
  raiseIf (¬ isStepId node.nodeId) (.value "node_id")
  raiseIf (¬ isCapability node.capability) (.value "capability")
  raiseIf (32 < node.inputs.length) (.value "inputs")
  raiseIf (32 < node.outputs.length) (.value "outputs")
  raiseIf (32 < node.bindings.length) (.value "bindings")
  raiseIf (64 < node.dependsOn.length) (.value "depends_on")
  raiseIf (¬ ∀ port ∈ node.inputs ++ node.outputs, isPort port.1)
    (.value "ports must be nonempty simple property names")
  let targets := node.bindings.map (·.targetPort)
  raiseIf (¬ targets.Nodup ∨ ¬ targets ⊆ node.inputs.map (·.1))
    (.value "bindings require distinct declared input ports")

structure TaskNode.Valid (node : TaskNode) : Prop where
  nodeId : isStepId node.nodeId
  capability : isCapability node.capability
  inputs : node.inputs.length ≤ 32
  outputs : node.outputs.length ≤ 32
  bindings : node.bindings.length ≤ 32
  dependsOn : node.dependsOn.length ≤ 64
  ports : ∀ port ∈ node.inputs ++ node.outputs, isPort port.1
  distinct : (node.bindings.map (·.targetPort)).Nodup
  declared : node.bindings.map (·.targetPort) ⊆ node.inputs.map (·.1)

theorem TaskNode.validate_ok {node : TaskNode} : node.validate = .ok () ↔ node.Valid := by
  simp only [validate, bind_ok, raiseIf_ok, exists_const, not_not, not_lt, not_or]
  constructor
  · rintro ⟨h1, h2, h3, h4, h5, h6, h7, h8, h9⟩
    exact ⟨h1, h2, h3, h4, h5, h6, h7, h8, h9⟩
  · rintro ⟨h1, h2, h3, h4, h5, h6, h7, h8, h9⟩
    exact ⟨h1, h2, h3, h4, h5, h6, h7, h8, h9⟩

def nodeContext (node : TaskNode) : DataSensitivity :=
  let classifications := node.inputs.map (·.2.confidentiality)
  if some .restricted ∈ classifications then .restricted
  else if some .privateData ∈ classifications then .confidential
  else .publicData

/-! ## Graphs -/

structure StackLimits where
  maxCashUsd : ℚ≥0 := 0
  maxAttempts : ℕ := 64
  maxAttemptSeconds : ℚ≥0 := (60 : ℕ)
  maxElapsedSeconds : ℚ≥0 := (3600 : ℕ)
  retryReserve : ℕ := 0

structure GoalSpec where
  goalId : String
  nodes : List TaskNode
  deliverables : List String
  constraints : ActionConstraints := {}
  limits : StackLimits := {}
  policy : String := "balanced"
  proposeOnly : Bool := true

/-- The namespace of converter nodes. -/
def isReserved (nodeId : String) : Bool := "convert:".toList.isPrefixOf nodeId.toList

def TaskNode.dependencies (node : TaskNode) : List String :=
  node.dependsOn ++ node.bindings.map (·.sourceNode)

namespace GoalSpec

def node? (goal : GoalSpec) (nodeId : String) : Option TaskNode :=
  goal.nodes.find? (·.nodeId = nodeId)

/-- What the node of that name waits for. -/
def dependencies (goal : GoalSpec) (nodeId : String) : List String :=
  ((goal.node? nodeId).map (·.dependencies)).getD []

def ids (goal : GoalSpec) : List String := goal.nodes.map (·.nodeId)

/-- The names in the order of execution. -/
def orderedIds (goal : GoalSpec) : List String :=
  Layers.layers goal.dependencies (List.insertionSort (· ≤ ·)) goal.nodes.length goal.ids

def orderedNodes (goal : GoalSpec) : List TaskNode := goal.orderedIds.filterMap goal.node?

def checkDependencies (goal : GoalSpec) (node : TaskNode) : Result Unit := do
  raiseIf (¬ node.dependencies ⊆ goal.ids) (.value "unknown dependency")
  raiseIf (¬ ∀ binding ∈ node.bindings, ∀ source ∈ goal.node? binding.sourceNode,
    binding.sourcePort ∈ source.outputs.map (·.1)) (.value "unknown source port")

theorem perm_sort (l : List String) : (l.insertionSort (· ≤ ·)).Perm l :=
  List.perm_insertionSort _ _

/-- `TopologicalSorter(dependencies).static_order()` raises `CycleError` unless this holds. -/
def Acyclic (goal : GoalSpec) : Prop := Layers.Acyclic goal.dependencies goal.ids

instance (goal : GoalSpec) : Decidable (goal.ids.Nodup → goal.Acyclic) :=
  if h : goal.ids.Nodup then
    decidable_of_iff (goal.orderedIds.Perm goal.ids) <| by
      have hacyclic := Layers.acyclic_iff goal.dependencies perm_sort h
      rw [show goal.ids.length = goal.nodes.length from List.length_map ..] at hacyclic
      exact ⟨fun hp _ => hacyclic.mpr hp, fun ha => hacyclic.mp (ha h)⟩
  else isTrue fun h' => absurd h' h

/-- The validation of a `GoalSpec`; an error of a field names the field. -/
def validate (goal : GoalSpec) : Result Unit := do
  raiseIf (¬ isStepId goal.goalId) (.value "goal_id")
  raiseIf (goal.nodes = []) (.value "nodes")
  raiseIf (64 < goal.nodes.length) (.value "nodes")
  goal.nodes.forM TaskNode.validate
  raiseIf (goal.deliverables = []) (.value "deliverables")
  raiseIf (64 < goal.deliverables.length) (.value "deliverables")
  raiseIf (goal.limits.maxAttempts < 1 ∨ 1000 < goal.limits.maxAttempts)
    (.value "limits.max_attempts")
  raiseIf (goal.limits.maxAttemptSeconds = 0 ∨ 3600 < goal.limits.maxAttemptSeconds)
    (.value "limits.max_attempt_seconds")
  raiseIf (goal.limits.maxElapsedSeconds = 0 ∨ 86400 < goal.limits.maxElapsedSeconds)
    (.value "limits.max_elapsed_seconds")
  raiseIf (9 < goal.limits.retryReserve) (.value "limits.retry_reserve")
  raiseIf (100 < goal.policy.toList.length) (.value "policy")
  raiseIf (∃ node ∈ goal.nodes, isReserved node.nodeId)
    (.value "convert: node namespace is reserved")
  raiseIf (¬ goal.ids.Nodup ∨ ¬ goal.deliverables ⊆ goal.ids)
    (.value "duplicate nodes or unknown deliverable")
  goal.nodes.forM goal.checkDependencies
  raiseIf (¬ (goal.ids.Nodup → goal.Acyclic)) (.value "stack contains a dependency cycle")

structure Valid (goal : GoalSpec) : Prop where
  goalId : isStepId goal.goalId
  nonempty : goal.nodes ≠ []
  size : goal.nodes.length ≤ 64
  nodes : ∀ node ∈ goal.nodes, node.Valid
  attempts : 1 ≤ goal.limits.maxAttempts
  delivered : goal.deliverables ≠ []
  unreserved : ∀ node ∈ goal.nodes, ¬ isReserved node.nodeId
  nodup : goal.ids.Nodup
  deliverables : goal.deliverables ⊆ goal.ids
  dependencies : ∀ node ∈ goal.nodes, node.dependencies ⊆ goal.ids
  ports : ∀ node ∈ goal.nodes, ∀ binding ∈ node.bindings, ∀ source ∈ goal.node? binding.sourceNode,
    binding.sourcePort ∈ source.outputs.map (·.1)
  acyclic : goal.Acyclic

theorem checkDependencies_ok {goal : GoalSpec} {node : TaskNode} :
    goal.checkDependencies node = .ok () ↔ node.dependencies ⊆ goal.ids ∧
      ∀ binding ∈ node.bindings, ∀ source ∈ goal.node? binding.sourceNode,
        binding.sourcePort ∈ source.outputs.map (·.1) := by
  simp only [checkDependencies, bind_ok, raiseIf_ok, exists_const, not_not]

theorem validate_ok {goal : GoalSpec} (h : goal.validate = .ok ()) : goal.Valid := by
  simp only [validate, bind_ok, raiseIf_ok, exists_const, not_not, not_lt, not_or, not_exists,
    not_and, forM_ok, checkDependencies_ok, TaskNode.validate_ok] at h
  obtain ⟨h1, h2, h3, h4, h5, -, h6, -, -, -, -, h7, h8, h9, h10⟩ := h
  exact ⟨h1, h2, h3, h4, by omega, h5, h7, h8.1, h8.2, fun node hn => (h9 node hn).1,
    fun node hn => (h9 node hn).2, h10 h8.1⟩

/-! ## The order of the nodes -/

section Order

variable {goal : GoalSpec}

theorem node?_of_mem (h : goal.ids.Nodup) {node : TaskNode} (hn : node ∈ goal.nodes) :
    goal.node? node.nodeId = some node := by
  unfold node?
  cases hf : goal.nodes.find? (·.nodeId = node.nodeId) with
  | none => exact absurd (List.find?_eq_none.mp hf node hn) (by simp)
  | some m =>
    have hm := List.mem_of_find?_eq_some hf
    have hid : m.nodeId = node.nodeId := by simpa using List.find?_some hf
    rw [List.inj_on_of_nodup_map h hm hn hid]

theorem nodeId_of_node? {nodeId : String} {node : TaskNode} (h : goal.node? nodeId = some node) :
    node ∈ goal.nodes ∧ node.nodeId = nodeId :=
  ⟨List.mem_of_find?_eq_some h, by simpa using List.find?_some h⟩

theorem Valid.orderedIds_perm (h : goal.Valid) : goal.orderedIds.Perm goal.ids :=
  Layers.layers_perm perm_sort h.acyclic (by simp [ids])

/-- Every node is taken once. -/
theorem Valid.orderedNodes_perm (h : goal.Valid) : goal.orderedNodes.Perm goal.nodes := by
  have hall : goal.ids.filterMap goal.node? = goal.nodes := by
    rw [ids, List.filterMap_map, ← List.filterMap_some (l := goal.nodes), List.filterMap_filterMap]
    exact List.filterMap_congr fun node hn => node?_of_mem h.nodup hn
  exact (h.orderedIds_perm.filterMap _).trans (.of_eq hall)

theorem node?_of_mem_ids {nodeId : String} (h : nodeId ∈ goal.ids) :
    ∃ node, goal.node? nodeId = some node := by
  obtain ⟨node, hn, hid⟩ := List.mem_map.mp h
  exact Option.isSome_iff_exists.mp (List.find?_isSome.mpr ⟨node, hn, by simpa using hid⟩)

theorem Valid.map_orderedNodes (h : goal.Valid) :
    goal.orderedNodes.map (·.nodeId) = goal.orderedIds := by
  have hmem : ∀ nodeId ∈ goal.orderedIds, nodeId ∈ goal.ids := fun _ =>
    h.orderedIds_perm.mem_iff.mp
  unfold orderedNodes
  generalize goal.orderedIds = order at hmem
  induction order with
  | nil => rfl
  | cons nodeId rest ih =>
    obtain ⟨node, hnode⟩ := node?_of_mem_ids (hmem nodeId List.mem_cons_self)
    rw [List.filterMap_cons_some hnode, List.map_cons, (nodeId_of_node? hnode).2,
      ih fun id hid => hmem id (List.mem_cons_of_mem _ hid)]

theorem Valid.dependency_before (h : goal.Valid) {before after : List TaskNode} {node : TaskNode}
    (horder : goal.orderedNodes = before ++ node :: after) {d : String}
    (hd : d ∈ node.dependencies) : d ∈ before.map (·.nodeId) := by
  have hids : goal.orderedIds =
      before.map (·.nodeId) ++ node.nodeId :: after.map (·.nodeId) := by
    rw [← h.map_orderedNodes, horder, List.map_append, List.map_cons]
  have hn : node ∈ goal.nodes := by
    rw [← h.orderedNodes_perm.mem_iff, horder]
    simp
  have hdeps : goal.dependencies node.nodeId = node.dependencies := by
    rw [GoalSpec.dependencies, node?_of_mem h.nodup hn]
    rfl
  exact Layers.layers_ordered perm_sort _ _ _ _ _ hids d (hdeps ▸ hd) (h.dependencies node hn hd)

end Order

end GoalSpec

end AeepRouter.Stack

import AeepRouter.Stack.Planning

/-!
# Assignments

An assignment picks a candidate for every node and a route for every binding: direct, or through one
converter. Its components and edges are listed in the order of execution. `Meets` is what a
configuration has to be: candidates and compatible edges, within the limits of the goal.
-/

namespace AeepRouter.Stack

open Lib

namespace StackService

variable (service : StackService)

def candidateSet (goal : GoalSpec) (node : TaskNode) : List StackComponent :=
  match action goal node with
  | .error _ => []
  | .ok action => sortFound ((service.router.find node.capability).filterMap fun spec =>
      (service.offer action node spec).toOption)

/-- What the listed converters offer between two ports. -/
def converterSet (goal : GoalSpec) (node : TaskNode) (binding : StackBinding)
    (output target : Option ArtifactContract) : List StackComponent :=
  (sortedSet service.config.converterIds).flatMap fun executorId =>
    match service.converterNode? node binding output target executorId with
    | none => []
    | some converterNode =>
      (service.candidateSet goal converterNode).filter (·.executorId = executorId)

end StackService

/-- A candidate for every node and, for every node, a route for each of its bindings. -/
structure Assignment where
  pick : String → StackComponent
  routes : String → List (Option StackComponent)

namespace Assignment

variable (service : StackService) (goal : GoalSpec) (a : Assignment)

def componentsAt (node : TaskNode) : List StackComponent :=
  (a.routes node.nodeId).reduceOption ++ [a.pick node.nodeId]

def edgeOf (node : TaskNode) (binding : StackBinding) (route : Option StackComponent) :
    CompatibilityEdge :=
  (service.directEdge node binding (a.pick binding.sourceNode) (a.pick node.nodeId)).through route

def edgesAt (node : TaskNode) : List CompatibilityEdge :=
  List.zipWith (a.edgeOf service node) node.bindings (a.routes node.nodeId)

def components : List StackComponent := goal.orderedNodes.flatMap a.componentsAt

def edges : List CompatibilityEdge := goal.orderedNodes.flatMap (a.edgesAt service)

def Direct (node : TaskNode) (binding : StackBinding) : Prop :=
  (compatible (service.outputOf (a.pick binding.sourceNode) binding)
    (service.targetOf (a.pick node.nodeId) binding)).1 = .compatible

instance (node : TaskNode) (binding : StackBinding) : Decidable (a.Direct service node binding) :=
  inferInstanceAs (Decidable (_ = _))

/-- A route connects the ports of a binding: they are compatible, or a listed converter is used. -/
def Connects (node : TaskNode) (binding : StackBinding) : Option StackComponent → Prop
  | none => a.Direct service node binding
  | some converter => converter ∈ service.converterSet goal node binding
      (service.outputOf (a.pick binding.sourceNode) binding)
      (service.targetOf (a.pick node.nodeId) binding)

instance (node : TaskNode) (binding : StackBinding) (route : Option StackComponent) :
    Decidable (a.Connects service goal node binding route) :=
  match route with
  | none => inferInstanceAs (Decidable (a.Direct service node binding))
  | some _ => inferInstanceAs (Decidable (_ ∈ _))

structure Places (node : TaskNode) : Prop where
  candidate : a.pick node.nodeId ∈ service.candidateSet goal node
  routes : List.Forall₂ (a.Connects service goal node) node.bindings (a.routes node.nodeId)

/-- A configuration of candidates and single converters within the limits of the goal. -/
structure Meets : Prop where
  places : ∀ node ∈ goal.nodes, a.Places service goal node
  limits : WithinLimits goal (a.components goal)

/-- Converters stand only where the ports of a binding are not compatible as they are. -/
def Needed : Prop := ∀ node ∈ goal.nodes,
  List.Forall₂ (fun binding route => route ≠ none → ¬ a.Direct service node binding)
    node.bindings (a.routes node.nodeId)

end Assignment

/-! ## Names of components -/

section Names

variable {service : StackService} {goal : GoalSpec} {node : TaskNode} {c : StackComponent}

theorem mem_sortFound {found : List StackComponent} : c ∈ StackService.sortFound found ↔ c ∈ found :=
  (List.perm_insertionSort _ _).mem_iff

theorem offer_ok {action : ActionRequest} {spec : ExecutorSpec}
    (h : service.offer action node spec = .ok c) :
    c.nodeId = node.nodeId ∧ c.executorId = spec.id := by
  simp only [StackService.offer] at h
  repeat' split at h
  all_goals cases h
  exact ⟨rfl, rfl⟩

theorem mem_candidateSet (h : c ∈ service.candidateSet goal node) :
    ∃ action spec, StackService.action goal node = .ok action ∧
      spec ∈ service.router.find node.capability ∧ service.offer action node spec = .ok c := by
  unfold StackService.candidateSet at h
  split at h
  · simp at h
  · next action haction =>
    obtain ⟨spec, hspec, hc⟩ := List.mem_filterMap.mp (mem_sortFound.mp h)
    cases hoffer : service.offer action node spec with
    | error e => simp [hoffer, Except.toOption] at hc
    | ok d =>
      simp only [hoffer, Except.toOption, Option.some_inj] at hc
      exact ⟨action, spec, haction, hspec, hc ▸ hoffer⟩

theorem nodeId_of_mem_candidateSet (h : c ∈ service.candidateSet goal node) :
    c.nodeId = node.nodeId := by
  obtain ⟨_, _, _, _, hoffer⟩ := mem_candidateSet h
  exact (offer_ok hoffer).1

theorem converterNode?_some {binding : StackBinding} {output target : Option ArtifactContract}
    {executorId : String} {converterNode : TaskNode}
    (h : service.converterNode? node binding output target executorId = some converterNode) :
    ∃ spec input result, service.router.get? executorId = some spec ∧
      (service.router.ports executorId).inputs = [input] ∧
      (service.router.ports executorId).outputs = [result] ∧
      (compatible output (some input.2)).1 = .compatible ∧
      (compatible (some result.2) target).1 = .compatible ∧
      converterNode = {
        nodeId := converterName node binding
        capability := spec.capability
        inputs := [input]
        outputs := [result] } := by
  unfold StackService.converterNode? at h
  split at h
  · simp at h
  · next spec hspec =>
    dsimp only at h
    split at h
    · next input result hinputs houtputs =>
      split at h
      · simp at h
      · next hbridge =>
        rw [not_or, not_not, not_not] at hbridge
        rw [Option.some_inj] at h
        exact ⟨spec, _, _, hspec, hinputs, houtputs, hbridge.1, hbridge.2,
          by rw [← h, hinputs, houtputs]⟩
    · simp at h

theorem mem_converterSet {binding : StackBinding} {output target : Option ArtifactContract} :
    c ∈ service.converterSet goal node binding output target ↔
      ∃ executorId ∈ sortedSet service.config.converterIds, ∃ converterNode,
        service.converterNode? node binding output target executorId = some converterNode ∧
        c ∈ service.candidateSet goal converterNode ∧ c.executorId = executorId := by
  unfold StackService.converterSet
  rw [List.mem_flatMap]
  refine exists_congr fun executorId => and_congr_right fun _ => ?_
  cases service.converterNode? node binding output target executorId with
  | none => simp
  | some converterNode => simp

theorem mem_sortedSet {values : List String} {s : String} : s ∈ sortedSet values ↔ s ∈ values := by
  unfold sortedSet
  rw [(List.perm_insertionSort _ _).mem_iff, List.mem_dedup]

/-- A converter is listed and named after the binding it stands on. -/
theorem converter_of_mem {binding : StackBinding} {output target : Option ArtifactContract}
    (h : c ∈ service.converterSet goal node binding output target) :
    c.nodeId = converterName node binding ∧ c.executorId ∈ service.config.converterIds := by
  obtain ⟨executorId, hlisted, converterNode, hnode, hc, rfl⟩ := mem_converterSet.mp h
  obtain ⟨_, _, _, _, _, _, _, _, rfl⟩ := converterNode?_some hnode
  exact ⟨nodeId_of_mem_candidateSet hc, mem_sortedSet.mp hlisted⟩

theorem isReserved_converterName (node : TaskNode) (binding : StackBinding) :
    isReserved (converterName node binding) := by
  unfold isReserved converterName
  rw [List.isPrefixOf_iff_prefix]
  simp [String.toList_append, List.append_assoc]

end Names

end AeepRouter.Stack

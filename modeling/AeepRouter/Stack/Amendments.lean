import AeepRouter.Stack.Optimal
import AeepRouter.Stack.Successors
import Mathlib.Logic.Relation

/-!
# What an amendment keeps

The loop of `amend` marks what reaches a changed node through the graph of the successor. The edges
of a planned proposal are one for each binding of its goal, and the converters on them are among its
components; so between two plans for the same nodes no edge disappears unseen, and a converter that
is new or gone changes the edge it stands on.
-/

namespace AeepRouter.Stack

open Lib Relation

/-! ## The loop -/

section Spread

variable {links : List (String × String)} {changed : List String} {x y : String}

theorem subset_spread (rounds : ℕ) : changed ⊆ spread links rounds changed := by
  induction rounds generalizing changed with
  | zero => exact List.Subset.refl _
  | succ rounds ih =>
    unfold spread
    dsimp only
    split
    · exact List.Subset.refl _
    · exact List.Subset.trans (List.subset_append_left _ _) ih

/-- What the loop marks waits for something changed. -/
theorem exists_of_mem_spread {rounds : ℕ} (h : x ∈ spread links rounds changed) :
    ∃ c ∈ changed, ReflTransGen (fun a b => (a, b) ∈ links) x c := by
  induction rounds generalizing changed with
  | zero => exact ⟨x, h, .refl⟩
  | succ rounds ih =>
    unfold spread at h
    dsimp only at h
    split at h
    · exact ⟨x, h, .refl⟩
    · obtain ⟨c, hc, hreach⟩ := ih h
      rcases List.mem_append.mp hc with hc | hc
      · exact ⟨c, hc, hreach⟩
      · obtain ⟨l, hl, rfl⟩ := List.mem_map.mp hc
        obtain ⟨hl, hsource⟩ := List.mem_filter.mp hl
        exact ⟨l.2, of_decide_eq_true hsource, hreach.tail hl⟩

/-- The marked set is closed: what reaches a marked node is marked. -/
theorem mem_spread_of_reaches {rounds : ℕ} (hrounds : (untouched links changed).card < rounds)
    (hreach : ReflTransGen (fun a b => (a, b) ∈ links) x y)
    (hy : y ∈ spread links rounds changed) : x ∈ spread links rounds changed := by
  induction hreach using ReflTransGen.head_induction_on with
  | refl => exact hy
  | head hlink _ ih => exact spread_closed hrounds hlink ih

end Spread

namespace Proposal

variable (proposal : Proposal)

/-- `nodeId` waits for `source`, at once or through others. -/
def Upstream : String → String → Prop :=
  ReflTransGen fun nodeId source => (nodeId, source) ∈ links proposal

def Has (nodeId : String) : Prop := nodeId ∈ proposal.components.map (·.nodeId)

end Proposal

section Changed

variable {previous successor proposal : Proposal} {nodeId source : String}

theorem mem_invalidated : nodeId ∈ invalidated previous successor ↔
    ∃ c ∈ changedNodes previous successor, successor.Upstream nodeId c := by
  constructor
  · exact exists_of_mem_spread
  · rintro ⟨c, hc, hreach⟩
    exact mem_spread_of_reaches (Nat.lt_succ_of_le (untouched_card_le _ _)) hreach
      (subset_spread _ hc)

theorem mem_changedNodes : nodeId ∈ changedNodes previous successor ↔
    previous.Has nodeId ∧ replaced previous successor nodeId ∨
      ∃ edge ∈ successor.edges, edgeAt previous edge ≠ some edge ∧ edge.targetNode = nodeId := by
  simp only [changedNodes, List.mem_append, List.mem_filter, List.mem_map, decide_eq_true_eq,
    Proposal.Has, and_assoc]

theorem mem_links : (nodeId, source) ∈ links proposal ↔
    (∃ node ∈ proposal.goal.nodes, node.nodeId = nodeId ∧ source ∈ node.dependsOn) ∨
      ∃ edge ∈ proposal.edges, (nodeId, source) ∈ edgeLinks edge := by
  simp only [links, List.mem_append, List.mem_flatMap, List.mem_map, Prod.mk.injEq]
  refine or_congr (exists_congr fun node => and_congr_right fun _ => ?_) Iff.rfl
  constructor
  · rintro ⟨d, hd, hid, rfl⟩
    exact ⟨hid, hd⟩
  · rintro ⟨hid, hd⟩
    exact ⟨source, hd, hid, rfl⟩

theorem mem_edgeLinks {edge : CompatibilityEdge} (h : (nodeId, source) ∈ edgeLinks edge) :
    source = edge.sourceNode ∨
      nodeId = edge.targetNode ∧ edge.converterNode = some source := by
  unfold edgeLinks at h
  split at h
  · next converter hconverter =>
    simp only [List.mem_cons, Prod.mk.injEq, List.not_mem_nil, or_false] at h
    rcases h with ⟨-, rfl⟩ | ⟨rfl, rfl⟩
    · exact .inl rfl
    · exact .inr ⟨rfl, (Option.filter_eq_some_iff.mp hconverter).1⟩
  · simp only [List.mem_cons, Prod.mk.injEq, List.not_mem_nil, or_false] at h
    exact .inl h.2

theorem Proposal.mem_of_selected {component : Implementation}
    (h : proposal.selected nodeId = some component) :
    component ∈ proposal.components ∧ component.nodeId = nodeId :=
  ⟨List.mem_reverse.mp (List.mem_of_find?_eq_some h), by simpa using List.find?_some h⟩

theorem Proposal.has_of_selected {component : Implementation}
    (h : proposal.selected nodeId = some component) : proposal.Has nodeId :=
  have ⟨hmem, hid⟩ := Proposal.mem_of_selected h
  List.mem_map.mpr ⟨component, hmem, hid⟩

end Changed

/-! ## Planned proposals -/

/-- The port an edge or a binding ends at. -/
def CompatibilityEdge.place (edge : CompatibilityEdge) : String × String :=
  (edge.targetNode, edge.targetPort)

def TaskNode.places (node : TaskNode) : List (String × String) :=
  node.bindings.map fun binding => (node.nodeId, binding.targetPort)

def converterEdge (node : TaskNode) (binding : StackBinding) (executorId : String) :
    CompatibilityEdge where
  sourceNode := binding.sourceNode
  sourcePort := binding.sourcePort
  targetNode := node.nodeId
  targetPort := binding.targetPort
  verdict := .compatible
  reasons := ["reviewed converter required"]
  converterId := some executorId
  converterNode := some (converterName node binding)

namespace Proposal

variable (proposal : Proposal)

structure Stores (plan : StackProposal) : Prop where
  goal : proposal.goal = plan.goal
  components : proposal.components.map (fun c => (c.nodeId, c.executorId)) =
    plan.components.map fun c => (c.nodeId, c.executorId)
  edges : proposal.edges = plan.edges

/-- A proposal that some service has planned; only `propose` stores proposals. -/
def Planned : Prop :=
  ∃ (service : StackService) (goal : GoalSpec) (plan : StackProposal),
    service.propose goal proposal.parentId = .ok plan ∧ proposal.Stores plan

structure Wired : Prop where
  valid : proposal.goal.Valid
  nodes : ∀ node ∈ proposal.goal.nodes, proposal.Has node.nodeId
  places : proposal.edges.map (·.place) = proposal.goal.orderedNodes.flatMap (·.places)
  sources : ∀ edge ∈ proposal.edges, edge.sourceNode ∈ proposal.goal.ids
  converters : ∀ edge ∈ proposal.edges, ∀ converter ∈ edge.converterNode, proposal.Has converter
  through : ∀ edge ∈ proposal.edges, ∀ converter ∈ edge.converterNode,
    ∃ node ∈ proposal.goal.nodes, ∃ binding ∈ node.bindings,
      converter = converterName node binding ∧ edge.place = (node.nodeId, binding.targetPort)
  standing : ∀ component ∈ proposal.components, isReserved component.nodeId →
    ∃ node ∈ proposal.goal.nodes, ∃ binding ∈ node.bindings,
      component.nodeId = converterName node binding ∧
        converterEdge node binding component.executorId ∈ proposal.edges

end Proposal

section Wiring

variable {service : StackService} {goal : GoalSpec} {a : Assignment} {node : TaskNode}

/-- The edges of a node end at its bound ports, in the same order. -/
theorem Assignment.map_place_edgesAt (h : a.Places service goal node) :
    (a.edgesAt service node).map (·.place) = node.places := by
  have hplace : ∀ binding route, (a.edgeOf service node binding route).place =
      (node.nodeId, binding.targetPort) := by
    intro binding route
    cases route <;> rfl
  have hroutes := h.routes
  unfold Assignment.edgesAt TaskNode.places
  generalize node.bindings = bindings, a.routes node.nodeId = routes at hroutes
  induction hroutes with
  | nil => rfl
  | cons _ _ ih => simp only [List.zipWith_cons_cons, List.map_cons, hplace, ih]

theorem Assignment.mem_edgesAt {edge : CompatibilityEdge} : edge ∈ a.edgesAt service node ↔
    ∃ binding route, (binding, route) ∈ node.bindings.zip (a.routes node.nodeId) ∧
      a.edgeOf service node binding route = edge := by
  unfold Assignment.edgesAt
  rw [← List.map_uncurry_zip_eq_zipWith, List.mem_map]
  exact Prod.exists

theorem Assignment.Places.converter (h : a.Places service goal node) {binding : StackBinding}
    {c : StackComponent}
    (hmem : (binding, some c) ∈ node.bindings.zip (a.routes node.nodeId)) :
    c.nodeId = converterName node binding ∧
      a.edgeOf service node binding (some c) = converterEdge node binding c.executorId := by
  have hname := (converter_of_mem (List.forall₂_iff_zip.mp h.routes |>.2 hmem)).1
  exact ⟨hname, by rw [converterEdge, ← hname]; rfl⟩

theorem Assignment.Places.exists_binding (h : a.Places service goal node) {c : StackComponent}
    (hc : some c ∈ a.routes node.nodeId) :
    ∃ binding, (binding, some c) ∈ node.bindings.zip (a.routes node.nodeId) := by
  obtain ⟨i, hi, hget⟩ := List.mem_iff_getElem.mp hc
  have hlength := h.routes.length_eq
  refine ⟨node.bindings[i], List.mem_iff_getElem.mpr ⟨i, by simp; omega, ?_⟩⟩
  rw [List.getElem_zip, hget]

variable {proposal : Proposal} {nodeId : String}

theorem Proposal.Stores.has_iff {plan : StackProposal} (h : proposal.Stores plan) :
    proposal.Has nodeId ↔ ∃ c ∈ plan.components, c.nodeId = nodeId := by
  have hnames := congrArg (List.map Prod.fst) h.components
  simp only [List.map_map, Function.comp_def] at hnames
  unfold Proposal.Has
  rw [hnames, List.mem_map]

theorem Proposal.Planned.assigned (h : proposal.Planned) (hhas : proposal.Has nodeId) :
    proposal.goal.Valid ∧ ∃ (service : StackService) (a : Assignment),
      (∀ node ∈ proposal.goal.orderedNodes, a.Places service proposal.goal node) ∧
      proposal.edges = a.edges service proposal.goal ∧
      proposal.components.map (fun c => (c.nodeId, c.executorId)) =
        (a.components proposal.goal).map fun c => (c.nodeId, c.executorId) := by
  obtain ⟨service, goal, plan, hplan, hstores⟩ := h
  have hvalid : plan.goal.Valid := propose_goal hplan ▸ prepare_valid (propose_ok hplan).1
  have hne : plan.components ≠ [] := by
    obtain ⟨c, hc, -⟩ := hstores.has_iff.mp hhas
    exact List.ne_nil_of_mem hc
  obtain ⟨a, hmeets, -, hcomponents, hedges⟩ := ((propose_optimal hplan).2.1 hne).assigned
  rw [hstores.goal]
  exact ⟨hvalid, service, a, fun node hn => hmeets.places node
    (hvalid.orderedNodes_perm.mem_iff.mp hn), hstores.edges.trans hedges,
    hstores.components.trans (by rw [hcomponents])⟩

theorem Proposal.Planned.wired (h : proposal.Planned) (hhas : proposal.Has nodeId) :
    proposal.Wired := by
  obtain ⟨hvalid, service, a, hplaces, hedges, hcomponents⟩ := h.assigned hhas
  have hmem : ∀ {node}, node ∈ proposal.goal.orderedNodes ↔ node ∈ proposal.goal.nodes :=
    hvalid.orderedNodes_perm.mem_iff
  have hedge : ∀ edge ∈ proposal.edges, ∃ node ∈ proposal.goal.orderedNodes,
      edge ∈ a.edgesAt service node := by
    rw [hedges]
    exact fun edge he => List.mem_flatMap.mp he
  have hin : ∀ node ∈ proposal.goal.orderedNodes, ∀ c ∈ a.componentsAt node,
      proposal.Has c.nodeId := by
    intro node hn c hc
    obtain ⟨component, hcomponent, heq⟩ : ∃ component ∈ proposal.components,
        (component.nodeId, component.executorId) = (c.nodeId, c.executorId) :=
      List.mem_map.mp (hcomponents ▸ List.mem_map_of_mem (List.mem_flatMap.mpr ⟨node, hn, hc⟩))
    exact List.mem_map.mpr ⟨component, hcomponent, congrArg Prod.fst heq⟩
  refine ⟨hvalid, fun node hn => ?_, ?_, fun edge he => ?_, fun edge he converter hc => ?_,
    fun edge he converter hc => ?_, fun component hcomponent hreserved => ?_⟩
  · have hn' := hmem.mpr hn
    have hid := nodeId_of_mem_candidateSet (hplaces node hn').candidate
    exact hid ▸ hin node hn' _ (List.mem_append_right _ List.mem_cons_self)
  · rw [hedges, Assignment.edges, List.map_flatMap]
    exact List.flatMap_congr fun node hn => Assignment.map_place_edgesAt (hplaces node hn)
  · obtain ⟨node, hn, hat⟩ := hedge edge he
    obtain ⟨binding, route, hzip, rfl⟩ := Assignment.mem_edgesAt.mp hat
    refine hvalid.dependencies node (hmem.mp hn) (List.mem_append_right _ ?_)
    have hsource : (a.edgeOf service node binding route).sourceNode = binding.sourceNode := by
      cases route <;> rfl
    exact hsource ▸ List.mem_map_of_mem (List.of_mem_zip hzip).1
  · obtain ⟨node, hn, hat⟩ := hedge edge he
    obtain ⟨binding, route, hzip, rfl⟩ := Assignment.mem_edgesAt.mp hat
    cases route with
    | none => exact absurd hc (Option.not_mem_none _)
    | some c =>
      obtain rfl : c.nodeId = converter := Option.some.inj hc
      exact hin node hn c (List.mem_append_left _
        (Assignment.mem_reduceOption.mpr (List.of_mem_zip hzip).2))
  · obtain ⟨node, hn, hat⟩ := hedge edge he
    obtain ⟨binding, route, hzip, rfl⟩ := Assignment.mem_edgesAt.mp hat
    cases route with
    | none => exact absurd hc (Option.not_mem_none _)
    | some c =>
      rw [((hplaces node hn).converter hzip).2] at hc ⊢
      exact ⟨node, hmem.mp hn, binding, (List.of_mem_zip hzip).1, (Option.some.inj hc).symm, rfl⟩
  · -- the component is not one of a node, so it is a converter on one of the routes
    obtain ⟨c, hc, heq⟩ : ∃ c ∈ a.components proposal.goal,
        (c.nodeId, c.executorId) = (component.nodeId, component.executorId) :=
      List.mem_map.mp (hcomponents ▸ List.mem_map_of_mem hcomponent)
    obtain ⟨hid, hexecutor⟩ := Prod.mk.inj heq
    obtain ⟨node, hn, hat⟩ := List.mem_flatMap.mp hc
    rcases List.mem_append.mp hat with hroute | hpick
    · obtain ⟨binding, hzip⟩ :=
        (hplaces node hn).exists_binding (Assignment.mem_reduceOption.mp hroute)
      obtain ⟨hname, hedge⟩ := (hplaces node hn).converter hzip
      refine ⟨node, hmem.mp hn, binding, (List.of_mem_zip hzip).1, hid ▸ hname, ?_⟩
      rw [← hexecutor, ← hedge, hedges]
      exact List.mem_flatMap.mpr ⟨node, hn, Assignment.mem_edgesAt.mpr ⟨_, _, hzip, rfl⟩⟩
    · rw [List.mem_singleton.mp hpick, nodeId_of_mem_candidateSet (hplaces node hn).candidate] at hid
      exact absurd (hid ▸ hreserved) (hvalid.unreserved node (hmem.mp hn))

end Wiring

/-! ## Two plans for the same nodes -/

def TaskNode.skeleton (node : TaskNode) : String × List StackBinding × List String :=
  (node.nodeId, node.bindings, node.dependsOn)

/-- `==` on nodes; among others it compares names, bindings and dependencies. -/
def ComparesNodes (sameNodes : List TaskNode → List TaskNode → Bool) : Prop :=
  ∀ xs ys, sameNodes xs ys = true → xs.map (·.skeleton) = ys.map (·.skeleton)

theorem exists_like {xs ys : List TaskNode} (h : xs.map (·.skeleton) = ys.map (·.skeleton))
    {node : TaskNode} (hn : node ∈ xs) :
    ∃ m ∈ ys, m.nodeId = node.nodeId ∧ m.bindings = node.bindings ∧
      m.dependsOn = node.dependsOn := by
  obtain ⟨m, hm, heq⟩ := List.mem_map.mp (h ▸ List.mem_map_of_mem hn)
  simp only [TaskNode.skeleton, Prod.mk.injEq] at heq
  exact ⟨m, hm, heq⟩

def Implementation.Same (before after : Implementation) : Prop :=
  before.executorId = after.executorId ∧ before.executorFingerprint = after.executorFingerprint ∧
    before.portsDigest = after.portsDigest

/-- What `amend` compares of a node: its implementation, and the edges that end at it. -/
structure Alike (previous successor : Proposal) (nodeId : String) : Prop where
  implementation : ∃ before ∈ previous.selected nodeId, ∃ after ∈ successor.selected nodeId,
    before.Same after
  incoming : ∀ edge : CompatibilityEdge, edge.targetNode = nodeId →
    (edge ∈ previous.edges ↔ edge ∈ successor.edges)

section Pairs

variable {previous successor proposal : Proposal} {nodeId source : String}
  {edge : CompatibilityEdge}

theorem not_replaced : ¬ replaced previous successor nodeId ↔
    ∃ before ∈ previous.selected nodeId, ∃ after ∈ successor.selected nodeId, before.Same after :=
  not_not

/-- The bound ports of a goal. -/
theorem Proposal.Wired.mem_places (h : proposal.Wired) {place : String × String} :
    place ∈ proposal.edges.map (·.place) ↔ ∃ node ∈ proposal.goal.nodes, place ∈ node.places := by
  rw [h.places, List.mem_flatMap]
  simp only [h.valid.orderedNodes_perm.mem_iff]

/-- No two edges end at one port. -/
theorem Proposal.Wired.nodup_places (h : proposal.Wired) :
    (proposal.edges.map (·.place)).Nodup := by
  rw [h.places, List.nodup_flatMap]
  constructor
  · intro node hn
    have hvalid := h.valid.nodes node (h.valid.orderedNodes_perm.mem_iff.mp hn)
    refine List.Nodup.of_map Prod.snd ?_
    rw [TaskNode.places, List.map_map]
    exact hvalid.distinct
  · have hids : (proposal.goal.orderedNodes.map (·.nodeId)).Nodup := h.valid.arranged.nodup
    refine (List.pairwise_map.mp hids).imp fun {node other} hne place hplace hother => hne ?_
    obtain ⟨_, -, rfl⟩ := List.mem_map.mp hplace
    obtain ⟨_, -, heq⟩ := List.mem_map.mp hother
    exact (congrArg Prod.fst heq).symm

theorem mem_of_edgeAt {e : CompatibilityEdge} (h : edgeAt proposal edge = some e) :
    e ∈ proposal.edges := List.mem_reverse.mp (List.mem_of_find?_eq_some h)

theorem Proposal.Wired.edgeAt_self (h : proposal.Wired) (he : edge ∈ proposal.edges) :
    edgeAt proposal edge = some edge := by
  cases hfound : edgeAt proposal edge with
  | none => exact absurd (List.find?_eq_none.mp hfound edge (List.mem_reverse.mpr he)) (by simp)
  | some e =>
    have hplace : e.place = edge.place := by
      have hat : e.targetNode = edge.targetNode ∧ e.targetPort = edge.targetPort := by
        simpa using List.find?_some hfound
      exact Prod.ext hat.1 hat.2
    rw [List.inj_on_of_nodup_map h.nodup_places (mem_of_edgeAt hfound) he hplace]

theorem Alike.not_mem (hprevious : previous.Wired) (h : Alike previous successor nodeId) :
    nodeId ∉ changedNodes previous successor := by
  rw [mem_changedNodes]
  rintro (⟨-, hreplaced⟩ | ⟨edge, he, hne, htarget⟩)
  · exact not_replaced.mpr h.implementation hreplaced
  · exact hne (hprevious.edgeAt_self ((h.incoming edge htarget).mpr he))

variable (hsuccessor : successor.Wired)
  (hnodes : previous.goal.nodes.map (·.skeleton) = successor.goal.nodes.map (·.skeleton))

include hsuccessor hnodes

/-- Equal nodes are fed at the same ports. -/
theorem place_mem_of_nodes (hprevious : previous.Wired) (he : edge ∈ previous.edges) :
    ∃ e ∈ successor.edges, e.place = edge.place := by
  obtain ⟨node, hn, hplace⟩ := hprevious.mem_places.mp (List.mem_map_of_mem he)
  obtain ⟨node', hn', hid, hbindings, -⟩ := exists_like hnodes hn
  have hsame : node'.places = node.places := by rw [TaskNode.places, hid, hbindings]; rfl
  exact List.mem_map.mp (hsuccessor.mem_places.mpr ⟨node', hn', hsame ▸ hplace⟩)

theorem alike_of_not_mem (hprevious : previous.Wired) (hhas : previous.Has nodeId)
    (h : nodeId ∉ changedNodes previous successor) : Alike previous successor nodeId := by
  rw [mem_changedNodes, not_or] at h
  have hkept : ∀ edge ∈ successor.edges, edge.targetNode = nodeId →
      edgeAt previous edge = some edge := fun edge he htarget =>
    not_not.mp fun hne => h.2 ⟨edge, he, hne, htarget⟩
  refine ⟨not_replaced.mp fun hreplaced => h.1 ⟨hhas, hreplaced⟩, fun edge htarget =>
    ⟨fun he => ?_, fun he => mem_of_edgeAt (hkept edge he htarget)⟩⟩
  -- the successor has an edge into that port, and it is the same one
  obtain ⟨e, he', hplace⟩ := place_mem_of_nodes hsuccessor hnodes hprevious he
  have hsame := mem_of_edgeAt (hkept e he' ((congrArg Prod.fst hplace).trans htarget))
  rwa [← List.inj_on_of_nodup_map hprevious.nodup_places hsame he hplace]

/-- What such a node waits for is a component of the predecessor. -/
theorem Alike.has_source (hprevious : previous.Wired)
    (h : Alike previous successor nodeId) (hlink : (nodeId, source) ∈ links successor) :
    previous.Has source := by
  have hgoal : ∀ id ∈ successor.goal.ids, previous.Has id := by
    intro id hid
    obtain ⟨node, hn, rfl⟩ := List.mem_map.mp hid
    obtain ⟨like, hlike, hid, -, -⟩ := exists_like hnodes.symm hn
    exact hid ▸ hprevious.nodes like hlike
  rcases mem_links.mp hlink with ⟨node, hn, -, hdepends⟩ | ⟨edge, he, hedge⟩
  · exact hgoal _ (hsuccessor.valid.dependencies node hn (List.mem_append_left _ hdepends))
  · rcases mem_edgeLinks hedge with rfl | ⟨htarget, hconverter⟩
    · exact hgoal _ (hsuccessor.sources edge he)
    · exact hprevious.converters edge ((h.incoming edge htarget.symm).mpr he) source hconverter

omit hsuccessor in
/-- A node of the predecessor is left alone exactly when it and all it waits for compare alike. -/
theorem not_mem_invalidated (hprevious : previous.Planned) (hsuccessor : successor.Planned)
    (hhas : previous.Has nodeId) : nodeId ∉ invalidated previous successor ↔
      ∀ m, successor.Upstream nodeId m → Alike previous successor m := by
  have hwired := hprevious.wired hhas
  constructor
  · intro h m hreach
    have hnot : ∀ m, successor.Upstream nodeId m → m ∉ changedNodes previous successor :=
      fun m hm hc => h (mem_invalidated.mpr ⟨m, hc, hm⟩)
    have hafter : successor.Wired := by
      have hkept := hnot nodeId .refl
      rw [mem_changedNodes, not_or] at hkept
      obtain ⟨_, -, after, hafter, -⟩ := not_replaced.mp fun hr => hkept.1 ⟨hhas, hr⟩
      exact hsuccessor.wired (Proposal.has_of_selected hafter)
    -- along the path, what a node waits for is again a component of the predecessor
    have hall : previous.Has m := by
      induction hreach with
      | refl => exact hhas
      | tail hpath hlink ih =>
        exact (alike_of_not_mem hafter hnodes hwired ih (hnot _ hpath)).has_source hafter
          hnodes hwired hlink
    exact alike_of_not_mem hafter hnodes hwired hall (hnot m hreach)
  · intro h hmem
    obtain ⟨c, hc, hreach⟩ := mem_invalidated.mp hmem
    exact (h c hreach).not_mem hwired hc

end Pairs

/-! ## What should be kept -/

/-- The edge ends at the node, or runs through it. -/
def CompatibilityEdge.Feeds (edge : CompatibilityEdge) (nodeId : String) : Prop :=
  edge.targetNode = nodeId ∨ edge.converterNode = some nodeId

structure Unchanged (previous successor : Proposal) (nodeId : String) : Prop where
  implementation : ∃ before ∈ previous.selected nodeId, ∃ after ∈ successor.selected nodeId,
    before.Same after
  incoming : ∀ edge : CompatibilityEdge, edge.Feeds nodeId →
    (edge ∈ previous.edges ↔ edge ∈ successor.edges)

/-- A converter of that name stands on an edge of one proposal only. -/
def Moved (previous successor : Proposal) (nodeId : String) : Prop :=
  ∃ edge : CompatibilityEdge, edge.converterNode = some nodeId ∧
    ¬ (edge ∈ previous.edges ↔ edge ∈ successor.edges)

def Untouched (previous successor : Proposal) (nodeId : String) : Prop :=
  ∀ m, previous.Upstream nodeId m ∨ successor.Upstream nodeId m → Unchanged previous successor m

/-- What an amendment makes of the progress: the outputs it keeps are those nothing touched, and
the others can be had again. -/
structure Exact (previous successor : Proposal) (before after : Progress) : Prop where
  kept : ∀ nodeId record, previous.Has nodeId →
    (after.lookup nodeId = some record ↔ before.lookup nodeId = some record ∧
      record.state = .complete ∧ Untouched previous successor nodeId)
  replayed : ∀ nodeId record, before.lookup nodeId = some record → record.state = .complete →
    after.lookup nodeId ≠ some record → ∃ original ∈ previous.selected nodeId,
      original.idempotent = true ∧ original.sideEffect.rank ≤ SideEffect.read.rank

/-- Where a converter that moved is upstream of a completed node, something upstream of the node
does not compare alike. -/
def Noticed (previous successor : Proposal) (progress : Progress) : Prop :=
  ∀ nodeId, previous.Has nodeId → stateOf progress nodeId = some .complete →
    (∃ m, successor.Upstream nodeId m ∧ Moved previous successor m) →
      ∃ m, successor.Upstream nodeId m ∧ ¬ Alike previous successor m

section Exactness

variable {previous successor : Proposal} {nodeId source : String}

theorem unchanged_iff_alike : Unchanged previous successor nodeId ↔
    Alike previous successor nodeId ∧ ¬ Moved previous successor nodeId := by
  constructor
  · exact fun h => ⟨⟨h.implementation, fun edge htarget => h.incoming edge (.inl htarget)⟩,
      fun ⟨edge, hconverter, hmoved⟩ => hmoved (h.incoming edge (.inr hconverter))⟩
  · rintro ⟨halike, hmoved⟩
    refine ⟨halike.implementation, fun edge hfeeds => ?_⟩
    rcases hfeeds with htarget | hconverter
    · exact halike.incoming edge htarget
    · exact not_not.mp fun hne => hmoved ⟨edge, hconverter, hne⟩

theorem feeds_of_mem_edgeLinks {edge : CompatibilityEdge}
    (h : (nodeId, source) ∈ edgeLinks edge) : edge.Feeds nodeId := by
  unfold edgeLinks at h
  split at h
  · next converter hconverter =>
    simp only [List.mem_cons, Prod.mk.injEq, List.not_mem_nil, or_false] at h
    rcases h with ⟨rfl, -⟩ | ⟨rfl, -⟩
    · exact .inr (Option.filter_eq_some_iff.mp hconverter).1
    · exact .inl rfl
  · simp only [List.mem_cons, Prod.mk.injEq, List.not_mem_nil, or_false] at h
    exact .inl h.1.symm

variable (hnodes : previous.goal.nodes.map (·.skeleton) = successor.goal.nodes.map (·.skeleton))

include hnodes

theorem Unchanged.link (h : Unchanged previous successor nodeId)
    (hlink : (nodeId, source) ∈ links previous) : (nodeId, source) ∈ links successor := by
  rw [mem_links] at hlink ⊢
  rcases hlink with ⟨node, hn, hid, hdepends⟩ | ⟨edge, he, hedge⟩
  · obtain ⟨node', hn', hid', -, hdepends'⟩ := exists_like hnodes hn
    exact .inl ⟨node', hn', hid'.trans hid, hdepends' ▸ hdepends⟩
  · exact .inr ⟨edge, (h.incoming edge (feeds_of_mem_edgeLinks hedge)).mp he, hedge⟩

theorem untouched_iff : Untouched previous successor nodeId ↔
    ∀ m, successor.Upstream nodeId m → Unchanged previous successor m := by
  refine ⟨fun h m hm => h m (.inr hm), fun h => ?_⟩
  have hsame : ∀ m, previous.Upstream nodeId m → successor.Upstream nodeId m := by
    intro m hm
    induction hm with
    | refl => exact .refl
    | tail _ hlink ih => exact ih.tail ((h _ ih).link hnodes hlink)
  exact fun m hm => h m (hm.elim (hsame m) id)

/-- What nothing touched is left alone; the converse needs that no converter upstream has moved. -/
theorem untouched_iff_not_mem (hprevious : previous.Planned) (hsuccessor : successor.Planned)
    (hhas : previous.Has nodeId) : Untouched previous successor nodeId ↔
      nodeId ∉ invalidated previous successor ∧
        ∀ m, successor.Upstream nodeId m → ¬ Moved previous successor m := by
  rw [untouched_iff hnodes, not_mem_invalidated hnodes hprevious hsuccessor hhas]
  simp only [unchanged_iff_alike, imp_and, forall_and]

end Exactness

section Rows

variable {previous successor : Proposal} {progress : Progress} {nodeId : String}
  {record : NodeRecord}

theorem lookup_preserved {changed : List String} :
    (preserved progress changed).lookup nodeId = some record ↔
      progress.lookup nodeId = some record ∧ nodeId ∉ changed ∧ record.state = .complete := by
  rw [← Option.mem_def, ← Option.mem_def, AList.mem_lookup_iff, AList.mem_lookup_iff]
  unfold preserved
  rw [List.mem_filter, decide_eq_true_eq]

theorem amend_rows {sameNodes : List TaskNode → List TaskNode → Bool} {runs runs' : StackRuns}
    {blockers : List String} (h : amend sameNodes runs previous successor blockers = .ok runs') :
    sameNodes previous.goal.nodes successor.goal.nodes = true ∧
      ∃ row, runs.lookup previous.proposalId = some row ∧
        runs'.lookup successor.proposalId = some { row with
          state := .paused
          progress := preserved row.progress (invalidated previous successor) } ∧
        ∀ e ∈ row.progress.entries, e.1 ∈ invalidated previous successor →
          e.2.state = .complete → ∃ original ∈ previous.selected e.1,
            replayable original.idempotent original.sideEffect = true := by
  simp only [amend, bind_ok, pure_ok, require_ok, raiseIf_ok, exists_const] at h
  obtain ⟨-, -, hsame, row, hrow, -, -, hreplay, -, hnone, rfl⟩ := h
  have hne : successor.proposalId ≠ previous.proposalId := by
    intro heq
    rw [heq, hrow] at hnone
    exact hnone rfl
  refine ⟨(not_or.mp hsame).1 |> not_not.mp, row, hrow, ?_, fun e he hchanged hcomplete => ?_⟩
  · rw [AList.lookup_insert_ne hne, AList.lookup_insert]
  · by_contra hnot
    exact hreplay ⟨e, he, hchanged, hcomplete, hnot⟩

/-- `amend` keeps exactly what it should where it notices the converters that have moved. -/
theorem exact_preserved_iff (hprevious : previous.Planned) (hsuccessor : successor.Planned)
    (hnodes : previous.goal.nodes.map (·.skeleton) = successor.goal.nodes.map (·.skeleton))
    (hreplay : ∀ e ∈ progress.entries, e.1 ∈ invalidated previous successor →
      e.2.state = .complete → ∃ original ∈ previous.selected e.1,
        replayable original.idempotent original.sideEffect = true) :
    Exact previous successor progress (preserved progress (invalidated previous successor)) ↔
      Noticed previous successor progress := by
  constructor
  · rintro h nodeId hhas hcomplete ⟨m, hm, hmoved⟩
    by_contra hall
    push Not at hall
    obtain ⟨record, hrecord, hstate⟩ := stateOf_eq_some.mp hcomplete
    have hleft := (not_mem_invalidated hnodes hprevious hsuccessor hhas).mpr hall
    obtain ⟨-, -, huntouched⟩ := (h.kept nodeId record hhas).mp
      (lookup_preserved.mpr ⟨hrecord, hleft, hstate⟩)
    exact ((untouched_iff_not_mem hnodes hprevious hsuccessor hhas).mp huntouched).2 m hm hmoved
  · refine fun hnoticed => ⟨fun nodeId record hhas => ?_, fun nodeId record hrecord hstate hgone => ?_⟩
    · rw [lookup_preserved, untouched_iff_not_mem hnodes hprevious hsuccessor hhas]
      constructor
      · rintro ⟨hrecord, hleft, hstate⟩
        refine ⟨hrecord, hstate, hleft, fun m hm hmoved => ?_⟩
        obtain ⟨c, hc, hdiffers⟩ := hnoticed nodeId hhas
          (stateOf_eq_some.mpr ⟨record, hrecord, hstate⟩) ⟨m, hm, hmoved⟩
        exact hdiffers ((not_mem_invalidated hnodes hprevious hsuccessor hhas).mp hleft c hc)
      · rintro ⟨hrecord, hstate, hleft, -⟩
        exact ⟨hrecord, hleft, hstate⟩
    · have hchanged : nodeId ∈ invalidated previous successor := by
        by_contra hleft
        exact hgone (lookup_preserved.mpr ⟨hrecord, hleft, hstate⟩)
      obtain ⟨original, horiginal, hagain⟩ := hreplay ⟨nodeId, record⟩
        (AList.mem_lookup_iff.mp hrecord) hchanged hstate
      simp only [replayable, Bool.and_eq_true, decide_eq_true_eq] at hagain
      exact ⟨original, horiginal, hagain⟩

end Rows

section Calls

variable {sameNodes : List TaskNode → List TaskNode → Bool} {catalogue : Catalogue}
  {previous successor : Proposal} {previousId successorId : String}

/-- A rejected call of `amend` changes no row. An accepted one gives the successor a row whose
progress is exactly what it should be, if and only if whatever is downstream of a converter that
moved is noticed. -/
theorem amend_exact_iff (runtime : StackRuntime) (hsame : ComparesNodes sameNodes)
    (hprevious : catalogue.inspect previousId = some previous)
    (hsuccessor : catalogue.inspect successorId = some successor)
    (hplanned : previous.Planned) (hplanned' : successor.Planned) (s : Stacks)
    (blockers : List String) :
    (∀ e, amend sameNodes s.runs previous successor blockers = .error e →
      (s.step runtime sameNodes catalogue (.amend previousId successorId blockers)).runs =
        s.runs) ∧
    ∀ runs, amend sameNodes s.runs previous successor blockers = .ok runs →
      (s.step runtime sameNodes catalogue (.amend previousId successorId blockers)).runs = runs ∧
      ∃ row row', s.runs.lookup previousId = some row ∧ runs.lookup successorId = some row' ∧
        (Exact previous successor row.progress row'.progress ↔
          Noticed previous successor row.progress) := by
  obtain ⟨-, rfl⟩ := catalogue.inspect_eq_some hprevious
  obtain ⟨-, rfl⟩ := catalogue.inspect_eq_some hsuccessor
  constructor
  · intro e he
    simp only [Stacks.step, hprevious, hsuccessor, he]
  · intro runs hruns
    obtain ⟨hnodes, row, hrow, hrow', hreplay⟩ := amend_rows hruns
    refine ⟨?_, row, _, hrow, hrow', ?_⟩
    · simp only [Stacks.step, hprevious, hsuccessor, hruns]
    · exact exact_preserved_iff hplanned hplanned' (hsame _ _ hnodes) hreplay

end Calls

/-! ## Two names that are one -/

section Examples

def textOf (mediaType : Option String) : ArtifactContract :=
  { anyOf "text" with mediaType }

/-- Port `b:c` of node `a` and port `c` of node `a:b`, fed from two ports of one source. -/
def crossGoal : GoalSpec where
  goalId := "cross"
  nodes := [
    { nodeId := "s", capability := "source@1",
      outputs := [("x", textOf none), ("y", textOf none)] },
    { nodeId := "a", capability := "upper@1", inputs := [("b:c", textOf (some "clean"))],
      bindings := [⟨"s", "y", "b:c"⟩] },
    { nodeId := "a:b", capability := "lower@1", inputs := [("c", textOf (some "clean"))],
      bindings := [⟨"s", "x", "c"⟩] }]
  deliverables := ["a", "a:b"]
  limits := { maxAttempts := 8 }
  proposeOnly := false

/-- One of the two executors takes clean text only. -/
def crossService (strict : String) : StackService where
  router := freeRouter
    [{ id := "source", capability := "source@1", outputSchema := some .null },
      { id := "upper", capability := "upper@1", outputSchema := some .null },
      { id := "lower", capability := "lower@1", outputSchema := some .null },
      { id := "convert", capability := "convert@1", outputSchema := some .null }]
    (by decide) fun executorId =>
      let accepted := textOf (if executorId = strict then some "clean" else none)
      if executorId = "source" then
        { outputs := [("x", textOf (some "raw")), ("y", textOf (some "raw"))] }
      else if executorId = "upper" then { inputs := [("b:c", accepted)] }
      else if executorId = "lower" then { inputs := [("c", accepted)] }
      else { inputs := [("in", textOf none)], outputs := [("out", textOf (some "clean"))] }
  config := { converterIds := ["convert"] }
  clock _ := 0
  encodedSize _ := 0
  inspect _ := .ok ()

def crossEdge (sourcePort targetNode targetPort : String) (converted : Bool) : CompatibilityEdge :=
  let direct : CompatibilityEdge := ⟨"s", sourcePort, targetNode, targetPort, .compatible, [],
    none, none⟩
  if converted then
    { direct with
      reasons := ["reviewed converter required"]
      converterId := some "convert"
      converterNode := some "convert:a:b:c" }
  else direct

/-- The proposal of that service; strict and loose ports have digests of their own. -/
def crossProposal (proposalId : String) (parentId : Option String) (strict : String)
    (order : List (String × String)) : Proposal where
  proposalId := proposalId
  parentId := parentId
  goal := (crossService strict).prepare crossGoal
  components := order.map fun (nodeId, executorId) =>
    ⟨nodeId, executorId, "f", if executorId = strict then "strict" else "loose", .read, true⟩
  edges := [crossEdge "y" "a" "b:c" (strict = "upper"), crossEdge "x" "a:b" "c" (strict = "lower")]

def crossFirst : Proposal := crossProposal "stack_first" none "lower"
  [("s", "source"), ("a", "upper"), ("convert:a:b:c", "convert"), ("a:b", "lower")]

def crossSecond : Proposal := crossProposal "stack_second" (some "stack_first") "upper"
  [("s", "source"), ("convert:a:b:c", "convert"), ("a", "upper"), ("a:b", "lower")]

theorem crossFirst_planned : crossFirst.Planned := by
  have hrun : ((crossService "lower").propose crossGoal).map (fun p =>
      (p.components.map (fun c => (c.nodeId, c.executorId)), p.edges)) =
      .ok (crossFirst.components.map (fun c => (c.nodeId, c.executorId)), crossFirst.edges) := by
    decide +kernel
  obtain ⟨plan, hplan, heq⟩ := exists_of_map hrun
  rw [Prod.mk.injEq] at heq
  exact ⟨_, _, plan, hplan, (propose_goal hplan).symm, heq.1.symm, heq.2.symm⟩

theorem crossSecond_planned : crossSecond.Planned := by
  have hrun : ((crossService "upper").propose crossGoal (some "stack_first")).map (fun p =>
      (p.components.map (fun c => (c.nodeId, c.executorId)), p.edges)) =
      .ok (crossSecond.components.map (fun c => (c.nodeId, c.executorId)), crossSecond.edges) := by
    decide +kernel
  obtain ⟨plan, hplan, heq⟩ := exists_of_map hrun
  rw [Prod.mk.injEq] at heq
  exact ⟨_, _, plan, hplan, (propose_goal hplan).symm, heq.1.symm, heq.2.symm⟩

def crossCatalogue : Catalogue where
  proposals := [crossSecond, crossFirst]
  rooted := by decide +kernel
  named := by decide +kernel

/-- `==`, on nodes that differ at most in what is compared here. -/
def sameSkeletons (xs ys : List TaskNode) : Bool := xs.map (·.skeleton) = ys.map (·.skeleton)

theorem sameSkeletons_compares : ComparesNodes sameSkeletons := fun _ _ h => of_decide_eq_true h

/-- A call of the first proposal that is refused after so many nodes. -/
def crossRun (nodes : ℕ) : List StackEvent :=
  [.start 0 ⟨"i", [], []⟩ {}, .claim 0 0] ++
    (List.replicate nodes [.dispatch 0 1, .answer 0 (.success .null [draftReceipt "r" "a"]),
      .record 0]).flatten ++ [.refuse 0, .close 0]

def crossState (nodes : ℕ) : Stacks :=
  run (Stacks.step draftRuntime sameSkeletons crossCatalogue) {}
    [.run "stack_first" (crossRun nodes)]

theorem crossCatalogue_inspect : crossCatalogue.inspect "stack_first" = some crossFirst ∧
    crossCatalogue.inspect "stack_second" = some crossSecond := ⟨rfl, rfl⟩

/-- Only the source is complete: it is kept, and nothing else is. -/
theorem amend_exact_iff_of_source : ∃ runs row row',
    amend sameSkeletons (crossState 1).runs crossFirst crossSecond [] = .ok runs ∧
      (crossState 1).runs.lookup "stack_first" = some row ∧
      runs.lookup "stack_second" = some row' ∧
      Exact crossFirst crossSecond row.progress row'.progress := by
  have hrun : (amend sameSkeletons (crossState 1).runs crossFirst crossSecond []).map
      (fun _ => ()) = .ok () := by decide +kernel
  obtain ⟨runs, hruns, -⟩ := map_ok.mp hrun
  obtain ⟨-, row, row', hrow, hrow', hexact⟩ := (amend_exact_iff draftRuntime
    sameSkeletons_compares crossCatalogue_inspect.1 crossCatalogue_inspect.2 crossFirst_planned
    crossSecond_planned (crossState 1) []).2 runs hruns
  refine ⟨runs, row, row', hruns, hrow, hrow', hexact.mpr ?_⟩
  have hkeys : ((crossState 1).runs.lookup "stack_first").map (·.progress.keys) = some ["s"] := by
    decide +kernel
  have hlinks : ∀ link ∈ links crossSecond, link.1 ≠ "s" := by decide +kernel
  have hconverters : ∀ edge ∈ crossFirst.edges ++ crossSecond.edges,
      edge.converterNode ≠ some "s" := by decide +kernel
  rw [hrow, Option.map_some, Option.some_inj] at hkeys
  rintro nodeId - hcomplete ⟨m, hm, edge, hconverter, hmoved⟩
  obtain ⟨record, hrecord, -⟩ := stateOf_eq_some.mp hcomplete
  obtain rfl : nodeId = "s" := by
    have hkey : nodeId ∈ row.progress.keys := AList.mem_keys.mp
      (AList.lookup_isSome.mp (by rw [hrecord]; rfl))
    simpa [hkeys] using hkey
  obtain rfl : m = "s" := by
    cases hm using ReflTransGen.head_induction_on with
    | refl => rfl
    | head hlink _ => exact absurd rfl (hlinks _ hlink)
  refine absurd (iff_of_false (fun he => ?_) fun he => ?_) hmoved
  · exact hconverters edge (List.mem_append_left _ he) hconverter
  · exact hconverters edge (List.mem_append_right _ he) hconverter

/-- The converter for port `c` of `a:b` has the name of the one for port `b:c` of `a`. The first
proposal converts for the one, its successor for the other: the output of the one is kept for the
other. -/
theorem moved_converter_kept :
    ¬ ∀ (runtime : StackRuntime) (sameNodes : List TaskNode → List TaskNode → Bool)
      (catalogue : Catalogue) (calls : List StackCall) (previous successor : Proposal)
      (runs : StackRuns) (row row' : StackRun), ComparesNodes sameNodes →
        catalogue.inspect previous.proposalId = some previous →
        catalogue.inspect successor.proposalId = some successor →
        previous.Planned → successor.Planned →
        amend sameNodes (run (Stacks.step runtime sameNodes catalogue) {} calls).runs previous
          successor [] = .ok runs →
        (run (Stacks.step runtime sameNodes catalogue) {} calls).runs.lookup previous.proposalId =
          some row →
        runs.lookup successor.proposalId = some row' →
        Exact previous successor row.progress row'.progress := by
  intro h
  have hrun : (amend sameSkeletons (crossState 3).runs crossFirst crossSecond []).map (fun runs =>
      (runs.lookup "stack_second").bind fun row => row.progress.lookup "convert:a:b:c") =
      .ok (some ⟨.complete, 1, some "o", ["r"], [], none, none, none⟩) := by decide +kernel
  obtain ⟨runs, hruns, hrecord⟩ := map_ok.mp hrun
  obtain ⟨-, row, hrow, hrow', -⟩ := amend_rows hruns
  have hexact := h draftRuntime sameSkeletons crossCatalogue _ crossFirst crossSecond runs row _
    sameSkeletons_compares crossCatalogue_inspect.1 crossCatalogue_inspect.2 crossFirst_planned
    crossSecond_planned hruns hrow hrow'
  rw [show "stack_second" = crossSecond.proposalId from rfl, hrow', Option.bind_some] at hrecord
  have hhas : crossFirst.Has "convert:a:b:c" := by unfold Proposal.Has; decide +kernel
  have huntouched := ((hexact.kept _ _ hhas).mp hrecord).2.2
  have hincoming := (huntouched _ (.inl .refl)).incoming (crossEdge "x" "a:b" "c" true) (.inr rfl)
  exact absurd (hincoming.mp (by decide +kernel)) (by decide +kernel)

end Examples

end AeepRouter.Stack

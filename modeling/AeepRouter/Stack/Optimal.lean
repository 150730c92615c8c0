import AeepRouter.Stack.Search

/-!
# Proposals are sound and optimal

A proposal is made of the first configuration of the beam, which is in order of the scores. One with
components is an assignment within the limits. With the flag up, a blocked proposal means that there
is no assignment of the admitted size within the limits, and any other that none without unneeded
converters scores less.
-/

namespace AeepRouter.Stack

open Lib

namespace Assignment

variable {service : StackService} {goal : GoalSpec} {a : Assignment} {node : TaskNode}

theorem Selects.places (h : a.Selects service goal node) : a.Places service goal node :=
  ⟨h.candidate, h.routes.imp fun _ route hroute => by
    cases route with
    | none => exact hroute
    | some c => exact hroute.2⟩

theorem Selects.needed (h : a.Selects service goal node) :
    List.Forall₂ (fun binding route => route ≠ none → ¬ a.Direct service node binding)
      node.bindings (a.routes node.nodeId) :=
  h.routes.imp fun _ route hroute hne => by
    cases route with
    | none => exact absurd rfl hne
    | some c => exact hroute.1

theorem Places.selects (h : a.Places service goal node)
    (hneeded : List.Forall₂ (fun binding route => route ≠ none → ¬ a.Direct service node binding)
      node.bindings (a.routes node.nodeId)) : a.Selects service goal node :=
  ⟨h.candidate, List.Forall₂.mp (fun _ route hroute hneed => by
    cases route with
    | none => exact hroute
    | some c => exact ⟨hneed (by simp), hroute⟩) h.routes hneeded⟩

/-- The assignment without the converters that are not needed. -/
def strip (service : StackService) (goal : GoalSpec) (a : Assignment) : Assignment where
  pick := a.pick
  routes nodeId :=
    match goal.node? nodeId with
    | none => a.routes nodeId
    | some node => List.zipWith (fun binding route =>
        if a.Direct service node binding then none else route) node.bindings (a.routes nodeId)

theorem strip_routes (hvalid : goal.Valid) (hn : node ∈ goal.nodes) :
    (a.strip service goal).routes node.nodeId = List.zipWith (fun binding route =>
      if a.Direct service node binding then none else route) node.bindings
      (a.routes node.nodeId) := by
  simp only [strip, GoalSpec.node?_of_mem hvalid.nodup hn]

theorem strip_selects (hvalid : goal.Valid) (hn : node ∈ goal.nodes)
    (h : a.Places service goal node) : (a.strip service goal).Selects service goal node := by
  refine ⟨h.candidate, ?_⟩
  rw [strip_routes hvalid hn]
  refine forall₂_zipWith (fun binding route hroute => ?_) h.routes
  split
  · next hdirect => exact hdirect
  · next hdirect =>
    cases route with
    | none => exact absurd hroute hdirect
    | some c => exact ⟨hdirect, hroute⟩

theorem strip_sublist (hvalid : goal.Valid) :
    ((a.strip service goal).components goal).Sublist (a.components goal) := by
  refine flatMap_sublist fun node hn => ?_
  have hmem := hvalid.orderedNodes_perm.mem_iff.mp hn
  refine List.Sublist.append ?_ (List.Sublist.refl _)
  rw [strip_routes hvalid hmem]
  exact reduceOption_zipWith_sublist _ _

end Assignment

section Proposals

variable {service : StackService} {goal : GoalSpec} {parentId : Option String} {p : StackProposal}
  {c : Configuration}

/-- What is right about a proposal that has components. -/
structure Sound (service : StackService) (p : StackProposal) : Prop where
  one : ∀ node ∈ p.goal.nodes, (p.components.filter (·.nodeId = node.nodeId)).length = 1
  compatible : ∀ edge ∈ p.edges, edge.verdict = .compatible
  listed : ∀ edge ∈ p.edges, ∀ executorId ∈ edge.converterId,
    executorId ∈ service.config.converterIds
  assigned : ∃ a : Assignment, a.Meets service p.goal ∧ a.Needed service p.goal ∧
    p.components = a.components p.goal ∧ p.edges = a.edges service p.goal
  limits : WithinLimits p.goal p.components
  size : WithinSize p.components

theorem Assignment.filter_componentsAt {a : Assignment} {node m : TaskNode}
    (hs : a.Selects service goal m) (hunreserved : ¬ isReserved node.nodeId) :
    (a.componentsAt m).filter (·.nodeId = node.nodeId) =
      if m.nodeId = node.nodeId then [a.pick m.nodeId] else [] := by
  have hconverters : (a.routes m.nodeId).reduceOption.filter (·.nodeId = node.nodeId) = [] := by
    rw [List.filter_eq_nil_iff]
    intro c hc
    have hreserved := hs.converter (mem_reduceOption.mp hc)
    simpa using fun hid : c.nodeId = node.nodeId => hunreserved (hid ▸ hreserved)
  unfold Assignment.componentsAt
  rw [List.filter_append, hconverters, List.nil_append]
  have hid := nodeId_of_mem_candidateSet hs.candidate
  split
  · next heq => exact List.filter_eq_self.mpr (by simpa using hid.trans heq)
  · next hne => exact List.filter_eq_nil_iff.mpr (by simpa [hid] using hne)

theorem Assignment.one_component {a : Assignment} {nodes : List TaskNode}
    (hs : ∀ m ∈ nodes, a.Selects service goal m) (hnodup : (nodes.map (·.nodeId)).Nodup)
    {node : TaskNode} (hn : node ∈ nodes) (hunreserved : ¬ isReserved node.nodeId) :
    ((nodes.flatMap a.componentsAt).filter (·.nodeId = node.nodeId)).length = 1 := by
  induction nodes with
  | nil => simp at hn
  | cons m nodes ih =>
    rw [List.map_cons, List.nodup_cons] at hnodup
    rw [List.flatMap_cons, List.filter_append, filter_componentsAt (hs m List.mem_cons_self)
      hunreserved]
    rcases List.mem_cons.mp hn with rfl | hn
    · have hrest : (nodes.flatMap a.componentsAt).filter (·.nodeId = node.nodeId) = [] := by
        rw [List.filter_flatMap, List.flatMap_eq_nil_iff]
        intro m' hm'
        rw [filter_componentsAt (hs m' (List.mem_cons_of_mem _ hm')) hunreserved, if_neg]
        exact fun heq => hnodup.1 (heq ▸ List.mem_map_of_mem hm')
      rw [if_pos rfl, hrest]
      rfl
    · have hne : m.nodeId ≠ node.nodeId := fun heq => hnodup.1 (heq ▸ List.mem_map_of_mem hn)
      rw [if_neg hne, List.nil_append]
      exact ih (fun m' hm' => hs m' (List.mem_cons_of_mem _ hm')) hnodup.2 hn

theorem prepare_valid (h : goal.Valid) : (service.prepare goal).Valid :=
  ⟨h.goalId, h.nonempty, h.size, h.nodes, h.attempts, h.delivered, h.unreserved, h.nodup,
    h.deliverables, h.dependencies, h.ports, h.acyclic⟩

theorem mapError_ok {α ε ε' : Type} {f : ε → ε'} {x : Except ε α} {a : α} :
    x.mapError f = .ok a ↔ x = .ok a := by
  cases x <;> simp [Except.mapError]

theorem found_nil : Found service goal [] c ↔ c = ⟨[], []⟩ := by
  constructor
  · rintro ⟨a, -, rfl, -⟩
    rfl
  · rintro rfl
    exact ⟨⟨fun _ => default, fun _ => []⟩, by simp, rfl, fits_nil⟩

/-- The search from the empty configuration. -/
theorem beam_yields {raises : Raised → Prop} (hvalid : goal.Valid)
    (hquiet : QuietSearch service goal raises) (started : ℚ) :
    Yields (service.search goal started goal.orderedNodes ⟨[⟨[], []⟩], true⟩) (fun l =>
      l.Lists (Found service goal goal.orderedNodes) ∧ l.Sorted fun c => sortKey c.components)
      raises := by
  have hstart : (Listing.mk [(⟨[], []⟩ : Configuration)] true).Lists (Found service goal []) :=
    ⟨fun c hc => found_nil.mpr (List.mem_singleton.mp hc),
      fun _ c hc => List.mem_singleton.mpr (found_nil.mp hc)⟩
  exact search_yields hquiet [] goal.orderedNodes rfl hvalid.arranged hstart
    (List.pairwise_singleton _ _)

/-- A proposal is made of a listing of all assignments within the limits, or of a part of it. -/
theorem propose_ok (h : service.propose goal parentId = .ok p) :
    goal.Valid ∧ ∃ (beam : Listing Configuration) (s : Search),
      beam.Lists (Found service (service.prepare goal) (service.prepare goal).orderedNodes) ∧
      beam.Sorted (fun c => sortKey c.components) ∧
      p = StackService.conclude (service.prepare goal) parentId beam s := by
  simp only [StackService.propose, bind_ok, raiseIf_ok] at h
  obtain ⟨u, -, v, hvalid, w, -, h⟩ := h
  have hvalid := GoalSpec.validate_ok (mapError_ok.mp hvalid)
  have hany : QuietSearch service (service.prepare goal) fun _ => True :=
    ⟨trivial, fun _ _ _ _ => trivial,
      fun _ _ _ _ _ _ _ _ _ => ⟨fun _ _ => trivial, fun _ _ => trivial⟩⟩
  have hbeam := beam_yields (prepare_valid hvalid) hany (service.clock 0) { reads := 1 }
  refine ⟨hvalid, ?_⟩
  split at h
  · next beam s hrun =>
    rw [hrun] at hbeam
    exact ⟨beam, s, hbeam.1, hbeam.2, (pure_ok.mp h).symm⟩
  · exact ⟨⟨[], false⟩, _, ⟨by simp, by simp⟩, List.Pairwise.nil, (pure_ok.mp h).symm⟩
  · cases h

theorem Found.meets (hvalid : goal.Valid) (h : Found service goal goal.orderedNodes c) :
    ∃ a : Assignment, a.Meets service goal ∧ a.Needed service goal ∧
      (∀ node ∈ goal.orderedNodes, a.Selects service goal node) ∧
      c = ⟨a.components goal, a.edges service goal⟩ ∧ WithinSize c.components := by
  obtain ⟨a, hselects, rfl, hfits⟩ := h
  obtain ⟨hlimits, hsize⟩ := fits_iff.mp hfits
  have hall : ∀ node ∈ goal.nodes, a.Selects service goal node := fun node hn =>
    hselects node (hvalid.orderedNodes_perm.mem_iff.mpr hn)
  exact ⟨a, ⟨fun node hn => (hall node hn).places, hlimits⟩, fun node hn => (hall node hn).needed,
    hselects, rfl, hsize⟩

theorem Assignment.Meets.found {a : Assignment} (hvalid : goal.Valid) (h : a.Meets service goal)
    (hneeded : a.Needed service goal) (hsize : WithinSize (a.components goal)) :
    Found service goal goal.orderedNodes ⟨a.components goal, a.edges service goal⟩ := by
  refine ⟨a, fun node hn => ?_, rfl, fits_iff.mpr ⟨h.limits, hsize⟩⟩
  have hmem := hvalid.orderedNodes_perm.mem_iff.mp hn
  exact (h.places node hmem).selects (hneeded node hmem)

/-- Where there is a configuration there is one without converters that are not needed. -/
theorem Assignment.Meets.exists_found {a : Assignment} (hvalid : goal.Valid)
    (h : a.Meets service goal) (hsize : WithinSize (a.components goal)) :
    ∃ c, Found service goal goal.orderedNodes c := by
  have hsub : ((a.strip service goal).components goal).Sublist (a.components goal) :=
    strip_sublist hvalid
  have hselects : ∀ node ∈ goal.nodes, (a.strip service goal).Selects service goal node :=
    fun node hn => strip_selects hvalid hn (h.places node hn)
  exact ⟨_, Assignment.Meets.found hvalid
    ⟨fun node hn => (hselects node hn).places, h.limits.of_sublist hsub⟩
    (fun node hn => (hselects node hn).needed) (hsize.of_sublist hsub)⟩

theorem Assignment.Selects.edge {a : Assignment} {node : TaskNode}
    (h : a.Selects service goal node) {edge : CompatibilityEdge}
    (he : edge ∈ a.edgesAt service node) :
    edge.verdict = .compatible ∧
      ∀ executorId ∈ edge.converterId, executorId ∈ service.config.converterIds := by
  obtain ⟨binding, route, hroute, rfl⟩ := exists_of_mem_zipWith h.routes he
  cases route with
  | none => exact ⟨hroute, fun executorId hid => absurd hid (Option.not_mem_none _)⟩
  | some c => exact ⟨rfl, fun executorId hid =>
      Option.some_inj.mp hid ▸ (converter_of_mem hroute.2).2⟩

theorem Found.sound (hvalid : goal.Valid) (h : Found service goal goal.orderedNodes c)
    (hgoal : p.goal = goal) (hc : p.components = c.components) (he : p.edges = c.edges) :
    Sound service p := by
  subst hgoal
  obtain ⟨a, hmeets, hneeded, hselects, rfl, hsize⟩ := h.meets hvalid
  have hedge : ∀ edge ∈ p.edges, ∃ node ∈ p.goal.orderedNodes, edge ∈ a.edgesAt service node := by
    rw [he]
    exact fun edge hmem => List.mem_flatMap.mp hmem
  refine ⟨fun node hn => ?_, fun edge hmem => ?_, fun edge hmem => ?_,
    ⟨a, hmeets, hneeded, hc, he⟩, hc ▸ hmeets.limits, hc ▸ hsize⟩
  · rw [hc]
    exact Assignment.one_component hselects hvalid.arranged.nodup
      (hvalid.orderedNodes_perm.mem_iff.mpr hn) (hvalid.unreserved node hn)
  · obtain ⟨node, hn, hat⟩ := hedge edge hmem
    exact ((hselects node hn).edge hat).1
  · obtain ⟨node, hn, hat⟩ := hedge edge hmem
    exact ((hselects node hn).edge hat).2

/-- `propose`, whatever candidates, ports and clock: a proposal with components is sound; with
the flag up it is blocked only if there is no configuration, and no configuration without
unneeded converters scores less. -/
theorem propose_optimal (h : service.propose goal parentId = .ok p) :
    p.goal = service.prepare goal ∧ (p.components ≠ [] → Sound service p) ∧
    (p.searchComplete = true →
      (p.status = .blocked → ∀ a : Assignment, a.Meets service p.goal →
        ¬ WithinSize (a.components p.goal)) ∧
      (p.status ≠ .blocked → ∀ a : Assignment, a.Meets service p.goal →
        WithinSize (a.components p.goal) → a.Needed service p.goal →
        scoreOf p.components ≤ scoreOf (a.components p.goal))) := by
  obtain ⟨hvalid, beam, s, hbeam, hsorted, rfl⟩ := propose_ok h
  have hprepared : (service.prepare goal).Valid := prepare_valid hvalid
  have hblocked : (StackService.conclude (service.prepare goal) parentId beam s).status = .blocked →
      beam.items = [] := by
    simp only [StackService.conclude]
    split
    · simp
    · split
      · next hempty => exact fun _ => List.isEmpty_iff.mp hempty
      · simp
  refine ⟨rfl, fun hne => ?_, fun hcomplete => ⟨fun hstatus a ha hsize => ?_,
    fun hstatus a ha hsize hneeded => ?_⟩⟩
  · cases hhead : beam.items.head? with
    | none => simp [StackService.conclude, hhead] at hne
    | some best =>
      refine (hbeam.sound best (List.mem_of_head? hhead)).sound hprepared rfl ?_ ?_
      all_goals simp [StackService.conclude, hhead]
  · obtain ⟨c, hc⟩ := ha.exists_found hprepared hsize
    have := hbeam.full hcomplete c hc
    rw [hblocked hstatus] at this
    exact List.not_mem_nil this
  · have hmem := hbeam.full hcomplete _ (ha.found hprepared hneeded hsize)
    obtain ⟨best, hhead⟩ : ∃ best, beam.items.head? = some best := by
      cases hitems : beam.items with
      | nil => simp [hitems] at hmem
      | cons best rest => exact ⟨best, rfl⟩
    have hle := hsorted.head_le hhead hmem
    have hbest : (StackService.conclude (service.prepare goal) parentId beam s).components =
        best.components := by
      simp [StackService.conclude, hhead]
    rw [hbest]
    exact Prod.Lex.monotone_fst _ _ hle

/-! ## Two proposals -/

def anyOf (semanticType : String) : ArtifactContract where
  semanticType := semanticType
  mediaType := none
  valueSchema := some (.mk ⟨none, none, none, none, none, none, none, none, none, none⟩ none none)
  encoding := none
  maxBytes := none
  maxWidth := none
  maxHeight := none
  maxDurationSeconds := none
  locality := none
  confidentiality := none
  duration := unlimited_duration

def freeComponent (nodeId executorId : String) (score : ℚ) : StackComponent :=
  ⟨nodeId, executorId, score, {}, some 0, some 0, []⟩

def freeRouter (executors : List ExecutorSpec) (h : (executors.map (·.id)).Nodup)
    (ports : String → StackPortMapping) : Router where
  executors := executors
  policies := ["balanced"]
  defaultPolicy := "balanced"
  ports := ports
  active _ := true
  assess _ spec := .scored ⟨if spec.id = "convert" then -1 else 0, {}, some 0, some 0⟩
  distinct := h
  default_mem := by decide

/-- Two letters for each number below 36. -/
def letters (i : ℕ) : String := String.ofList [Char.ofNat (97 + i / 6), Char.ofNat (97 + i % 6)]

/-- One executor for each of 33 nodes. -/
def wideService : StackService where
  router := freeRouter ((List.range 33).map fun i =>
    { id := letters i, capability := letters i ++ "@1", outputSchema := some .null })
    (by decide +kernel) fun _ => {}
  clock _ := 0
  encodedSize _ := 0
  inspect _ := .ok ()

def wideGoal : GoalSpec where
  goalId := "wide"
  nodes := (List.range 33).map fun i => { nodeId := letters i, capability := letters i ++ "@1" }
  deliverables := [letters 0]

def wideAssignment : Assignment where
  pick nodeId := freeComponent nodeId nodeId 0
  routes _ := []

/-- A source, a sink and a converter between ports that need none. -/
def spareService : StackService where
  router := freeRouter
    [{ id := "source", capability := "source@1", outputSchema := some .null },
      { id := "sink", capability := "sink@1", outputSchema := some .null },
      { id := "convert", capability := "convert@1", outputSchema := some .null }]
    (by decide) fun executorId =>
      if executorId = "source" then { outputs := [("out", anyOf "text")] }
      else if executorId = "sink" then { inputs := [("in", anyOf "text")] }
      else { inputs := [("in", anyOf "text")], outputs := [("out", anyOf "text")] }
  config := { converterIds := ["convert"] }
  clock _ := 0
  encodedSize _ := 0
  inspect _ := .ok ()

def spareGoal : GoalSpec where
  goalId := "spare"
  nodes := [
    { nodeId := "source", capability := "source@1", outputs := [("out", anyOf "text")] },
    { nodeId := "sink", capability := "sink@1", inputs := [("in", anyOf "text")],
      bindings := [⟨"source", "out", "in"⟩] }]
  deliverables := ["sink"]

def spareAssignment : Assignment where
  pick nodeId := freeComponent nodeId nodeId 0
  routes nodeId :=
    if nodeId = "sink" then [some (freeComponent "convert:sink:in" "convert" (-1))] else []

theorem propose_goal (h : service.propose goal parentId = .ok p) :
    p.goal = service.prepare goal := by
  obtain ⟨-, _, _, -, -, rfl⟩ := propose_ok h
  rfl

/-- A property of an evaluated proposal. -/
theorem exists_of_map {α : Type} {f : StackProposal → α} {a : α}
    (h : (service.propose goal parentId).map f = .ok a) :
    ∃ p, service.propose goal parentId = .ok p ∧ f p = a := map_ok.mp h

theorem wideAssignment_meets : wideAssignment.Meets wideService (wideService.prepare wideGoal) where
  places node hn := ⟨by revert node; decide +kernel, by revert node; decide +kernel⟩
  limits := ⟨by decide +kernel, by decide +kernel, by decide +kernel, by decide +kernel,
    by decide +kernel, by decide +kernel, by decide +kernel, by decide +kernel, by decide +kernel,
    by decide +kernel, by decide +kernel⟩

theorem spareAssignment_meets :
    spareAssignment.Meets spareService (spareService.prepare spareGoal) where
  places node hn := ⟨by revert node; decide +kernel, by revert node; decide +kernel⟩
  limits := ⟨by decide +kernel, by decide +kernel, by decide +kernel, by decide +kernel,
    by decide +kernel, by decide +kernel, by decide +kernel, by decide +kernel, by decide +kernel,
    by decide +kernel, by decide +kernel⟩

/-- With the flag up, a goal of 33 nodes is blocked because no more than 32 executors are admitted,
and a converter that scores below zero is not used where the ports need none. -/
theorem complete_search_not_optimal :
    (∃ p, wideService.propose wideGoal = .ok p ∧ p.searchComplete = true ∧ p.status = .blocked ∧
      wideAssignment.Meets wideService p.goal) ∧
    (∃ p, spareService.propose spareGoal = .ok p ∧ p.searchComplete = true ∧
      p.status ≠ .blocked ∧ spareAssignment.Meets spareService p.goal ∧
      scoreOf (spareAssignment.components p.goal) < scoreOf p.components) := by
  constructor
  · have hrun : (wideService.propose wideGoal).map (fun p => (p.searchComplete, p.status)) =
        .ok (true, .blocked) := by decide +kernel
    obtain ⟨p, hp, heq⟩ := exists_of_map hrun
    rw [Prod.mk.injEq] at heq
    exact ⟨p, hp, heq.1, heq.2, propose_goal hp ▸ wideAssignment_meets⟩
  · have hrun : (spareService.propose spareGoal).map
        (fun p => (p.searchComplete, p.status, scoreOf p.components)) = .ok (true, .ready, 0) := by
      decide +kernel
    obtain ⟨p, hp, heq⟩ := exists_of_map hrun
    rw [Prod.mk.injEq, Prod.mk.injEq] at heq
    refine ⟨p, hp, heq.1, by rw [heq.2.1]; decide, propose_goal hp ▸ spareAssignment_meets, ?_⟩
    rw [heq.2.2, propose_goal hp]
    decide +kernel

/-- The proposal for a source and a sink: two components, and no assignment without a converter
scores less. -/
theorem propose_optimal_of_spare :
    ∃ p, spareService.propose spareGoal = .ok p ∧ Sound spareService p ∧
      ∀ a : Assignment, a.Meets spareService p.goal → WithinSize (a.components p.goal) →
        a.Needed spareService p.goal → scoreOf p.components ≤ scoreOf (a.components p.goal) := by
  have hrun : (spareService.propose spareGoal).map
      (fun p => (p.searchComplete, p.status, p.components.length)) = .ok (true, .ready, 2) := by
    decide +kernel
  obtain ⟨p, hp, heq⟩ := exists_of_map hrun
  rw [Prod.mk.injEq, Prod.mk.injEq] at heq
  obtain ⟨-, hsound, hoptimal⟩ := propose_optimal hp
  refine ⟨p, hp, hsound fun hnil => ?_, (hoptimal heq.1).2 (by rw [heq.2.1]; decide)⟩
  simp [hnil] at heq

end Proposals

end AeepRouter.Stack

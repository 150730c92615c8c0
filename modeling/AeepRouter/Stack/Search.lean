import AeepRouter.Stack.Assignment
import Mathlib.Data.List.ReduceOption

/-!
# What the search finds

A finished search lists assignments within the limits and no others; with its flag up it lists them
all, except those with a converter on an edge that does not need one (`search_yields`). What a
search may raise is a parameter of the lemmas about its parts.
-/

namespace AeepRouter.Stack

open Lib

theorem forall₂_concat {α β : Type} {R : α → β → Prop} {l : List α} {a : α} {rs : List β} :
    List.Forall₂ R (l ++ [a]) rs ↔ ∃ front r, List.Forall₂ R l front ∧ R a r ∧ rs = front ++ [r] := by
  induction l generalizing rs with
  | nil =>
    rw [List.nil_append, List.forall₂_cons_left_iff]
    simp only [List.forall₂_nil_left_iff]
    constructor
    · rintro ⟨r, -, hr, rfl, rfl⟩
      exact ⟨[], r, rfl, hr, rfl⟩
    · rintro ⟨_, r, rfl, hr, rfl⟩
      exact ⟨r, [], hr, rfl, rfl⟩
  | cons b l ih =>
    rw [List.cons_append, List.forall₂_cons_left_iff]
    constructor
    · rintro ⟨r, rest, hr, hrest, rfl⟩
      obtain ⟨front, last, hfront, hlast, rfl⟩ := ih.mp hrest
      exact ⟨r :: front, last, .cons hr hfront, hlast, rfl⟩
    · rintro ⟨_, last, hfront, hlast, rfl⟩
      obtain ⟨r, front, hr, hrest, rfl⟩ := List.forall₂_cons_left_iff.mp hfront
      exact ⟨r, front ++ [last], hr, ih.mpr ⟨front, last, hrest, hlast, rfl⟩, rfl⟩

theorem exists_of_forall₂ {α β : Type} {R : α → β → Prop} {l : List α} {rs : List β}
    (h : List.Forall₂ R l rs) {r : β} (hr : r ∈ rs) : ∃ a ∈ l, R a r := by
  induction h with
  | nil => simp at hr
  | cons hab _ ih =>
    rcases List.mem_cons.mp hr with rfl | hr
    · exact ⟨_, List.mem_cons_self, hab⟩
    · obtain ⟨a, ha, har⟩ := ih hr
      exact ⟨a, List.mem_cons_of_mem _ ha, har⟩

theorem forall₂_congr_mem {α β : Type} {R S : α → β → Prop} {l : List α} {rs : List β}
    (h : ∀ x ∈ l, ∀ r, R x r → S x r) (hR : List.Forall₂ R l rs) : List.Forall₂ S l rs := by
  induction hR with
  | nil => exact .nil
  | cons hr _ ih =>
    exact .cons (h _ List.mem_cons_self _ hr) (ih fun x hx => h x (List.mem_cons_of_mem _ hx))

theorem forall₂_zipWith {α β : Type} {R S : α → β → Prop} {f : α → β → β} {l : List α}
    {rs : List β} (h : ∀ x r, R x r → S x (f x r)) (hR : List.Forall₂ R l rs) :
    List.Forall₂ S l (List.zipWith f l rs) := by
  induction hR with
  | nil => exact .nil
  | cons hr _ ih => exact .cons (h _ _ hr) ih

theorem flatMap_sublist {α β : Type} {f g : α → List β} {l : List α}
    (h : ∀ x ∈ l, (f x).Sublist (g x)) : (l.flatMap f).Sublist (l.flatMap g) := by
  induction l with
  | nil => exact .slnil
  | cons x l ih =>
    rw [List.flatMap_cons, List.flatMap_cons]
    exact (h x List.mem_cons_self).append (ih fun y hy => h y (List.mem_cons_of_mem _ hy))

/-- Dropping some of the values leaves a part of them. -/
theorem reduceOption_zipWith_sublist {α β : Type} {p : α → Prop} [DecidablePred p] (l : List α)
    (rs : List (Option β)) :
    (List.zipWith (fun x r => if p x then none else r) l rs).reduceOption.Sublist
      rs.reduceOption := by
  induction l generalizing rs with
  | nil => exact List.nil_sublist _
  | cons x l ih =>
    cases rs with
    | nil => exact List.Sublist.refl _
    | cons r rs =>
      rw [List.zipWith_cons_cons]
      cases r with
      | none =>
        rw [List.reduceOption_cons_of_none, ite_self, List.reduceOption_cons_of_none]
        exact ih rs
      | some b =>
        split
        · exact (ih rs).cons _
        · exact (ih rs).cons_cons _

theorem exists_of_mem_zipWith {α β γ : Type} {R : α → β → Prop} {f : α → β → γ} {l : List α}
    {rs : List β} (h : List.Forall₂ R l rs) {z : γ} (hz : z ∈ List.zipWith f l rs) :
    ∃ x r, R x r ∧ f x r = z := by
  induction h with
  | nil => simp at hz
  | cons hxr _ ih =>
    rw [List.zipWith_cons_cons] at hz
    rcases List.mem_cons.mp hz with rfl | hz
    · exact ⟨_, _, hxr, rfl⟩
    · exact ih hz

section Parts

variable {service : StackService} {goal : GoalSpec} {node : TaskNode} {raises : Raised → Prop}

theorem lift_yields {α : Type} {r : Result α} (h : ∀ e, r = .error e → raises (.error e)) :
    Yields (lift r) (fun a => r = .ok a) raises := by
  cases r with
  | ok a => exact .pure rfl
  | error e => exact .throw (h e rfl)

theorem now_yields : Yields service.now (fun _ => True) raises := fun _ => trivial

/-! ## Candidates -/

theorem consider_yields (htimeout : raises .timeout) {action : ActionRequest} {deadline : ℚ}
    (specs : List ExecutorSpec) :
    Yields (service.consider action node deadline specs)
      (fun r => r.1 = specs.filterMap fun spec => (service.offer action node spec).toOption)
      raises := by
  induction specs with
  | nil => exact .pure rfl
  | cons spec specs ih =>
    refine .bind now_yields fun t _ => ?_
    split
    · exact .throw htimeout
    · refine .bind ih fun r hr => ?_
      cases hoffer : service.offer action node spec with
      | ok c => exact .pure (by simp [hoffer, Except.toOption, hr])
      | error e => exact .pure (by simp [hoffer, Except.toOption, hr])

/-- What asking for the candidates of a node raises is allowed. -/
def Quiet (service : StackService) (goal : GoalSpec) (raises : Raised → Prop) (node : TaskNode) :
    Prop :=
  ∀ e, (StackService.action goal node >>= service.router.policyFor) = .error e → raises (.error e)

theorem candidates_yields (htimeout : raises .timeout) (hquiet : Quiet service goal raises node)
    {deadline : ℚ} : Yields (service.candidates goal node deadline)
      (fun r => r.1 = service.candidateSet goal node) raises := by
  refine .bind (lift_yields fun e he => hquiet e (by rw [he]; rfl)) fun action haction => ?_
  refine .bind (lift_yields fun e he => hquiet e (by rw [haction]; exact he)) fun _ _ => ?_
  refine .bind (consider_yields htimeout _) fun r hr => .pure ?_
  show StackService.sortFound r.1 = service.candidateSet goal node
  rw [hr, StackService.candidateSet, haction]

/-! ## Converters -/

/-- What asking for the converter of a binding raises is allowed. -/
def QuietConverter (service : StackService) (goal : GoalSpec) (raises : Raised → Prop)
    (node : TaskNode) (binding : StackBinding) (output target : Option ArtifactContract) : Prop :=
  ∀ executorId converterNode,
    service.converterNode? node binding output target executorId = some converterNode →
      (∀ e, converterNode.validate = .error e → raises (.error e)) ∧
        Quiet service goal raises converterNode

section Converters

variable {binding : StackBinding} {output target : Option ArtifactContract} {deadline : ℚ}

theorem convertersOf_yields (htimeout : raises .timeout)
    (hquiet : QuietConverter service goal raises node binding output target)
    (executorId : String) :
    Yields (service.convertersOf goal node binding output target deadline executorId)
      (fun o => ∀ l ∈ o, l.Lists fun c => ∃ converterNode,
        service.converterNode? node binding output target executorId = some converterNode ∧
        c ∈ service.candidateSet goal converterNode ∧ c.executorId = executorId) raises := by
  unfold StackService.convertersOf
  cases hnode : service.converterNode? node binding output target executorId with
  | none =>
    refine .pure fun l hl => ?_
    rw [← Option.some_inj.mp hl]
    exact ⟨by simp, by simp⟩
  | some converterNode =>
    obtain ⟨hvalid, hcandidates⟩ := hquiet executorId converterNode hnode
    refine .bind (lift_yields hvalid) fun _ _ => ?_
    refine .bind (candidates_yields htimeout hcandidates) fun r hr => .pure fun l hl => ?_
    rw [← Option.some_inj.mp hl]
    have hmem : ∀ c, c ∈ r.1.filter (·.executorId = executorId) ↔
        c ∈ service.candidateSet goal converterNode ∧ c.executorId = executorId := by
      simp [hr]
    refine ⟨fun c hc => ⟨_, rfl, (hmem c).mp hc⟩, fun _ c ⟨_, hsame, hc⟩ => ?_⟩
    cases hsame
    exact (hmem c).mpr hc

theorem options_yields (htimeout : raises .timeout)
    (hquiet : QuietConverter service goal raises node binding output target) :
    Yields (service.options goal node binding output target deadline)
      (fun l => l.Lists fun c => (compatible output target).1 ≠ .compatible ∧
        c ∈ service.converterSet goal node binding output target) raises := by
  unfold StackService.options
  split
  · next hne =>
    refine .bind (Yields.gather fun executorId _ =>
      convertersOf_yields htimeout hquiet executorId) fun found hfound => .pure ?_
    refine ((hfound.sortBy _).cut _).mono (fun c hc => ?_) fun c hc => ⟨hne, ?_⟩
    · exact mem_converterSet.mp hc.2
    · exact mem_converterSet.mpr hc
  · next hcompatible => exact .pure ⟨by simp, fun _ c hc => absurd hc.1 hcompatible⟩

end Converters

/-! ## Variants of the edges of a node -/

def lookup (chosen : List StackComponent) (name : String) : Option StackComponent :=
  chosen.reverse.find? (·.nodeId = name)

def sourceIn (chosen : List StackComponent) (name : String) : StackComponent :=
  (lookup chosen name).getD default

section Variants

variable (service : StackService) (goal : GoalSpec) (node : TaskNode)
  (source : String → StackComponent) (candidate : StackComponent)

/-- The ports of a binding between chosen components are compatible as they are. -/
def DirectTo (binding : StackBinding) : Prop :=
  (compatible (service.outputOf (source binding.sourceNode) binding)
    (service.targetOf candidate binding)).1 = .compatible

/-- A converter that a binding between chosen components may go through. -/
def ConverterTo (binding : StackBinding) (c : StackComponent) : Prop :=
  c ∈ service.converterSet goal node binding
    (service.outputOf (source binding.sourceNode) binding) (service.targetOf candidate binding)

/-- A route the search may take: none, or a converter where one is needed. -/
def Tried (binding : StackBinding) : Option StackComponent → Prop
  | none => True
  | some c => ¬ DirectTo service source candidate binding ∧
      ConverterTo service goal node source candidate binding c

/-- A route the search may keep. -/
def Routed (binding : StackBinding) : Option StackComponent → Prop
  | none => DirectTo service source candidate binding
  | some c => ¬ DirectTo service source candidate binding ∧
      ConverterTo service goal node source candidate binding c

/-- The edges and converters of some bindings on the given routes. -/
def variantOf (bindings : List StackBinding) (routes : List (Option StackComponent)) : Variant where
  edges := List.zipWith (fun binding route =>
    (service.directEdge node binding (source binding.sourceNode) candidate).through route)
    bindings routes
  converters := routes.reduceOption

variable {service goal node source candidate} {chosen : List StackComponent} {deadline : ℚ}

theorem routed_congr {source' : String → StackComponent} {binding : StackBinding}
    (h : source binding.sourceNode = source' binding.sourceNode)
    {route : Option StackComponent} :
    Routed service goal node source candidate binding route ↔
      Routed service goal node source' candidate binding route := by
  cases route <;> simp only [Routed, DirectTo, ConverterTo, h]

theorem variantOf_congr {source' : String → StackComponent} {bindings : List StackBinding}
    (h : ∀ binding ∈ bindings, source binding.sourceNode = source' binding.sourceNode)
    {routes : List (Option StackComponent)} :
    variantOf service node source candidate bindings routes =
      variantOf service node source' candidate bindings routes := by
  simp only [variantOf, Variant.mk.injEq, and_true]
  induction bindings generalizing routes with
  | nil => rfl
  | cons binding bindings ih =>
    cases routes with
    | nil => rfl
    | cons route routes =>
      rw [List.zipWith_cons_cons, List.zipWith_cons_cons, h binding List.mem_cons_self,
        ih fun binding' hb => h binding' (List.mem_cons_of_mem _ hb)]

theorem variantOf_append {bindings : List StackBinding} {routes : List (Option StackComponent)}
    (h : bindings.length = routes.length) (binding : StackBinding)
    (route : Option StackComponent) :
    variantOf service node source candidate (bindings ++ [binding]) (routes ++ [route]) =
      ⟨(variantOf service node source candidate bindings routes).edges ++
          [(service.directEdge node binding (source binding.sourceNode) candidate).through route],
        (variantOf service node source candidate bindings routes).converters ++ route.toList⟩ := by
  simp only [variantOf, List.zipWith_append h, List.reduceOption_append, Variant.mk.injEq]
  exact ⟨rfl, by cases route <;> simp [List.reduceOption]⟩

theorem mem_choices {options : List StackComponent} {route : Option StackComponent} :
    route ∈ StackService.choices options ↔
      (options = [] ∧ route = none) ∨ ∃ c ∈ options, route = some c := by
  cases options with
  | nil => simp [StackService.choices]
  | cons c options => simp [StackService.choices, eq_comm]

theorem tryRoute_yields (htimeout : raises .timeout) {edge : CompatibilityEdge} (variant : Variant)
    (route : Option StackComponent) :
    Yields (service.tryRoute goal chosen candidate edge deadline variant route)
      (fun o => ∀ l ∈ o, l.Between
        (fun v => v = ⟨variant.edges ++ [edge.through route], variant.converters ++ route.toList⟩ ∧
          fits goal (chosen ++ v.converters ++ [candidate]))
        (fun v => v = ⟨variant.edges ++ [edge.through route],
          variant.converters ++ route.toList⟩)) raises := by
  refine .bind (.get) fun s _ => ?_
  split
  · exact .throw htimeout
  refine .bind now_yields fun t _ => ?_
  split
  · exact .throw htimeout
  refine .bind (.modify _) fun _ _ => ?_
  dsimp only
  split
  · refine .pure fun l hl => ?_
    rw [← Option.some_inj.mp hl]
    exact ⟨fun v hv => List.mem_singleton.mp hv, fun _ v hv => List.mem_singleton.mpr hv.1⟩
  · next hfits =>
    refine .pure fun l hl => ?_
    rw [← Option.some_inj.mp hl]
    refine ⟨by simp, fun _ v hv => absurd ?_ hfits⟩
    rw [hv.1] at hv
    exact hv.2

theorem extendVariants_yields (htimeout : raises .timeout)
    (hquiet : ∀ binding ∈ node.bindings, QuietConverter service goal raises node binding
      (service.outputOf (source binding.sourceNode) binding) (service.targetOf candidate binding))
    (hsource : ∀ binding ∈ node.bindings,
      lookup chosen binding.sourceNode = some (source binding.sourceNode))
    (done bindings : List StackBinding) (hall : done ++ bindings = node.bindings)
    {variants : Listing Variant}
    (h : variants.Between
      (fun v => ∃ routes, List.Forall₂ (Routed service goal node source candidate) done routes ∧
        v = variantOf service node source candidate done routes ∧
        fits goal (chosen ++ v.converters ++ [candidate]))
      (fun v => ∃ routes, List.Forall₂ (Tried service goal node source candidate) done routes ∧
        v = variantOf service node source candidate done routes)) :
    Yields (service.extendVariants goal node candidate chosen deadline bindings variants)
      (fun l => l.Between
        (fun v => ∃ routes,
          List.Forall₂ (Routed service goal node source candidate) node.bindings routes ∧
          v = variantOf service node source candidate node.bindings routes ∧
          fits goal (chosen ++ v.converters ++ [candidate]))
        (fun v => ∃ routes,
          List.Forall₂ (Tried service goal node source candidate) node.bindings routes ∧
          v = variantOf service node source candidate node.bindings routes)) raises := by
  induction bindings generalizing done variants with
  | nil =>
    rw [List.append_nil] at hall
    exact .pure (hall ▸ h)
  | cons binding bindings ih =>
    have hmem : binding ∈ node.bindings := hall ▸ List.mem_append_right _ List.mem_cons_self
    have hfound : Yields (byNode chosen binding.sourceNode)
        (fun c => c = source binding.sourceNode) raises := by
      have hlookup := hsource binding hmem
      unfold lookup at hlookup
      unfold byNode
      rw [hlookup]
      exact .pure rfl
    refine .bind hfound fun c hc => ?_
    subst hc
    refine .bind (options_yields htimeout (hquiet binding hmem)) fun options hoptions => ?_
    refine .bind (Yields.gather fun variant _ => .bind (Yields.gather fun route _ =>
      tryRoute_yields htimeout variant route) fun found hrounds => .pure fun l hl =>
        Option.some_inj.mp hl ▸ hrounds) fun expanded hexpanded => ?_
    refine ih (done ++ [binding]) (by simpa using hall) ?_
    refine (((hexpanded.sortBy _).cut _).mono (fun v hv => hv) ?_).onlyIf ?_
    · -- what is listed comes from a variant and a choice
      rintro v ⟨variant, hvariant, route, hroute, rfl⟩
      obtain ⟨routes, hroutes, rfl⟩ := h.sound variant hvariant
      refine ⟨routes ++ [route], forall₂_concat.mpr ⟨routes, route, hroutes, ?_, rfl⟩,
        (variantOf_append hroutes.length_eq _ _).symm⟩
      rcases mem_choices.mp hroute with ⟨-, rfl⟩ | ⟨c, hc, rfl⟩
      · trivial
      · exact hoptions.sound c hc
    · -- what is needed comes from a needed variant and a choice, if nothing was left out
      rintro hcomplete v ⟨_, hroutes', rfl, hfits⟩
      rw [Bool.and_eq_true] at hcomplete
      obtain ⟨routes, route, hroutes, hroute, rfl⟩ := forall₂_concat.mp hroutes'
      have happend := @variantOf_append service node source candidate _ _ hroutes.length_eq
        binding route
      rw [happend] at hfits ⊢
      refine ⟨_, h.full hcomplete.1 _ ⟨routes, hroutes, rfl, fits_of_sublist ?_ hfits⟩,
        route, mem_choices.mpr ?_, rfl, hfits⟩
      · rw [← List.append_assoc chosen]
        exact (List.sublist_append_left _ _).append (List.Sublist.refl _)
      · cases route with
        | none =>
          refine .inl ⟨List.eq_nil_iff_forall_not_mem.mpr fun c hc => ?_, rfl⟩
          exact (hoptions.sound c hc).1 hroute
        | some c => exact .inr ⟨c, hoptions.full hcomplete.2 c hroute, rfl⟩

theorem edges_yields (htimeout : raises .timeout)
    (hquiet : ∀ binding ∈ node.bindings, QuietConverter service goal raises node binding
      (service.outputOf (source binding.sourceNode) binding) (service.targetOf candidate binding))
    (hsource : ∀ binding ∈ node.bindings,
      lookup chosen binding.sourceNode = some (source binding.sourceNode)) :
    Yields (service.edges goal node candidate chosen deadline)
      (fun l => l.Between
        (fun v => ∃ routes,
          List.Forall₂ (Routed service goal node source candidate) node.bindings routes ∧
          v = variantOf service node source candidate node.bindings routes ∧
          fits goal (chosen ++ v.converters ++ [candidate]))
        (fun v => ∃ routes,
          List.Forall₂ (Tried service goal node source candidate) node.bindings routes ∧
          v = variantOf service node source candidate node.bindings routes)) raises := by
  refine extendVariants_yields htimeout hquiet hsource [] node.bindings rfl ⟨?_, ?_⟩
  · intro v hv
    exact ⟨[], .nil, List.mem_singleton.mp hv⟩
  · rintro - v ⟨routes, hroutes, rfl, -⟩
    rw [List.forall₂_nil_left_iff.mp hroutes]
    exact List.mem_singleton_self _

theorem forall₂_routed {bindings : List StackBinding} {routes : List (Option StackComponent)}
    (h : List.Forall₂ (Tried service goal node source candidate) bindings routes) :
    (∀ e ∈ (variantOf service node source candidate bindings routes).edges,
      e.verdict = .compatible) ↔
      List.Forall₂ (Routed service goal node source candidate) bindings routes := by
  induction h with
  | nil => simp [variantOf]
  | @cons binding route bindings routes hroute _ ih =>
    rw [List.forall₂_cons, ← ih]
    simp only [variantOf, List.zipWith_cons_cons, List.forall_mem_cons]
    refine and_congr_left fun _ => ?_
    cases route with
    | none => exact Iff.rfl
    | some c => exact iff_of_true rfl hroute

def Extends (service : StackService) (goal : GoalSpec) (node : TaskNode)
    (source : String → StackComponent) (current : Configuration) (candidate : StackComponent)
    (next : Configuration) : Prop :=
  ∃ routes, List.Forall₂ (Routed service goal node source candidate) node.bindings routes ∧
    next = ⟨current.components ++ routes.reduceOption ++ [candidate],
      current.edges ++ (variantOf service node source candidate node.bindings routes).edges⟩ ∧
    fits goal next.components

variable (source) in
theorem tryCandidate_yields (htimeout : raises .timeout) {current : Configuration} {started : ℚ}
    (hquiet : ∀ binding ∈ node.bindings, QuietConverter service goal raises node binding
      (service.outputOf (source binding.sourceNode) binding) (service.targetOf candidate binding))
    (hsource : ∀ binding ∈ node.bindings,
      lookup current.components binding.sourceNode = some (source binding.sourceNode)) :
    Yields (service.tryCandidate goal started node current candidate)
      (fun o => ∀ l ∈ o, l.Lists (Extends service goal node source current candidate)) raises := by
  refine .bind (.get) fun s _ => ?_
  split
  · exact .pure (by simp)
  refine .bind now_yields fun t _ => ?_
  split
  · exact .pure (by simp)
  refine .bind (.modify _) fun _ _ => ?_
  refine .bind (edges_yields htimeout hquiet hsource) fun variants hvariants => ?_
  refine .bind (.modify _) fun _ _ => .pure fun l hl => ?_
  rw [← Option.some_inj.mp hl]
  refine (hvariants.filterMap (StackService.extend goal current candidate)).mono ?_ ?_
  · rintro _ ⟨routes, hroutes, rfl, hfits⟩
    have htried : List.Forall₂ (Tried service goal node source candidate) node.bindings routes :=
      hroutes.imp fun _ route hroute => by cases route with
        | none => trivial
        | some c => exact hroute
    have hcompatible := (forall₂_routed htried).mpr hroutes
    refine ⟨_, ⟨routes, hroutes, rfl, hfits⟩, ?_⟩
    unfold StackService.extend
    rw [if_neg (by push Not; exact hcompatible)]
    exact if_pos hfits
  · rintro next ⟨_, ⟨routes, htried, rfl⟩, hextend⟩
    unfold StackService.extend at hextend
    split at hextend
    · simp at hextend
    · next hcompatible =>
      push Not at hcompatible
      split at hextend
      · next hfits =>
        rw [Option.some_inj] at hextend
        subst hextend
        exact ⟨routes, (forall₂_routed htried).mp hcompatible, rfl, hfits⟩
      · simp at hextend

end Variants

end Parts

/-! ## Parts of an assignment -/

namespace Assignment

variable {service : StackService} {goal : GoalSpec} {a b : Assignment} {nodes : List TaskNode}

/-- The choices the search makes for a node: a converter only where one is needed. -/
structure Selects (service : StackService) (goal : GoalSpec) (a : Assignment) (node : TaskNode) :
    Prop where
  candidate : a.pick node.nodeId ∈ service.candidateSet goal node
  routes : List.Forall₂ (Routed service goal node a.pick (a.pick node.nodeId)) node.bindings
    (a.routes node.nodeId)

def configuration (service : StackService) (a : Assignment) (nodes : List TaskNode) :
    Configuration :=
  ⟨nodes.flatMap a.componentsAt, nodes.flatMap (a.edgesAt service)⟩

/-- The nodes that the bindings of some nodes take from are among them. -/
def Closed (nodes : List TaskNode) : Prop :=
  ∀ node ∈ nodes, ∀ binding ∈ node.bindings, binding.sourceNode ∈ nodes.map (·.nodeId)

/-- Two assignments choose the same for some nodes. -/
def Agree (a b : Assignment) (nodes : List TaskNode) : Prop :=
  ∀ nodeId ∈ nodes.map (·.nodeId), a.pick nodeId = b.pick nodeId ∧ a.routes nodeId = b.routes nodeId

theorem Agree.at (h : Agree a b nodes) {node : TaskNode} (hn : node ∈ nodes) :
    a.pick node.nodeId = b.pick node.nodeId ∧ a.routes node.nodeId = b.routes node.nodeId :=
  h _ (List.mem_map_of_mem hn)

theorem Agree.selects (h : Agree a b nodes) (hclosed : Closed nodes) {node : TaskNode}
    (hn : node ∈ nodes) (hs : a.Selects service goal node) : b.Selects service goal node := by
  refine ⟨(h.at hn).1 ▸ hs.candidate, ?_⟩
  rw [← (h.at hn).2, ← (h.at hn).1]
  exact forall₂_congr_mem (fun binding hb _ =>
    (routed_congr (h _ (hclosed node hn binding hb)).1).mp) hs.routes

theorem Agree.edgesAt (h : Agree a b nodes) (hclosed : Closed nodes) {node : TaskNode}
    (hn : node ∈ nodes) : a.edgesAt service node = b.edgesAt service node := by
  change (variantOf service node a.pick (a.pick node.nodeId) node.bindings
    (a.routes node.nodeId)).edges = (variantOf service node b.pick (b.pick node.nodeId)
      node.bindings (b.routes node.nodeId)).edges
  rw [(h.at hn).1, (h.at hn).2,
    variantOf_congr fun binding hb => (h _ (hclosed node hn binding hb)).1]

theorem Agree.configuration (h : Agree a b nodes) (hclosed : Closed nodes) :
    a.configuration service nodes = b.configuration service nodes := by
  unfold Assignment.configuration
  have hcomponents : nodes.flatMap a.componentsAt = nodes.flatMap b.componentsAt :=
    List.flatMap_congr fun node hn => by rw [componentsAt, componentsAt, (h.at hn).1, (h.at hn).2]
  have hedges : nodes.flatMap (a.edgesAt service) = nodes.flatMap (b.edgesAt service) :=
    List.flatMap_congr fun node hn => h.edgesAt hclosed hn
  rw [hcomponents, hedges]

theorem configuration_append (nodes : List TaskNode) (node : TaskNode) :
    a.configuration service (nodes ++ [node]) =
      ⟨(a.configuration service nodes).components ++ (a.routes node.nodeId).reduceOption ++
          [a.pick node.nodeId],
        (a.configuration service nodes).edges ++
          (variantOf service node a.pick (a.pick node.nodeId) node.bindings
            (a.routes node.nodeId)).edges⟩ := by
  simp only [configuration, List.flatMap_append, List.flatMap_singleton, componentsAt,
    List.append_assoc]
  rfl

theorem components_sublist (before after : List TaskNode) :
    (a.configuration service before).components.Sublist
      (a.configuration service (before ++ after)).components := by
  simp only [configuration, List.flatMap_append]
  exact List.sublist_append_left _ _

/-! ## Looking a component up -/

theorem mem_reduceOption {routes : List (Option StackComponent)} {c : StackComponent} :
    c ∈ routes.reduceOption ↔ some c ∈ routes := by
  simp [List.reduceOption]

theorem Selects.converter {node : TaskNode} (h : a.Selects service goal node) {c : StackComponent}
    (hc : some c ∈ a.routes node.nodeId) : isReserved c.nodeId := by
  obtain ⟨binding, -, hrouted⟩ := exists_of_forall₂ h.routes hc
  rw [(converter_of_mem hrouted.2).1]
  exact isReserved_converterName _ _

theorem lookup_eq {chosen : List StackComponent} {name : String} {x : StackComponent}
    (hx : x ∈ chosen) (hid : x.nodeId = name) (hunique : ∀ c ∈ chosen, c.nodeId = name → c = x) :
    lookup chosen name = some x := by
  unfold lookup
  cases h : chosen.reverse.find? (·.nodeId = name) with
  | none => exact absurd hid (by simpa using List.find?_eq_none.mp h x (List.mem_reverse.mpr hx))
  | some c =>
    rw [hunique c (List.mem_reverse.mp (List.mem_of_find?_eq_some h))
      (by simpa using List.find?_some h)]

theorem lookup_configuration (hs : ∀ node ∈ nodes, a.Selects service goal node)
    (hunreserved : ∀ node ∈ nodes, ¬ isReserved node.nodeId) {name : String}
    (hname : name ∈ nodes.map (·.nodeId)) :
    lookup (a.configuration service nodes).components name = some (a.pick name) := by
  obtain ⟨node, hn, rfl⟩ := List.mem_map.mp hname
  refine lookup_eq (List.mem_flatMap.mpr ⟨node, hn, ?_⟩)
    (nodeId_of_mem_candidateSet (hs node hn).candidate) fun c hc hid => ?_
  · exact List.mem_append_right _ (List.mem_singleton_self _)
  · obtain ⟨m, hm, hc⟩ := List.mem_flatMap.mp hc
    rcases List.mem_append.mp hc with hc | hc
    · have hreserved := (hs m hm).converter (mem_reduceOption.mp hc)
      exact absurd (hid ▸ hreserved) (hunreserved node hn)
    · rw [List.mem_singleton] at hc
      subst hc
      rw [← hid, nodeId_of_mem_candidateSet (hs m hm).candidate]

end Assignment

/-! ## The beam -/

section Beam

variable {service : StackService} {goal : GoalSpec} {raises : Raised → Prop}

def Found (service : StackService) (goal : GoalSpec) (nodes : List TaskNode)
    (c : Configuration) : Prop :=
  ∃ a : Assignment, (∀ node ∈ nodes, a.Selects service goal node) ∧
    c = a.configuration service nodes ∧ fits goal c.components

theorem Found.of_append {before after : List TaskNode} {c : Configuration}
    (h : Found service goal (before ++ after) c) : ∃ c', Found service goal before c' := by
  obtain ⟨a, hselects, rfl, hfits⟩ := h
  exact ⟨_, a, fun node hn => hselects node (List.mem_append_left _ hn), rfl,
    fits_of_sublist (a.components_sublist before after) hfits⟩

/-- The facts about the order of the nodes that the search rests on. -/
structure Arranged (nodes : List TaskNode) : Prop where
  nodup : (nodes.map (·.nodeId)).Nodup
  unreserved : ∀ node ∈ nodes, ¬ isReserved node.nodeId
  before : ∀ before node after, nodes = before ++ node :: after → ∀ binding ∈ node.bindings,
    binding.sourceNode ∈ before.map (·.nodeId)

theorem GoalSpec.Valid.arranged (h : goal.Valid) : Arranged goal.orderedNodes where
  nodup := by
    rw [h.map_orderedNodes]
    exact h.orderedIds_perm.nodup_iff.mpr h.nodup
  unreserved node hn := h.unreserved node (h.orderedNodes_perm.mem_iff.mp hn)
  before before node after horder binding hb := h.dependency_before horder
    (List.mem_append_right _ (List.mem_map_of_mem hb))

theorem Arranged.closed {before after : List TaskNode} (h : Arranged (before ++ after)) :
    Assignment.Closed before := by
  intro node hn binding hb
  obtain ⟨front, back, rfl⟩ := List.append_of_mem hn
  have hsource := h.before front node (back ++ after) (by simp) binding hb
  rw [List.map_append]
  exact List.mem_append_left _ hsource

/-- The node that comes next is placed by changing an assignment at its name only. -/
def place (a : Assignment) (node : TaskNode) (candidate : StackComponent)
    (routes : List (Option StackComponent)) : Assignment where
  pick := Function.update a.pick node.nodeId candidate
  routes := Function.update a.routes node.nodeId routes

section Next

variable {before after : List TaskNode} {node : TaskNode} {a : Assignment}

theorem Arranged.fresh (h : Arranged (before ++ node :: after)) :
    node.nodeId ∉ before.map (·.nodeId) := by
  have hnodup := h.nodup
  rw [List.map_append, List.map_cons] at hnodup
  exact fun hmem => (List.nodup_append.mp hnodup).2.2 _ hmem _ List.mem_cons_self rfl

theorem agree_place (hfresh : node.nodeId ∉ before.map (·.nodeId)) (candidate : StackComponent)
    (routes : List (Option StackComponent)) :
    Assignment.Agree a (place a node candidate routes) before := by
  intro nodeId hid
  have hne : nodeId ≠ node.nodeId := fun h => hfresh (h ▸ hid)
  exact ⟨(Function.update_of_ne hne _ _).symm, (Function.update_of_ne hne _ _).symm⟩

theorem extends_iff (h : Arranged (before ++ node :: after)) {next : Configuration} :
    (∃ current, Found service goal before current ∧
      ∃ candidate ∈ service.candidateSet goal node,
        Extends service goal node (sourceIn current.components)
          current candidate next) ↔ Found service goal (before ++ [node]) next := by
  have hclosed : Assignment.Closed before := h.closed
  have hbefore : ∀ binding ∈ node.bindings, binding.sourceNode ∈ before.map (·.nodeId) :=
    h.before before node after rfl
  have hsource : ∀ {b : Assignment}, (∀ m ∈ before, b.Selects service goal m) →
      ∀ binding ∈ node.bindings, sourceIn (b.configuration service before).components
        binding.sourceNode = b.pick binding.sourceNode := by
    intro b hb binding hmem
    rw [sourceIn, Assignment.lookup_configuration hb
      (fun m hm => h.unreserved m (List.mem_append_left _ hm)) (hbefore binding hmem)]
    rfl
  constructor
  · rintro ⟨_, ⟨a, hselects, rfl, -⟩, candidate, hcandidate, routes, hroutes, rfl, hfits⟩
    have hagree := agree_place h.fresh candidate routes (a := a)
    have hpick : (place a node candidate routes).pick node.nodeId = candidate :=
      Function.update_self ..
    have hrouted : (place a node candidate routes).routes node.nodeId = routes :=
      Function.update_self ..
    have hsame : ∀ binding ∈ node.bindings,
        sourceIn (a.configuration service before).components binding.sourceNode =
          (place a node candidate routes).pick binding.sourceNode := fun binding hmem =>
      (hsource hselects binding hmem).trans (hagree _ (hbefore binding hmem)).1
    refine ⟨place a node candidate routes, ?_, ?_, hfits⟩
    · intro m hm
      rcases List.mem_append.mp hm with hm | hm
      · exact hagree.selects hclosed hm (hselects m hm)
      · rw [List.mem_singleton.mp hm]
        refine ⟨by rw [hpick]; exact hcandidate, ?_⟩
        rw [hpick, hrouted]
        exact forall₂_congr_mem (fun binding hb _ => (routed_congr (hsame binding hb)).mp) hroutes
    · rw [Assignment.configuration_append, ← hagree.configuration hclosed, hpick, hrouted,
        variantOf_congr hsame]
  · rintro ⟨a, hselects, rfl, hfits⟩
    have hfront : ∀ m ∈ before, a.Selects service goal m := fun m hm =>
      hselects m (List.mem_append_left _ hm)
    have hnode := hselects node (List.mem_append_right _ (List.mem_singleton_self _))
    refine ⟨_, ⟨a, hfront, rfl, fits_of_sublist (a.components_sublist before [node]) hfits⟩,
      a.pick node.nodeId, hnode.candidate, a.routes node.nodeId, ?_, ?_, hfits⟩
    · exact forall₂_congr_mem (fun binding hb _ =>
        (routed_congr (hsource hfront binding hb)).mpr) hnode.routes
    · have hedges := @variantOf_congr service node
        (sourceIn (a.configuration service before).components) (a.pick node.nodeId) a.pick
        node.bindings (hsource hfront) (a.routes node.nodeId)
      rw [Assignment.configuration_append, hedges]

end Next

/-- What the search may raise on its way is allowed: asking for candidates and for converters. -/
structure QuietSearch (service : StackService) (goal : GoalSpec) (raises : Raised → Prop) :
    Prop where
  timeout : raises .timeout
  node : ∀ node ∈ goal.orderedNodes, Quiet service goal raises node
  converter : ∀ node ∈ goal.orderedNodes, ∀ binding ∈ node.bindings, ∀ source candidate,
    QuietConverter service goal raises node binding (service.outputOf source binding)
      (service.targetOf candidate binding)

theorem search_yields (hquiet : QuietSearch service goal raises) {started : ℚ}
    (before nodes : List TaskNode) (hall : goal.orderedNodes = before ++ nodes)
    (harranged : Arranged (before ++ nodes)) {beam : Listing Configuration}
    (h : beam.Lists (Found service goal before))
    (hsorted : beam.Sorted fun c => sortKey c.components) :
    Yields (service.search goal started nodes beam) (fun l =>
      l.Lists (Found service goal (before ++ nodes)) ∧ l.Sorted fun c => sortKey c.components)
      raises := by
  induction nodes generalizing before beam with
  | nil =>
    rw [List.append_nil]
    exact .pure ⟨h, hsorted⟩
  | cons node nodes ih =>
    have hmem : node ∈ goal.orderedNodes := hall ▸ List.mem_append_right _ List.mem_cons_self
    have happend : before ++ node :: nodes = (before ++ [node]) ++ nodes := by simp
    refine .bind (candidates_yields hquiet.timeout (hquiet.node node hmem)) fun r hr => ?_
    refine .bind (.modify _) fun _ _ => ?_
    have hkept : ((Listing.mk r.1 true).cut service.config.candidatesPerNode).Lists
        (· ∈ service.candidateSet goal node) :=
      Listing.Between.cut ⟨fun c hc => hr ▸ hc, fun _ c hc => hr ▸ hc⟩ _
    refine .bind (Yields.gather fun current hcurrent => .bind (Yields.gather fun candidate _ =>
      tryCandidate_yields (sourceIn current.components)
        hquiet.timeout (fun binding hb => hquiet.converter node hmem binding hb _ _) ?_)
        fun found hfound => .pure fun l hl => Option.some_inj.mp hl ▸ hfound) fun next hnext => ?_
    · -- the sources of the next node are in every configuration found
      intro binding hb
      obtain ⟨a, hselects, rfl, -⟩ := h.sound current hcurrent
      rw [sourceIn, Assignment.lookup_configuration hselects
        (fun m hm => harranged.unreserved m (List.mem_append_left _ hm))
        (harranged.before before node nodes rfl binding hb)]
      rfl
    have hbeam : (((next.sortBy fun c : Configuration => sortKey c.components).cut
        service.config.beamWidth).onlyIf (beam.complete &&
          ((Listing.mk r.1 true).cut service.config.candidatesPerNode).complete)).Lists
        (Found service goal (before ++ [node])) := by
      refine (((hnext.sortBy _).cut _).mono (fun c hc => hc) ?_).onlyIf ?_
      · rintro c ⟨current, hcurrent, candidate, hcandidate, hextends⟩
        exact (extends_iff harranged).mp ⟨current, h.sound current hcurrent, candidate,
          hkept.sound candidate hcandidate, hextends⟩
      · intro hcomplete c hc
        rw [Bool.and_eq_true] at hcomplete
        obtain ⟨current, hcurrent, candidate, hcandidate, hextends⟩ :=
          (extends_iff harranged).mpr hc
        exact ⟨current, h.full hcomplete.1 current hcurrent, candidate,
          hkept.full hcomplete.2 candidate hcandidate, hextends⟩
    have hsort := ((next.sorted_sortBy fun c : Configuration => sortKey c.components).cut
      service.config.beamWidth)
    dsimp only
    split
    · next hempty =>
      refine .pure ⟨⟨by rw [hempty]; simp, fun hcomplete c hc => ?_⟩, hsort⟩
      obtain ⟨c', hc'⟩ := (happend ▸ hc : Found service goal ((before ++ [node]) ++ nodes) c).of_append
      have := hbeam.full hcomplete c' hc'
      rw [hempty] at this
      exact absurd this List.not_mem_nil
    · rw [happend]
      exact ih (before ++ [node]) (happend ▸ hall) (happend ▸ harranged) hbeam hsort

end Beam

end AeepRouter.Stack

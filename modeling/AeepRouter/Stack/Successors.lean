import AeepRouter.Lib.Forest
import AeepRouter.Stack.Holder

/-!
# Successors of a proposal

Proposals name a parent that was stored before them. `amend` hands the row of a stopped predecessor
to its successor: attempts, deadline and the completed nodes that nothing changed reaches. Along a
lineage only the last row is then alive, and it has spent what the rows above it had spent.
-/

namespace AeepRouter.Stack

open Lib

/-! ## What a successor changes -/

section Changes

def replaced (previous successor : Proposal) (nodeId : String) : Prop :=
  ¬ ∃ before ∈ previous.selected nodeId, ∃ after ∈ successor.selected nodeId,
    before.executorId = after.executorId ∧
      before.executorFingerprint = after.executorFingerprint ∧
      before.portsDigest = after.portsDigest

instance (previous successor : Proposal) (nodeId : String) :
    Decidable (replaced previous successor nodeId) := by
  unfold replaced
  infer_instance

/-- `before_edges.get((target_node, target_port))`. -/
def edgeAt (proposal : Proposal) (edge : CompatibilityEdge) : Option CompatibilityEdge :=
  proposal.edges.reverse.find? fun e =>
    e.targetNode = edge.targetNode ∧ e.targetPort = edge.targetPort

/-- The nodes of another implementation, and those fed through another edge. -/
def changedNodes (previous successor : Proposal) : List String :=
  ((previous.components.map (·.nodeId)).filter fun nodeId => replaced previous successor nodeId) ++
    (successor.edges.filter fun edge => edgeAt previous edge ≠ some edge).map (·.targetNode)

/-- What an edge makes its target wait for; a converter stands between. -/
def edgeLinks (edge : CompatibilityEdge) : List (String × String) :=
  match edge.converterNode.filter (· ≠ "") with
  | some converter => [(converter, edge.sourceNode), (edge.targetNode, converter)]
  | none => [(edge.targetNode, edge.sourceNode)]

/-- The nodes with what they wait for. -/
def links (successor : Proposal) : List (String × String) :=
  (successor.goal.nodes.flatMap fun node => node.dependsOn.map fun d => (node.nodeId, d)) ++
    successor.edges.flatMap edgeLinks

/-- The loop of `amend`: what waits for something changed is changed. -/
def spread (links : List (String × String)) : ℕ → List String → List String
  | 0, changed => changed
  | rounds + 1, changed =>
    let descendants := (links.filter fun l => l.2 ∈ changed).map (·.1)
    if descendants ⊆ changed then changed else spread links rounds (changed ++ descendants)

/-- The nodes of links that are not changed yet. -/
def untouched (links : List (String × String)) (changed : List String) : Finset String :=
  (links.map (·.1)).toFinset \ changed.toFinset

theorem untouched_card_le (links : List (String × String)) (changed : List String) :
    (untouched links changed).card ≤ links.length :=
  calc (untouched links changed).card
      ≤ (links.map (·.1)).toFinset.card := Finset.card_le_card Finset.sdiff_subset
    _ ≤ (links.map (·.1)).length := List.toFinset_card_le _
    _ = links.length := List.length_map _

/-- The loop ends on a set that is closed under the links: each round takes up a node. -/
theorem spread_closed {links : List (String × String)} {rounds : ℕ} {changed : List String}
    (h : (untouched links changed).card < rounds) {l : String × String} (hl : l ∈ links)
    (hmem : l.2 ∈ spread links rounds changed) : l.1 ∈ spread links rounds changed := by
  induction rounds generalizing changed with
  | zero => omega
  | succ rounds ih =>
    unfold spread at hmem ⊢
    dsimp only at hmem ⊢
    split at hmem
    · next hsub =>
      rw [if_pos hsub]
      exact hsub (List.mem_map_of_mem (List.mem_filter.mpr ⟨hl, by simpa using hmem⟩))
    · next hsub =>
      rw [if_neg hsub]
      refine ih ?_ hmem
      obtain ⟨d, hd, hnew⟩ : ∃ d ∈ (links.filter fun l => l.2 ∈ changed).map (·.1),
          d ∉ changed := by
        by_contra hall
        push Not at hall
        exact hsub hall
      have hlink : d ∈ links.map (·.1) :=
        (List.filter_sublist.map _).subset hd
      have hlt : (untouched links (changed ++
          (links.filter fun l => l.2 ∈ changed).map (·.1))).card <
            (untouched links changed).card := by
        refine Finset.card_lt_card ⟨fun x hx => ?_, fun hsubset => ?_⟩
        · simp only [untouched, Finset.mem_sdiff, List.mem_toFinset, List.mem_append] at hx ⊢
          exact ⟨hx.1, fun hc => hx.2 (.inl hc)⟩
        · have hx : d ∈ untouched links changed := by
            simp only [untouched, Finset.mem_sdiff, List.mem_toFinset]
            exact ⟨hlink, hnew⟩
          have := hsubset hx
          simp only [untouched, Finset.mem_sdiff, List.mem_toFinset, List.mem_append] at this
          exact this.2 (.inr hd)
      omega

end Changes

/-! ## Amendments -/

/-- `changed`, with everything that waits for it. -/
def invalidated (previous successor : Proposal) : List String :=
  spread (links successor) ((links successor).length + 1) (changedNodes previous successor)

/-- The records a successor takes over. -/
def preserved (progress : Progress) (changed : List String) : Progress where
  entries := progress.entries.filter fun e => e.1 ∉ changed ∧ e.2.state = .complete
  nodupKeys := progress.nodupKeys.sublist List.filter_sublist

/-- `amend`. What the preflight of the successor objects to is given, as is `==` on nodes. -/
def amend (sameNodes : List TaskNode → List TaskNode → Bool) (runs : StackRuns)
    (previous successor : Proposal) (blockers : List String) : Result StackRuns := do
  refuseIf (successor.parentId ≠ some previous.proposalId) "successor must name its predecessor"
  refuseIf (blockers ≠ []) (String.intercalate "; " blockers)
  refuseIf (¬ sameNodes previous.goal.nodes successor.goal.nodes ∨
      previous.goal.deliverables ≠ successor.goal.deliverables)
    "amendment must preserve the semantic task graph"
  let changed := invalidated previous successor
  let stopped := "predecessor must be stopped without uncertain or delegated work"
  let row ← demand (runs.lookup previous.proposalId) stopped
  refuseIf (row.state ∉ [.paused, .complete]) stopped
  refuseIf (∃ e ∈ row.progress.entries, e.2.state ∉ [.complete, .retryable])
    "predecessor contains unresolved work"
  refuseIf (∃ e ∈ row.progress.entries, e.1 ∈ changed ∧ e.2.state = .complete ∧
      ¬ ∃ original ∈ previous.selected e.1, replayable original.idempotent original.sideEffect)
    "amendment cannot replay a completed consequential operation"
  let kept := preserved row.progress changed
  refuseIf (successor.goal.limits.maxAttempts + kept.entries.length <
      row.attempts + successor.components.length)
    "successor allowance does not cover consumed and remaining attempts"
  refuseIf (runs.lookup successor.proposalId).isSome "successor already has execution state"
  return (runs.insert successor.proposalId
    { row with state := .paused, progress := kept }).insert previous.proposalId
      (row.setState .superseded)

theorem amend_ok {sameNodes : List TaskNode → List TaskNode → Bool} {runs runs' : StackRuns}
    {previous successor : Proposal} {blockers : List String}
    (h : amend sameNodes runs previous successor blockers = .ok runs') :
    successor.parentId = some previous.proposalId ∧
      runs.lookup successor.proposalId = none ∧
      ∃ row progress, runs.lookup previous.proposalId = some row ∧
        row.state ∈ [RunState.paused, .complete] ∧
        runs' = (runs.insert successor.proposalId { row with state := .paused, progress }).insert
          previous.proposalId (row.setState .superseded) := by
  simp only [amend, bind_ok, pure_ok, require_ok, raiseIf_ok, exists_const] at h
  obtain ⟨hparent, -, -, row, hrow, hstate, -, -, -, hnone, rfl⟩ := h
  exact ⟨not_not.mp hparent, Option.not_isSome_iff_eq_none.mp hnone, row, _, hrow,
    not_not.mp hstate, rfl⟩

/-! ## Lineages -/

/-- The stored proposals, newest first; each named its parent when that was stored. -/
structure Catalogue where
  proposals : List Proposal
  rooted : Rooted Proposal.proposalId Proposal.parent? proposals
  named : ∀ p ∈ proposals, p.proposalId ≠ ""

namespace Catalogue

variable (catalogue : Catalogue)

def inspect (identity : String) : Option Proposal :=
  catalogue.proposals.find? (·.proposalId = identity)

def above (identity : String) : List String :=
  ancestors Proposal.proposalId Proposal.parent? catalogue.proposals identity

end Catalogue

/-- How execution state came to be. -/
inductive Start where
  | opened (proposalId : String) (executed : List String)
  | amended (previousId successorId : String)
  deriving DecidableEq

/-- The table, and how its rows came to be. -/
structure Stacks where
  runs : StackRuns := ∅
  reported : List String := []
  starts : List Start := []

inductive StackCall where
  /-- Calls of `run` and `reconcile` on one proposal, in the order of their transactions. -/
  | run (proposalId : String) (events : List StackEvent)
  | amend (previousId successorId : String) (blockers : List String)

namespace Stacks

variable (runtime : StackRuntime) (sameNodes : List TaskNode → List TaskNode → Bool)
  (catalogue : Catalogue)

/-- The proposals above one that have execution state. -/
def executed (s : Stacks) (identity : String) : List String :=
  (catalogue.above identity).filter fun a => (s.runs.lookup a).isSome

def step (s : Stacks) : StackCall → Stacks
  | .run proposalId events =>
    match catalogue.inspect proposalId with
    | none => s
    | some proposal =>
      let after := Lib.run (System.step runtime proposal)
        { runs := s.runs, reported := s.reported } events
      { runs := after.runs
        reported := after.reported
        starts :=
          if (s.runs.lookup proposalId).isNone ∧ (after.runs.lookup proposalId).isSome then
            .opened proposalId (s.executed catalogue proposalId) :: s.starts
          else s.starts }
  | .amend previousId successorId blockers =>
    match catalogue.inspect previousId, catalogue.inspect successorId with
    | some previous, some successor =>
      match Stack.amend sameNodes s.runs previous successor blockers with
      | .ok runs => { s with runs, starts := .amended previousId successorId :: s.starts }
      | .error _ => s
    | _, _ => s

/-- A first run of a proposal whose parent was not executed finds nothing executed above it or
below. -/
def Alone (s : Stacks) : StackCall → Prop
  | .run proposalId _ =>
    ∀ proposal ∈ catalogue.inspect proposalId, s.runs.lookup proposalId = none →
      (∀ parent ∈ proposal.parent?, s.runs.lookup parent = none) →
        ∀ e ∈ s.runs.entries, e.1 ∉ catalogue.above proposalId ∧ proposalId ∉ catalogue.above e.1
  | .amend _ _ _ => True

instance (s : Stacks) (call : StackCall) : Decidable (s.Alone catalogue call) := by
  cases call <;> unfold Alone <;> infer_instance

end Stacks

/-! ## One proposal -/

/-- A call that has not claimed the row. -/
def Phase.Unclaimed : Phase → Prop
  | .idle | .checked _ _ | .stopped => True
  | .between _ _ _ | .awaiting _ _ _ | .returned _ _ _ _ | .closing _ => False

/-- A row that runs have moved on from another, or opened. -/
def Began (before : Option StackRun) (row : StackRun) : Prop :=
  row.state ≠ .superseded ∧ ∀ r ∈ before,
    r.state ≠ .superseded ∧ row.deadline = r.deadline ∧ r.attempts ≤ row.attempts

def Advanced (before : Option StackRun) (v : View) : Prop :=
  (∀ call, v.phase call ≠ .closing .superseded) ∧
    ((v.row = before ∧ ∀ call, (v.phase call).Unclaimed) ∨
      ∃ row, v.row = some row ∧ Began before row)

section Row

variable {before : Option StackRun} {limits : StackLimits} {v v' : View} {call : ℕ} {phase : Phase}
  {row row' : StackRun} {reported : List String} {log : List LogEntry}

theorem Began.trans (h : Began before row) (hstate : row'.state ≠ .superseded)
    (hdeadline : row'.deadline = row.deadline) (hattempts : row.attempts ≤ row'.attempts) :
    Began before row' :=
  ⟨hstate, fun r hr => ⟨(h.2 r hr).1, hdeadline.trans (h.2 r hr).2.1,
    (h.2 r hr).2.2.trans hattempts⟩⟩

theorem Phase.proceed_ne (prior : Progress) (steps : List String) :
    Phase.proceed prior steps ≠ .closing .superseded := by
  unfold Phase.proceed
  split <;> simp

theorem ne_superseded_update (h : ∀ c, v.phase c ≠ .closing .superseded)
    (hphase : phase ≠ .closing .superseded) (c : ℕ) :
    Function.update v.phase call phase c ≠ .closing .superseded := by
  by_cases heq : c = call
  · subst heq
    rwa [Function.update_self]
  · rw [Function.update_of_ne heq]
    exact h c

theorem Advanced.put (h : Advanced before v) (hphase : phase ≠ .closing .superseded)
    (hclaimed : (v.phase call).Unclaimed → phase.Unclaimed) :
    Advanced before ⟨v.row, Function.update v.phase call phase, reported, log⟩ := by
  obtain ⟨hclosing, hrow⟩ := h
  refine ⟨ne_superseded_update hclosing hphase, hrow.imp (fun ⟨hrow, hnone⟩ => ⟨hrow, ?_⟩) id⟩
  intro c
  show (Function.update v.phase call phase c).Unclaimed
  by_cases heq : c = call
  · subst heq
    rw [Function.update_self]
    exact hclaimed (hnone c)
  · rw [Function.update_of_ne heq]
    exact hnone c

theorem Advanced.write (h : Advanced before v) (call : ℕ) (hrow : v.row = some row)
    (hnot : row.state ≠ .superseded ∨ ¬ (v.phase call).Unclaimed)
    (hphase : ∀ c, v'.phase c ≠ .closing .superseded) (hrow' : v'.row = some row')
    (hstate : row.state ≠ .superseded → row'.state ≠ .superseded)
    (hdeadline : row'.deadline = row.deadline) (hattempts : row.attempts ≤ row'.attempts) :
    Advanced before v' := by
  obtain ⟨-, hold⟩ := h
  refine ⟨hphase, .inr ⟨row', hrow', ?_⟩⟩
  rcases hold with ⟨hsame, hnone⟩ | ⟨r, hr, hbegan⟩
  · have hlive := hnot.resolve_right fun hclaimed => hclaimed (hnone call)
    refine ⟨hstate hlive, fun r hr => ?_⟩
    rw [← hsame, hrow] at hr
    obtain rfl := Option.some.inj hr
    exact ⟨hlive, hdeadline, hattempts⟩
  · rw [hrow] at hr
    obtain rfl := Option.some.inj hr
    exact hbegan.trans (hstate hbegan.1) hdeadline hattempts

theorem Moves.advanced {orderly : Prop} (hm : Moves orderly limits v v')
    (h : Advanced before v) : Advanced before v' := by
  have hclosing := h.1
  cases hm with
  | skip => exact h
  | report decisionId => exact h
  | stop call => exact h.put (by simp) fun _ => trivial
  | check call inputDigest hidle => exact h.put (by simp) fun _ => trivial
  | first call prior inputDigest deadline steps hphase hrow hsteps =>
    refine ⟨ne_superseded_update hclosing (Phase.proceed_ne _ _), .inr ⟨_, rfl, by simp, ?_⟩⟩
    rcases h.2 with ⟨hsame, -⟩ | ⟨r, hr, -⟩
    · intro r hr
      rw [← hsame, hrow] at hr
      cases hr
    · rw [hrow] at hr
      cases hr
  | again call prior inputDigest row steps hphase hrow hstate hcurrent hsteps =>
    simp only [List.mem_cons, List.not_mem_nil, or_false, not_or] at hstate
    exact h.write call hrow (.inl hstate.2.2)
      (ne_superseded_update hclosing (Phase.proceed_ne _ _)) rfl (by simp [StackRun.setState]) rfl
      le_rfl
  | refuse call prior nodeId rest hphase =>
    exact h.put (by simp) fun hu => by rw [hphase] at hu; exact hu
  | dispatch call prior nodeId rest row hphase hnew hrow hrunning hallowed hstate hretry =>
    exact h.write call hrow (.inl (by simp [hrunning]))
      (ne_superseded_update hclosing (by simp)) rfl id rfl (Nat.le_succ _)
  | reenter call prior nodeId rest hphase hwaiting =>
    exact h.put (by simp) fun hu => by rw [hphase] at hu; exact hu
  | answer call prior nodeId rest write hphase hnew =>
    exact h.put (by simp) fun hu => by rw [hphase] at hu; exact hu
  | resume call prior nodeId rest decisionId outputDigest receiptIds hphase hdecision hnew =>
    exact h.put (by simp) fun hu => by rw [hphase] at hu; exact hu
  | fail call nodeId reported hphase hreported =>
    refine h.put (by simp) fun hu => ?_
    cases hp : v.phase call <;> simp_all [Phase.pending, Phase.Unclaimed]
  | suspend call prior nodeId rest decisionId hash row record hphase hrow hstate hattempts =>
    exact h.write call hrow (.inr (by rw [hphase]; exact id))
      (ne_superseded_update hclosing (by simp)) rfl (by simp) rfl le_rfl
  | allowRetry call prior nodeId rest failedReceipts row record hphase hrow hstate hattempts =>
    exact h.write call hrow (.inr (by rw [hphase]; exact id))
      (ne_superseded_update hclosing (by simp)) rfl id rfl le_rfl
  | complete call prior nodeId rest digest receiptIds row previous record hphase hrow hprevious
      hstate hattempts =>
    exact h.write call hrow (.inr (by rw [hphase]; exact id))
      (ne_superseded_update hclosing (Phase.proceed_ne _ _)) rfl id rfl le_rfl
  | close call state hphase =>
    have hstate : state ≠ .superseded := by
      rintro rfl
      exact hclosing call hphase
    cases hrow : v.row with
    | none =>
      have hput : Advanced before ⟨v.row, Function.update v.phase call .stopped, v.reported,
          v.log⟩ := h.put (by simp) fun _ => trivial
      rw [hrow] at hput
      exact hput
    | some row =>
      have hmap : (some row).map (·.setState state) = some (row.setState state) := rfl
      exact h.write call hrow (.inr (by rw [hphase]; exact id))
        (ne_superseded_update hclosing (by simp)) hmap (fun _ => hstate) rfl le_rfl
  | reconcile nodeId row previous record hrow hrunning hprevious hstarted hidle hstate hattempts =>
    refine h.write 0 hrow (.inl ?_) hclosing rfl (by simp) rfl le_rfl
    rintro hs
    simp [hs] at hrunning

end Row

section Session

variable {runtime : StackRuntime} {proposal : Proposal}

variable (runtime proposal) in
theorem step_runs (s : System) (event : StackEvent) :
    (s.step runtime proposal event).runs = s.runs ∨
      ∃ row, (s.step runtime proposal event).runs = s.runs.insert proposal.proposalId row ∧
        (s.row proposal = none → ∀ parent ∈ proposal.parent?, s.runs.lookup parent = none) := by
  have hsome : ∀ {row : StackRun} {q : Prop}, s.runs.lookup proposal.proposalId = some row →
      s.row proposal = none → q := by
    intro row q hrow hnone
    rw [System.row, hrow] at hnone
    cases hnone
  cases event with
  | claim call now =>
    unfold System.step
    dsimp only
    split
    · cases hclaim : claim s.runs proposal _ now with
      | error e => exact .inl rfl
      | ok runs =>
        obtain ⟨-, hparent, rfl⟩ | ⟨row, hrow, -, -, -, rfl⟩ := claim_ok hclaim
        · exact .inr ⟨_, rfl, fun _ => hparent⟩
        · exact .inr ⟨_, rfl, hsome hrow⟩
    · exact .inl rfl
  | dispatch call now =>
    unfold System.step
    dsimp only
    split
    · split
      · exact .inl rfl
      · cases hreserve : reserve s.runs proposal _ now with
        | error e => exact .inl rfl
        | ok runs =>
          obtain ⟨row, hrow, -, -, -, -, rfl⟩ := reserve_ok hreserve
          exact .inr ⟨_, rfl, hsome hrow⟩
    · exact .inl rfl
  | answer call result =>
    unfold System.step
    dsimp only
    split
    · split
      · unfold System.resume
        split
        · split
          · split
            · exact .inl rfl
            · exact .inl rfl
          · exact .inl rfl
        · exact .inl rfl
      · exact .inl rfl
    · exact .inl rfl
  | record call =>
    unfold System.step
    dsimp only
    split
    · next write _ =>
      cases write with
      | suspend decisionId workflowHash =>
        unfold System.write
        dsimp only
        split
        · next hruns =>
          obtain ⟨row, previous, hrow, -, rfl⟩ := rewrite_eq_some hruns
          exact .inr ⟨_, rfl, hsome hrow⟩
        · exact .inl rfl
      | allowRetry failedReceipts =>
        unfold System.write
        dsimp only
        split
        · next hruns =>
          obtain ⟨row, previous, hrow, -, rfl⟩ := rewrite_eq_some hruns
          exact .inr ⟨_, rfl, hsome hrow⟩
        · exact .inl rfl
      | complete outputDigest receiptIds =>
        unfold System.write
        dsimp only
        split
        · next hruns =>
          obtain ⟨row, previous, hrow, -, rfl⟩ := rewrite_eq_some hruns
          exact .inr ⟨_, rfl, hsome hrow⟩
        · exact .inl rfl
    · exact .inl rfl
  | close call =>
    unfold System.step
    dsimp only
    split
    · show setState s.runs proposal.proposalId _ = s.runs ∨ _
      unfold setState
      split
      · exact .inl rfl
      · next row hrow => exact .inr ⟨_, rfl, hsome hrow⟩
    · exact .inl rfl
  | reconcile recovery output evidence =>
    unfold System.step
    dsimp only
    split
    · next hreconcile =>
      obtain ⟨row, previous, record, hrow, -, -, -, -, -, rfl⟩ :=
        StackRuntime.reconcile_ok hreconcile
      exact .inr ⟨_, rfl, hsome hrow⟩
    · exact .inl rfl
  | start call request evidence =>
    unfold System.step
    dsimp only
    split <;> exact .inl rfl
  | refuse call =>
    unfold System.step
    dsimp only
    split <;> exact .inl rfl
  | crash call => exact .inl rfl
  | report decisionId => exact .inl rfl

/-- What calls on one proposal leave of a table. -/
structure Worked (proposal : Proposal) (runs runs' : StackRuns) : Prop where
  frame : ∀ q, q ≠ proposal.proposalId → runs'.lookup q = runs.lookup q
  opens : runs.lookup proposal.proposalId = none → (runs'.lookup proposal.proposalId).isSome →
    ∀ parent ∈ proposal.parent?, runs.lookup parent = none
  moves : runs'.lookup proposal.proposalId = runs.lookup proposal.proposalId ∨
    ∃ row, runs'.lookup proposal.proposalId = some row ∧
      Began (runs.lookup proposal.proposalId) row

variable (runtime) in
theorem worked_run (hparent : ∀ parent ∈ proposal.parent?, parent ≠ proposal.proposalId)
    (runs : StackRuns) (reported : List String) (events : List StackEvent) :
    Worked proposal runs (run (System.step runtime proposal) { runs, reported } events).runs := by
  let start : System := { runs, reported }
  have hstart : Advanced (runs.lookup proposal.proposalId) (start.view proposal) := by
    refine ⟨fun call h => ?_, .inl ⟨rfl, fun _ => trivial⟩⟩
    replace h : Phase.idle = .closing .superseded := h
    cases h
  have hview := @run_invariant _ _ (System.step runtime proposal)
    (fun s => Advanced (runs.lookup proposal.proposalId) (s.view proposal))
    (fun s event hs => (step_moves event).advanced hs) start events hstart
  have hframe := @run_invariant _ _ (System.step runtime proposal)
    (fun s => (∀ q, q ≠ proposal.proposalId → s.runs.lookup q = runs.lookup q) ∧
      (runs.lookup proposal.proposalId = none → (s.runs.lookup proposal.proposalId).isSome →
        ∀ parent ∈ proposal.parent?, runs.lookup parent = none))
    ?_ start events ⟨fun _ _ => rfl, fun hnone hsome => ?_⟩
  · refine ⟨hframe.1, hframe.2, ?_⟩
    exact hview.2.imp (fun h => h.1) id
  · rintro s event ⟨hframe, hopens⟩
    rcases step_runs runtime proposal s event with hsame | ⟨row, hinsert, hfree⟩
    · rw [hsame]
      exact ⟨hframe, hopens⟩
    · rw [hinsert]
      refine ⟨fun q hq => ?_, fun hnone _ parent hp => ?_⟩
      · rw [AList.lookup_insert_ne hq, hframe q hq]
      · cases hrow : s.runs.lookup proposal.proposalId with
        | none => rw [← hframe parent (hparent parent hp), hfree hrow parent hp]
        | some r => exact hopens hnone (by rw [hrow]; rfl) parent hp
  · rw [show start.runs.lookup proposal.proposalId = none from hnone] at hsome
    cases hsome

end Session

/-! ## Every sequence of calls -/

/-- A row below another goes on from it: the one above is superseded, no attempt is forgotten and
the deadline is the same. -/
structure Heir (above below : StackRun) : Prop where
  superseded : above.state = .superseded
  attempts : above.attempts ≤ below.attempts
  deadline : below.deadline = above.deadline

/-- Along every lineage each row is the heir of the rows above it. -/
def Inherits (catalogue : Catalogue) (runs : StackRuns) : Prop :=
  ∀ identity, ∀ a ∈ catalogue.above identity, ∀ above below, runs.lookup a = some above →
    runs.lookup identity = some below → Heir above below

/-- A first run finds nothing executed above it. -/
def Start.Lawful : Start → Prop
  | .opened _ executed => executed = []
  | .amended _ _ => True

/-- Rows stay, their attempts do not fall, their deadlines do not move, and what is superseded stays
so. -/
def Continues (runs runs' : StackRuns) : Prop :=
  ∀ identity row, runs.lookup identity = some row → ∃ row', runs'.lookup identity = some row' ∧
    row.attempts ≤ row'.attempts ∧ row'.deadline = row.deadline ∧
      (row.state = .superseded → row'.state = .superseded)

theorem Continues.refl (runs : StackRuns) : Continues runs runs :=
  fun _ row hrow => ⟨row, hrow, le_rfl, rfl, id⟩

theorem Continues.trans {r s t : StackRuns} (h : Continues r s) (h' : Continues s t) :
    Continues r t := by
  intro identity row hrow
  obtain ⟨row', hrow', hattempts, hdeadline, hstate⟩ := h identity row hrow
  obtain ⟨row'', hrow'', hattempts', hdeadline', hstate'⟩ := h' identity row' hrow'
  exact ⟨row'', hrow'', hattempts.trans hattempts', hdeadline'.trans hdeadline, hstate' ∘ hstate⟩

namespace Catalogue

variable {catalogue : Catalogue} {identity : String} {proposal : Proposal}

theorem inspect_eq_some (h : catalogue.inspect identity = some proposal) :
    proposal ∈ catalogue.proposals ∧ proposal.proposalId = identity :=
  ⟨List.mem_of_find?_eq_some h, by simpa using List.find?_some h⟩

theorem above_of_parent (h : proposal ∈ catalogue.proposals) {parent : String}
    (hp : proposal.parent? = some parent) :
    catalogue.above proposal.proposalId = parent :: catalogue.above parent :=
  ancestors_of_parent catalogue.rooted h hp

theorem not_above_self (identity : String) : identity ∉ catalogue.above identity :=
  not_mem_ancestors_self catalogue.rooted identity

theorem above_trans {a b c : String} (hab : a ∈ catalogue.above b) (hbc : b ∈ catalogue.above c) :
    a ∈ catalogue.above c :=
  ancestors_trans catalogue.rooted hab hbc

theorem parent_ne (h : proposal ∈ catalogue.proposals) :
    ∀ parent ∈ proposal.parent?, parent ≠ proposal.proposalId := by
  rintro parent hp rfl
  have hlength := congrArg List.length (catalogue.above_of_parent h hp)
  simp at hlength

end Catalogue

section Calls

variable {catalogue : Catalogue} {proposal : Proposal} {runs runs' : StackRuns}

theorem Worked.continues (h : Worked proposal runs runs') : Continues runs runs' := by
  intro identity row hrow
  by_cases heq : identity = proposal.proposalId
  · subst heq
    rcases h.moves with hsame | ⟨row', hrow', -, hbegan⟩
    · exact ⟨row, hsame.trans hrow, le_rfl, rfl, id⟩
    · obtain ⟨hlive, hdeadline, hattempts⟩ := hbegan row hrow
      exact ⟨row', hrow', hattempts, hdeadline, fun hs => absurd hs hlive⟩
  · exact ⟨row, (h.frame identity heq).trans hrow, le_rfl, rfl, id⟩

/-- Work on a row that was there, or on one opened alone, keeps the lineages. -/
theorem Worked.inherits (h : Worked proposal runs runs') (hinherits : Inherits catalogue runs)
    (halone : runs.lookup proposal.proposalId = none →
      (runs'.lookup proposal.proposalId).isSome → ∀ q row, runs.lookup q = some row →
        q ∉ catalogue.above proposal.proposalId ∧ proposal.proposalId ∉ catalogue.above q) :
    Inherits catalogue runs' := by
  intro q a ha above below habove hbelow
  rcases h.moves with hsame | ⟨row, hrow, hbegan⟩
  · -- the row did not move
    have hall : ∀ q, runs'.lookup q = runs.lookup q := by
      intro q
      by_cases heq : q = proposal.proposalId
      · rw [heq, hsame]
      · exact h.frame q heq
    rw [hall] at habove hbelow
    exact hinherits q a ha above below habove hbelow
  · by_cases hq : q = proposal.proposalId
    · subst hq
      obtain rfl : row = below := Option.some.inj (hrow.symm.trans hbelow)
      have hne : a ≠ proposal.proposalId := by
        rintro rfl
        exact catalogue.not_above_self _ ha
      rw [h.frame a hne] at habove
      cases hbefore : runs.lookup proposal.proposalId with
      | none => exact absurd ha (halone hbefore (by rw [hrow]; rfl) a above habove).1
      | some before =>
        obtain ⟨-, hdeadline, hattempts⟩ := hbegan.2 before hbefore
        have hheir := hinherits _ a ha above before habove hbefore
        exact ⟨hheir.superseded, hheir.attempts.trans hattempts, hdeadline.trans hheir.deadline⟩
    · rw [h.frame q hq] at hbelow
      by_cases hne : a = proposal.proposalId
      · subst hne
        cases hbefore : runs.lookup proposal.proposalId with
        | none => exact absurd ha (halone hbefore (by rw [hrow]; rfl) q below hbelow).2
        | some before =>
          have hheir := hinherits q _ ha before below hbefore hbelow
          exact absurd hheir.superseded (hbegan.2 before hbefore).1
      · rw [h.frame a hne] at habove
        exact hinherits q a ha above below habove hbelow

section Amend

variable {previous successor : Proposal} {row : StackRun} {progress : Progress}
  (hrow : runs.lookup previous.proposalId = some row)

include hrow

theorem amend_continues (hnew : runs.lookup successor.proposalId = none) :
    Continues runs ((runs.insert successor.proposalId
      { row with state := .paused, progress }).insert previous.proposalId
        (row.setState .superseded)) := by
  intro q r hr
  by_cases hp : q = previous.proposalId
  · subst hp
    obtain rfl : r = row := Option.some.inj (hr.symm.trans hrow)
    exact ⟨_, AList.lookup_insert _, le_rfl, rfl, fun _ => rfl⟩
  · have hs : q ≠ successor.proposalId := by
      rintro rfl
      rw [hnew] at hr
      cases hr
    refine ⟨r, ?_, le_rfl, rfl, id⟩
    rw [AList.lookup_insert_ne hp, AList.lookup_insert_ne hs, hr]

theorem amend_inherits (hinherits : Inherits catalogue runs)
    (habove : catalogue.above successor.proposalId =
      previous.proposalId :: catalogue.above previous.proposalId)
    (hstate : row.state ∈ [RunState.paused, .complete]) :
    Inherits catalogue ((runs.insert successor.proposalId
      { row with state := .paused, progress }).insert previous.proposalId
        (row.setState .superseded)) := by
  have hlive : row.state ≠ .superseded := by
    rintro hs
    simp [hs] at hstate
  -- nothing below a live row has a row
  have hleaf : ∀ q below, previous.proposalId ∈ catalogue.above q → runs.lookup q ≠ some below :=
    fun q below hq hbelow => hlive (hinherits q _ hq row below hrow hbelow).superseded
  have hself : previous.proposalId ∈ catalogue.above successor.proposalId := by
    rw [habove]
    exact List.mem_cons_self
  intro q a ha above below hup hdown
  by_cases hq : q = previous.proposalId
  · subst hq
    rw [AList.lookup_insert] at hdown
    have hap : a ≠ previous.proposalId := by
      rintro rfl
      exact catalogue.not_above_self _ ha
    have has : a ≠ successor.proposalId := by
      rintro rfl
      exact catalogue.not_above_self _ (catalogue.above_trans ha hself)
    rw [AList.lookup_insert_ne hap, AList.lookup_insert_ne has] at hup
    have hheir := hinherits _ a ha above row hup hrow
    obtain rfl := Option.some.inj hdown
    exact ⟨hheir.superseded, hheir.attempts, hheir.deadline⟩
  · rw [AList.lookup_insert_ne hq] at hdown
    by_cases hs : q = successor.proposalId
    · subst hs
      rw [AList.lookup_insert] at hdown
      obtain rfl := Option.some.inj hdown
      rw [habove] at ha
      by_cases hap : a = previous.proposalId
      · subst hap
        rw [AList.lookup_insert] at hup
        obtain rfl := Option.some.inj hup
        exact ⟨rfl, le_rfl, rfl⟩
      · replace ha := (List.mem_cons.mp ha).resolve_left hap
        have has : a ≠ successor.proposalId := by
          rintro rfl
          exact catalogue.not_above_self _ (catalogue.above_trans ha hself)
        rw [AList.lookup_insert_ne hap, AList.lookup_insert_ne has] at hup
        have hheir := hinherits _ a ha above row hup hrow
        exact ⟨hheir.superseded, hheir.attempts, hheir.deadline⟩
    · rw [AList.lookup_insert_ne hs] at hdown
      have hap : a ≠ previous.proposalId := by
        rintro rfl
        exact hleaf q below ha hdown
      have has : a ≠ successor.proposalId := by
        rintro rfl
        exact hleaf q below (catalogue.above_trans hself ha) hdown
      rw [AList.lookup_insert_ne hap, AList.lookup_insert_ne has] at hup
      exact hinherits q a ha above below hup hdown

end Amend

/-- The lineages of a table and how its rows began. -/
structure Lineages (catalogue : Catalogue) (s : Stacks) : Prop where
  inherits : Inherits catalogue s.runs
  lawful : ∀ start ∈ s.starts, start.Lawful

variable {runtime : StackRuntime} {sameNodes : List TaskNode → List TaskNode → Bool}

variable (runtime sameNodes) in
/-- One call keeps the lineages and goes on from the rows it finds. -/
theorem step_lineages {s : Stacks} {call : StackCall} (h : Lineages catalogue s)
    (halone : s.Alone catalogue call) :
    Lineages catalogue (s.step runtime sameNodes catalogue call) ∧
      Continues s.runs (s.step runtime sameNodes catalogue call).runs := by
  cases call with
  | run proposalId events =>
    unfold Stacks.step
    dsimp only
    split
    · exact ⟨h, .refl _⟩
    · next proposal hinspect =>
      obtain ⟨hmem, rfl⟩ := catalogue.inspect_eq_some hinspect
      have hworked := worked_run runtime (catalogue.parent_ne hmem) s.runs s.reported events
      have hfree : s.runs.lookup proposal.proposalId = none →
          ((run (System.step runtime proposal) { runs := s.runs, reported := s.reported }
            events).runs.lookup proposal.proposalId).isSome → ∀ q row, s.runs.lookup q = some row →
          q ∉ catalogue.above proposal.proposalId ∧
            proposal.proposalId ∉ catalogue.above q := by
        intro hnone hsome q row hrow
        exact halone proposal hinspect hnone (hworked.opens hnone hsome) ⟨q, row⟩
          (AList.mem_lookup_iff.mp hrow)
      refine ⟨⟨hworked.inherits h.inherits hfree, ?_⟩, hworked.continues⟩
      dsimp only
      split
      · next hopened =>
        refine List.forall_mem_cons.mpr ⟨?_, h.lawful⟩
        refine List.filter_eq_nil_iff.mpr fun a ha hsome => ?_
        obtain ⟨row, hrow⟩ := Option.isSome_iff_exists.mp (of_decide_eq_true (by simpa using hsome))
        exact (hfree (Option.isNone_iff_eq_none.mp hopened.1) hopened.2 a row hrow).1 ha
      · exact h.lawful
  | amend previousId successorId blockers =>
    unfold Stacks.step
    dsimp only
    split
    · next previous successor hprevious hsuccessor =>
      obtain ⟨hpmem, rfl⟩ := catalogue.inspect_eq_some hprevious
      obtain ⟨hsmem, rfl⟩ := catalogue.inspect_eq_some hsuccessor
      split
      · next runs hamend =>
        obtain ⟨hparent, hnew, row, progress, hrow, hstate, rfl⟩ := amend_ok hamend
        have hparent' : successor.parent? = some previous.proposalId := by
          simp [Proposal.parent?, hparent, catalogue.named previous hpmem]
        have habove := catalogue.above_of_parent hsmem hparent'
        exact ⟨⟨amend_inherits hrow h.inherits habove hstate,
          List.forall_mem_cons.mpr ⟨trivial, h.lawful⟩⟩, amend_continues hrow hnew⟩
      · exact ⟨h, .refl _⟩
    · exact ⟨h, .refl _⟩

end Calls

section Sequences

variable (runtime : StackRuntime) (sameNodes : List TaskNode → List TaskNode → Bool)
  (catalogue : Catalogue)

theorem run_lineages {s : Stacks} {calls : List StackCall} (hs : Lineages catalogue s)
    (halone : Admissible (Stacks.step runtime sameNodes catalogue)
      (fun s call => s.Alone catalogue call) s calls) :
    Lineages catalogue (run (Stacks.step runtime sameNodes catalogue) s calls) ∧
      Continues s.runs (run (Stacks.step runtime sameNodes catalogue) s calls).runs := by
  induction calls generalizing s with
  | nil => exact ⟨hs, .refl _⟩
  | cons call calls ih =>
    obtain ⟨hnext, hcontinues⟩ := step_lineages runtime sameNodes hs halone.1
    obtain ⟨hlast, hrest⟩ := ih hnext halone.2
    exact ⟨hlast, hcontinues.trans hrest⟩

/-- Whatever is called on the proposals of a lineage, if no first run skips over an executed
ancestor or opens a proposal above executed ones: along the lineage every row but the last is
superseded, attempts do not fall and the deadline is that of the first run; descendants of an
executed proposal start from amendments only; and later calls go on from the rows of earlier
ones. -/
theorem lineage_inherits {calls : List StackCall}
    (halone : Admissible (Stacks.step runtime sameNodes catalogue)
      (fun s call => s.Alone catalogue call) {} calls) :
    Inherits catalogue (run (Stacks.step runtime sameNodes catalogue) {} calls).runs ∧
      (∀ start ∈ (run (Stacks.step runtime sameNodes catalogue) {} calls).starts, start.Lawful) ∧
      ∀ earlier later, calls = earlier ++ later →
        Continues (run (Stacks.step runtime sameNodes catalogue) {} earlier).runs
          (run (Stacks.step runtime sameNodes catalogue) {} calls).runs := by
  have hstart : Lineages catalogue {} := by
    refine ⟨fun q a _ above below hup _ => ?_, List.forall_mem_nil _⟩
    cases hup
  obtain ⟨⟨hinherits, hlawful⟩, -⟩ := run_lineages runtime sameNodes catalogue hstart halone
  refine ⟨hinherits, hlawful, ?_⟩
  rintro earlier later rfl
  rw [admissible_append] at halone
  rw [run_append]
  have hearlier := run_lineages runtime sameNodes catalogue hstart halone.1
  exact (run_lineages runtime sameNodes catalogue hearlier.1 halone.2).2

end Sequences

section Examples

/-- Three proposals of one graph, each the successor of the one before. -/
def draftLineage : Catalogue where
  proposals := [
    { draftProposal with proposalId := "stack_third", parentId := some "stack_second" },
    { draftProposal with proposalId := "stack_second", parentId := some "stack_draft" },
    draftProposal]
  rooted := by decide +kernel
  named := by decide +kernel

def firstNode : List StackEvent := [
  .start 0 ⟨"i", [], []⟩ {}, .claim 0 0, .dispatch 0 1,
  .answer 0 (.success .null [draftReceipt "r1" "a1"]), .record 0, .refuse 0, .close 0]

/-- The rest of the nodes, from the artifacts of the first call. -/
def otherNode : List StackEvent := [
  .start 0 ⟨"i", [("a", .null)], []⟩ { receipts := [draftReceipt "r1" "a1"] }, .claim 0 2,
  .dispatch 0 3, .answer 0 (.success .null [draftReceipt "r2" "b1"]), .record 0, .close 0]

theorem lineage_inherits_amended :
    let step := Stacks.step draftRuntime (fun _ _ => true) draftLineage
    let calls := [.run "stack_draft" firstNode, .amend "stack_draft" "stack_second" [],
      .run "stack_second" otherNode, .amend "stack_second" "stack_third" []]
    (run step {} calls).starts = [.amended "stack_second" "stack_third",
        .amended "stack_draft" "stack_second", .opened "stack_draft" []] ∧
      Inherits draftLineage (run step {} calls).runs :=
  ⟨by decide +kernel,
    (lineage_inherits draftRuntime (fun _ _ => true) draftLineage (by decide +kernel)).1⟩

/-- The third proposal is not the child of the executed one: its first run is accepted, with its
whole allowance and a deadline of its own. -/
theorem skipped_generation_reset :
    ¬ ∀ (runtime : StackRuntime) (sameNodes : List TaskNode → List TaskNode → Bool)
      (catalogue : Catalogue) (calls : List StackCall),
      Inherits catalogue (run (Stacks.step runtime sameNodes catalogue) {} calls).runs ∧
        ∀ start ∈ (run (Stacks.step runtime sameNodes catalogue) {} calls).starts,
          start.Lawful := by
  intro h
  have hlawful := (h draftRuntime (fun _ _ => true) draftLineage
    [.run "stack_draft" firstNode, .run "stack_third" firstNode]).2
  have hstarts : (run (Stacks.step draftRuntime (fun _ _ => true) draftLineage) {}
      [.run "stack_draft" firstNode, .run "stack_third" firstNode]).starts =
      [.opened "stack_third" ["stack_draft"], .opened "stack_draft" []] := by decide +kernel
  rw [hstarts] at hlawful
  have hopened := hlawful _ List.mem_cons_self
  cases hopened

end Examples

end AeepRouter.Stack

import AeepRouter.Workflow.Merges

/-!
# One execution and its resumptions

A session is one call of `execute_workflow` followed by calls of `resume_workflow`, each with the
last waiting outcome. `exactly_once` says of orderly waves that no step is invoked twice, unless
it had failed, and that an outcome has the receipt of every invocation once. Offline, a wave that
goes on past a waiting step is not orderly: `delegated_wave_repeated`.
-/

namespace AeepRouter.Workflow

open Lib Stack

/-! ## The loop -/

section Loop

variable {economic : Bool} {workflow : WorkflowRequest} {p : Progress} {members : List Member}
  {made : List Receipt}

theorem workflowResult_ok {verdict : Verdict} {o : WorkflowOutcome}
    (h : workflowResult workflow p verdict = .ok o) :
    o.receipts = p.receipts ∧ o.stepOutputs = p.outputs ∧
      (o.status = .waiting → ∃ stepId decisionId, verdict = .waiting stepId decisionId ∧
        o.waitingStepId = some stepId ∧ o.waitingDecisionId = some decisionId) := by
  cases verdict with
  | success =>
    simp only [workflowResult, bind_ok, pure_ok] at h
    obtain ⟨_, -, rfl⟩ := h
    exact ⟨rfl, rfl, nofun⟩
  | waiting stepId decisionId =>
    cases h
    exact ⟨rfl, rfl, fun _ => ⟨_, _, rfl, rfl, rfl⟩⟩
  | failed error =>
    cases h
    exact ⟨rfl, rfl, nofun⟩

theorem waveOf_sublist (exclusive : WorkflowStep → Bool) (steps : List WorkflowStep) :
    (waveOf exclusive steps).Sublist steps := by
  unfold waveOf
  split
  · next step hfind => exact List.singleton_sublist.mpr (List.mem_of_find?_eq_some hfind)
  · exact List.take_sublist 8 steps

theorem Round.run_ok {round : Round} {wave : Wave} (hnodup : workflow.ids.Nodup)
    (h : round.run economic workflow p = .ok wave) :
    wave.economic = economic ∧ Pending p wave.members := by
  unfold Round.run at h
  split at h
  · cases h
  · cases h
  · next exclusive _ =>
    split at h
    · cases h
    obtain rfl := Except.ok.inj h
    have hsub := waveOf_sublist exclusive (ready workflow p)
    have hready : ∀ step ∈ ready workflow p, step ∈ pending workflow p := by
      intro step hstep
      rw [ready, List.mem_insertionSort] at hstep
      exact List.mem_of_mem_filter hstep
    have hids : ((ready workflow p).map (·.stepId)).Nodup := by
      refine ((List.perm_insertionSort _ _).map _).nodup_iff.mpr ?_
      exact (List.filter_sublist.trans List.filter_sublist).map _ |>.nodup hnodup
    refine ⟨rfl, ?_, ?_⟩
    · rw [List.map_map]
      exact (hsub.map _).nodup hids
    · intro m hm
      obtain ⟨step, hstep, rfl⟩ := List.mem_map.mp hm
      have := hready step (hsub.subset hstep)
      simpa [pending] using (List.mem_filter.mp this).2

/-- What may be done again when a waiting outcome is taken up: nothing but what has failed. -/
def Suspended (members : List Member) (o : WorkflowOutcome) : Prop :=
  ∃ stepId, o.waitingStepId = some stepId ∧ ∀ m ∈ members, m.call.invoked →
    m.stepId ∈ o.stepOutputs ∨ m.stepId = stepId ∨ m.call.failed

def membersOf (waves : List Wave) : List Member := waves.flatMap (·.members)

/-- What a call leaves, given the calls and receipts before it. -/
structure Accounts (members : List Member) (made : List Receipt) (waves : List Wave)
    (result : Result WorkflowOutcome) : Prop where
  once : Once (members ++ membersOf waves)
  receipts : ∀ o, result = .ok o → o.receipts = made ++ madeOf (membersOf waves)
  suspended : ∀ o, result = .ok o → o.status = .waiting → Suspended (members ++ membersOf waves) o

/-- An outcome of what was done so far, that waits for nothing. -/
def Settled (p : Progress) (result : Result WorkflowOutcome) : Prop :=
  ∀ o, result = .ok o → o.receipts = p.receipts ∧ o.status ≠ .waiting

theorem settled_success : Settled p (workflowResult workflow p .success) := by
  intro o ho
  obtain ⟨hreceipts, -, hwaiting⟩ := workflowResult_ok ho
  refine ⟨hreceipts, fun h => ?_⟩
  obtain ⟨_, _, heq, -⟩ := hwaiting h
  cases heq

theorem settled_failed (error : String) :
    Settled p (workflowResult workflow p (.failed error)) := by
  intro o ho
  cases ho
  exact ⟨rfl, nofun⟩

theorem opening_settled {result : Result WorkflowOutcome} (h : opening workflow p = some result) :
    Settled p result := by
  unfold opening at h
  split at h
  · cases h
    exact settled_success
  · split at h
    · cases h
      exact settled_failed _
    · cases h

theorem Round.run_settled {round : Round} {result : Result WorkflowOutcome}
    (h : round.run economic workflow p = .error result) : Settled p result := by
  unfold Round.run at h
  split at h
  · cases h
    nofun
  · cases h
    exact settled_failed _
  · split at h
    · cases h
      nofun
    · cases h

theorem Accounts.none {result : Result WorkflowOutcome} (h : Tracks members made p)
    (hresult : Settled p result) : Accounts members made [] result where
  once := by simpa [membersOf] using h.once
  receipts o ho := by
    rw [(hresult o ho).1, h.receipts]
    simp [membersOf, madeOf]
  suspended o ho hw := absurd hw (hresult o ho).2

theorem Accounts.cons {wave : Wave} {waves : List Wave} {result : Result WorkflowOutcome}
    (h : Accounts (members ++ wave.members) (made ++ madeOf wave.members) waves result) :
    Accounts members made (wave :: waves) result := by
  have hmembers : members ++ membersOf (wave :: waves) =
      members ++ wave.members ++ membersOf waves := by
    simp [membersOf]
  refine ⟨hmembers ▸ h.once, fun o ho => ?_, fun o ho hw => hmembers ▸ h.suspended o ho hw⟩
  rw [h.receipts o ho]
  simp [membersOf, madeOf]

theorem Accounts.halt {p' : Progress} {verdict : Verdict}
    (h : (Merged.halt p' verdict).Tracks members made) :
    Accounts members made [] (workflowResult workflow p' verdict) := by
  obtain ⟨hreceipts, honce, -, hwaiting⟩ := h
  refine ⟨by simpa [membersOf] using honce, fun o ho => ?_, fun o ho hw => ?_⟩
  · rw [(workflowResult_ok ho).1, hreceipts]
    simp [membersOf, madeOf]
  · obtain ⟨-, houtputs, hstatus⟩ := workflowResult_ok ho
    obtain ⟨stepId, decisionId, heq, hid, -⟩ := hstatus hw
    refine ⟨stepId, hid, fun m hm hinvoked => ?_⟩
    rw [houtputs]
    exact hwaiting stepId decisionId heq m (by simpa [membersOf] using hm) hinvoked

theorem loop_accounts (hnodup : workflow.ids.Nodup) {rounds : List Round}
    (h : Tracks members made p)
    (horder : ∀ wave ∈ (loop economic workflow rounds p).1, wave.Orderly) :
    Accounts members made (loop economic workflow rounds p).1
      (loop economic workflow rounds p).2 := by
  induction rounds generalizing p members made with
  | nil =>
    refine .none h ?_
    rw [loop]
    cases hopening : opening workflow p with
    | none => exact fun o ho => by cases ho
    | some result => exact opening_settled hopening
  | cons round rounds ih =>
    rw [loop] at horder ⊢
    cases hopening : opening workflow p with
    | some result => exact .none h (opening_settled hopening)
    | none =>
      cases hrun : round.run economic workflow p with
      | error result => exact .none h (Round.run_settled hrun)
      | ok wave =>
        obtain ⟨-, hpending⟩ := Round.run_ok hnodup hrun
        simp only [hopening, hrun] at horder ⊢
        cases hmerge : wave.merge p with
        | halt p' verdict =>
          simp only [hmerge, List.mem_singleton, forall_eq] at horder
          exact .cons (.halt (hmerge ▸ h.merge hpending horder))
        | proceed p' =>
          simp only [hmerge, List.forall_mem_cons] at horder
          have hafter := h.merge hpending horder.1
          rw [hmerge] at hafter
          exact .cons (ih hafter horder.2)

theorem executeWorkflow_accounts (hnodup : workflow.ids.Nodup) {answers : Answers}
    (h : Tracks members made p)
    (horder : ∀ wave ∈ (executeWorkflow economic workflow answers p).1, wave.Orderly) :
    Accounts members made (executeWorkflow economic workflow answers p).1
      (executeWorkflow economic workflow answers p).2 := by
  unfold executeWorkflow at horder ⊢
  cases hpreflight : answers.preflight with
  | error error => exact .none h fun o ho => by cases ho
  | ok u =>
    rw [hpreflight] at horder
    exact loop_accounts hnodup h horder

end Loop

/-! ## Sessions -/

def Entry.members : Entry → List Member
  | wave w => w.members
  | reported _ => []

def Entry.made : Entry → List Receipt
  | wave w => madeOf w.members
  | reported receipt => [receipt]

namespace Session

/-- The calls made, in the order of the waves. -/
def members (s : Session) : List Member := s.log.flatMap Entry.members

/-- The receipts of all invocations, and of the outcomes from outside. -/
def made (s : Session) : List Receipt := s.log.flatMap Entry.made

def waves (s : Session) : List Wave :=
  s.log.filterMap fun
    | .wave w => some w
    | .reported _ => none

/-- Every step is invoked once, unless it had failed, and what the last call returned has the
receipt of every invocation once, and counts it once unless another summarizes it. -/
structure ExactlyOnce (s : Session) : Prop where
  invoked : Once s.members
  receipts : ∀ o ∈ s.last, (s.made.map (·.receiptId)).Nodup → ∀ r ∈ s.made, o.receipts.count r = 1
  accounted : ∀ o ∈ s.last, (s.made.map (·.receiptId)).Nodup → ∀ r ∈ s.made,
    (∀ other ∈ s.made, r.receiptId ∈ other.componentReceiptIds → other = r) →
      o.accounted.count r = 1

/-- A session in order: a waiting outcome whose decision has no outcome yet can be taken up. -/
structure InOrder (s : Session) : Prop where
  once : Once s.members
  last : ∀ o ∈ s.last, o.receipts = s.made
  waiting : ∀ prior ∈ s.waiting, prior.waitingDecisionId.getD "" ∉ s.reported →
    prior.receipts = s.made ∧ Suspended s.members prior

variable {s : Session} {workflow : WorkflowRequest} {economic : Bool}

theorem flatMap_members_wave (waves : List Wave) :
    (waves.map Entry.wave).flatMap Entry.members = membersOf waves := by
  rw [List.flatMap_map]
  rfl

theorem flatMap_made_wave (waves : List Wave) :
    (waves.map Entry.wave).flatMap Entry.made = madeOf (membersOf waves) := by
  rw [List.flatMap_map, madeOf, membersOf, List.flatMap_assoc]
  rfl

theorem conclude_log (call : List Wave × Result WorkflowOutcome) :
    (s.conclude call).log = s.log ++ call.1.map .wave := by
  unfold conclude
  split <;> rfl

theorem waves_conclude (call : List Wave × Result WorkflowOutcome) :
    (s.conclude call).waves = s.waves ++ call.1 := by
  unfold waves
  rw [conclude_log, List.filterMap_append, List.filterMap_map]
  congr 1
  exact List.filterMap_some

theorem InOrder.conclude {call : List Wave × Result WorkflowOutcome}
    (h : Accounts s.members s.made call.1 call.2)
    (hused : ∀ prior ∈ s.waiting, prior.waitingDecisionId.getD "" ∈ s.reported) :
    (s.conclude call).InOrder := by
  have hmembers : (s.conclude call).members = s.members ++ membersOf call.1 := by
    unfold members
    rw [conclude_log, List.flatMap_append, flatMap_members_wave]
  have hmade : (s.conclude call).made = s.made ++ madeOf (membersOf call.1) := by
    unfold made
    rw [conclude_log, List.flatMap_append, flatMap_made_wave]
  obtain ⟨waves, result⟩ := call
  refine ⟨hmembers ▸ h.once, ?_, ?_⟩ <;> rw [hmade]
  · intro o ho
    cases result with
    | error error => cases ho
    | ok outcome =>
      obtain rfl := Option.some.inj ho
      exact h.receipts _ rfl
  · rw [hmembers]
    intro prior hprior hnew
    cases result with
    | error error => exact absurd (hused prior hprior) hnew
    | ok outcome =>
      have hprior : prior ∈ if outcome.status = .waiting then some outcome else s.waiting := hprior
      split at hprior
      · next hstatus =>
        obtain rfl := Option.some.inj hprior
        exact ⟨h.receipts _ rfl, h.suspended _ rfl hstatus⟩
      · exact absurd (hused prior hprior) hnew

theorem InOrder.start (hnodup : workflow.ids.Nodup) {answers : Answers}
    (horder : ∀ wave ∈ (Session.start economic workflow answers).waves, wave.Orderly) :
    (Session.start economic workflow answers).InOrder := by
  unfold Session.start at horder ⊢
  rw [waves_conclude] at horder
  have hempty : Tracks [] [] ⟨∅, []⟩ := ⟨rfl, List.Pairwise.nil, nofun⟩
  exact .conclude (executeWorkflow_accounts hnodup hempty horder) nofun

/-- A resumption does nothing, raises before anything is recorded, or records the outcome and goes
on from it. -/
theorem resume_cases (s : Session) (economic : Bool) (workflow : WorkflowRequest)
    (r : Resumption) :
    s.resume economic workflow r = s ∨ s.resume economic workflow r = { s with last := none } ∨
    ∃ prior, s.waiting = some prior ∧ prior.waitingStepId = some r.stepId ∧
      prior.waitingDecisionId.getD "" ∉ s.reported ∧
      s.resume economic workflow r = Session.conclude
        { s with
          reported := prior.waitingDecisionId.getD "" :: s.reported
          log := s.log ++ [.reported r.terminal] }
        (executeWorkflow economic workflow r.answers
          ⟨prior.stepOutputs.insert r.stepId r.output, prior.receipts ++ [r.terminal]⟩) := by
  unfold resume
  split
  · exact .inl rfl
  · next prior hwaiting =>
    split
    · exact .inr (.inl rfl)
    · next decisionId hcheck =>
      simp only [Resumption.check, bind_ok, raiseIf_ok, require_ok, pure_ok, exists_const, not_or,
        ne_eq, not_not] at hcheck
      obtain ⟨⟨-, -, hstep⟩, -, -, -, -, -, -, hnew, rfl⟩ := hcheck
      exact .inr (.inr ⟨prior, hwaiting, hstep, hnew, rfl⟩)

theorem InOrder.resume (hnodup : workflow.ids.Nodup) (hs : s.InOrder) {r : Resumption}
    (horder : ∀ wave ∈ (s.resume economic workflow r).waves, wave.Orderly) :
    (s.resume economic workflow r).InOrder := by
  obtain heq | heq | ⟨prior, hwaiting, hstep, hnew, heq⟩ := resume_cases s economic workflow r
  · rw [heq]
    exact hs
  · rw [heq]
    exact ⟨hs.once, nofun, hs.waiting⟩
  · rw [heq, waves_conclude] at horder
    rw [heq]
    obtain ⟨hreceipts, stepId, hid, hdone⟩ := hs.waiting prior hwaiting hnew
    obtain rfl : r.stepId = stepId := Option.some.inj (hstep.symm.trans hid)
    have hmembers : ∀ t : Session, t.log = s.log ++ [.reported r.terminal] →
        t.members = s.members := by
      intro t ht
      rw [members, ht, List.flatMap_append]
      exact List.append_nil _
    have hmade : ∀ t : Session, t.log = s.log ++ [.reported r.terminal] →
        t.made = s.made ++ [r.terminal] := by
      intro t ht
      rw [made, ht, List.flatMap_append]
      rfl
    refine .conclude ?_ fun p hp => ?_
    · rw [hmembers _ rfl, hmade _ rfl]
      refine executeWorkflow_accounts hnodup ⟨by rw [hreceipts], hs.once, ?_⟩
        fun wave hwave => horder wave (List.mem_append_right _ hwave)
      -- the step that waited has its output now
      intro m hm hinvoked
      rcases hdone m hm hinvoked with hout | hwaited | hfailed
      · exact .inl ((AList.mem_insert _).mpr (.inr hout))
      · exact .inl ((AList.mem_insert _).mpr (.inl hwaited))
      · exact .inr hfailed
    · obtain rfl : prior = p := Option.some.inj (hwaiting.symm.trans hp)
      exact List.mem_cons_self

theorem waves_resume (r : Resumption) :
    ∀ wave ∈ s.waves, wave ∈ (s.resume economic workflow r).waves := by
  intro wave hwave
  obtain heq | heq | ⟨prior, -, -, -, heq⟩ := resume_cases s economic workflow r
  · rw [heq]
    exact hwave
  · rw [heq]
    exact hwave
  · rw [heq, waves_conclude, waves, List.filterMap_append]
    exact List.mem_append_left _ (List.mem_append_left _ hwave)

theorem InOrder.run (hnodup : workflow.ids.Nodup) {enabled requirePrepared : Bool}
    {answers : Answers} (resumptions : List Resumption)
    (horder : ∀ wave ∈ (session enabled requirePrepared workflow answers resumptions).waves,
      wave.Orderly) :
    (session enabled requirePrepared workflow answers resumptions).InOrder := by
  have hstep : ∀ (s : Session) (r : Resumption), ((∀ wave ∈ s.waves, wave.Orderly) → s.InOrder) →
      (∀ wave ∈ (s.resume enabled workflow r).waves, wave.Orderly) →
      (s.resume enabled workflow r).InOrder := fun s r hs horder =>
    (hs fun wave hwave => horder wave (waves_resume r wave hwave)).resume hnodup horder
  exact run_invariant hstep resumptions (InOrder.start hnodup) horder

end Session

/-! ## Exactly once -/

theorem independentReceipts_of_nodup {receipts : List Receipt}
    (h : (receipts.map (·.receiptId)).Nodup) :
    independentReceipts receipts = receipts.filter fun receipt =>
      receipt.receiptId ∉ receipts.flatMap fun other =>
        other.componentReceiptIds.filter (· ≠ other.receiptId) := by
  have hitems : ((receipts.map (·.receiptId)).reverse.dedup.reverse.filterMap fun receiptId =>
      receipts.reverse.find? (·.receiptId = receiptId)) = receipts := by
    rw [List.Nodup.dedup (List.nodup_reverse.mpr h), List.reverse_reverse, List.filterMap_map]
    conv_rhs => rw [← List.filterMap_some (l := receipts)]
    refine List.filterMap_congr fun receipt hmem => ?_
    cases hfind : receipts.reverse.find? (·.receiptId = receipt.receiptId) with
    | none => exact absurd (List.find?_eq_none.mp hfind receipt (by simpa using hmem)) (by simp)
    | some other =>
      have hother : other ∈ receipts := by simpa using List.mem_of_find?_eq_some hfind
      have hid : other.receiptId = receipt.receiptId := by simpa using List.find?_some hfind
      simp [hfind, List.inj_on_of_nodup_map h hother hmem hid]
  unfold independentReceipts
  rw [hitems]

theorem Session.InOrder.exactlyOnce {s : Session} (hs : s.InOrder) : s.ExactlyOnce where
  invoked := hs.once
  receipts o ho hnodup r hr := by
    rw [hs.last o ho]
    exact List.count_eq_one_of_mem hnodup.of_map hr
  accounted o ho hnodup r hr hcomponents := by
    rw [WorkflowOutcome.accounted, hs.last o ho, independentReceipts_of_nodup hnodup]
    refine List.count_eq_one_of_mem (hnodup.of_map.filter _) (List.mem_filter.mpr ⟨hr, ?_⟩)
    simp only [decide_eq_true_eq, List.mem_flatMap, List.mem_filter, not_exists, not_and]
    intro other hother hcomponent
    obtain rfl := hcomponents other hother hcomponent
    simp

/-- Whatever the router and the executors answer: if every wave run is orderly, no step of a valid
workflow is invoked twice unless it had failed, and what a call returns has the receipt of every
invocation exactly once. -/
theorem exactly_once (workflow : WorkflowRequest) (hvalid : workflow.validate = .ok ())
    (enabled requirePrepared : Bool) (answers : Answers) (resumptions : List Resumption)
    (horder : ∀ wave ∈ (session enabled requirePrepared workflow answers resumptions).waves,
      wave.Orderly) :
    (session enabled requirePrepared workflow answers resumptions).ExactlyOnce :=
  (Session.InOrder.run (WorkflowRequest.validate_ok hvalid).nodup resumptions horder).exactlyOnce

def StepCall.of (status : ExecutionStatus) (receiptId : String) : StepCall where
  invoked := true
  made := [⟨receiptId, [], ""⟩]
  result := .returned ⟨true, status, .null, receiptId, [⟨receiptId, [], ""⟩]⟩
  made_invoked _ := rfl

/-- A round of steps that may run side by side, given the calls by the names of the steps. -/
def Round.of (calls : List (String × StepCall)) : Round where
  admission := .admitted fun _ => false
  call step _ := (calls.lookup step.stepId).getD (.of .success step.stepId)

def twoSteps : WorkflowRequest where
  workflowId := "pair"
  steps := [{ stepId := "a", action := ⟨"note@1", .obj []⟩ },
    { stepId := "b", action := ⟨"note@1", .obj []⟩ }]

theorem exactly_once_of_last_waiting :
    (session false false twoSteps
      ⟨.ok (), [.of [("b", .of .delegated "waiting")]]⟩
      [⟨"b", .null, .ok (), ⟨"done", [], ""⟩, ⟨.ok (), []⟩⟩]).ExactlyOnce :=
  exactly_once twoSteps (by decide +kernel) false false _ _ (by decide +kernel)

/-- The first of two steps is delegated; the second runs beside it, its outcome is dropped, and the
resumption runs it again. -/
theorem delegated_wave_repeated :
    twoSteps.validate = .ok () ∧
    ¬ (session false false twoSteps
      ⟨.ok (), [.of [("a", .of .delegated "waiting"), ("b", .of .success "first")]]⟩
      [⟨"a", .null, .ok (), ⟨"done", [], ""⟩,
        ⟨.ok (), [.of [("b", .of .success "second")]]⟩⟩]).ExactlyOnce := by
  refine ⟨by decide +kernel, fun h => ?_⟩
  have honce := h.invoked
  revert honce
  decide +kernel

end AeepRouter.Workflow

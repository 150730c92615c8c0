import AeepRouter.Stack.Runs

/-!
# No node is replayed

Seen from one proposal, the system is a row, the phases of the calls, the reported decisions and the
log; `Moves` says what one step does to them. At most one call at a time is between its claim and
the end of its work, and a copy that was up to date at the claim stays so on the nodes that are
still to come, since only that call writes them. Hence the attempts in the row are the dispatches
that were made, node by node.
-/

namespace AeepRouter.Stack

open Lib

/-! ## Counting -/

section Counting

/-- The dispatches of the whole stack. -/
def dispatches (log : List LogEntry) : ℕ :=
  log.countP fun e => match e with
    | .dispatched _ _ => true
    | .completed _ => false

@[simp] theorem dispatches_dispatched (nodeId : String) (found : Option NodeState)
    (log : List LogEntry) : dispatches (.dispatched nodeId found :: log) = dispatches log + 1 :=
  List.countP_cons_of_pos rfl

@[simp] theorem dispatches_completed (nodeId : String) (log : List LogEntry) :
    dispatches (.completed nodeId :: log) = dispatches log := List.countP_cons_of_neg (by simp)

def dispatchesOf (nodeId : String) (log : List LogEntry) : ℕ :=
  log.countP fun e => match e with
    | .dispatched n _ => n = nodeId
    | .completed _ => false

def completionsOf (nodeId : String) (log : List LogEntry) : ℕ := log.count (.completed nodeId)

/-- A dispatch finds the node without a record, or allowed a retry. -/
def LogEntry.Fresh : LogEntry → Prop
  | .dispatched _ found => found ∉ [some .started, some .waiting, some .uncertain, some .complete]
  | .completed _ => True

instance (e : LogEntry) : Decidable e.Fresh := by
  induction e using LogEntry.casesOn <;> unfold LogEntry.Fresh <;> infer_instance

/-- The limits are kept and no node is dispatched or completed a second time. -/
structure Safe (limits : StackLimits) (log : List LogEntry) : Prop where
  total : dispatches log ≤ limits.maxAttempts
  retries : ∀ nodeId, dispatchesOf nodeId log ≤ 1 + limits.retryReserve
  fresh : ∀ e ∈ log, e.Fresh
  once : ∀ nodeId, completionsOf nodeId log ≤ 1

/-- The log agrees with the attempts of a row and the records of its nodes. -/
structure Ledger (limits : StackLimits) (log : List LogEntry) (attempts : ℕ)
    (progress : Progress) : Prop where
  spent : dispatches log = attempts
  allowed : attempts ≤ limits.maxAttempts
  counted : ∀ nodeId, dispatchesOf nodeId log = attemptsOf progress nodeId
  retried : ∀ nodeId, attemptsOf progress nodeId ≤ 1 + limits.retryReserve
  fresh : ∀ e ∈ log, e.Fresh
  completed : ∀ nodeId, completionsOf nodeId log =
    if stateOf progress nodeId = some .complete then 1 else 0

variable {limits : StackLimits} {log : List LogEntry} {attempts : ℕ} {progress : Progress}
  {nodeId : String} {record : NodeRecord}

namespace Ledger

theorem safe (h : Ledger limits log attempts progress) : Safe limits log where
  total := h.spent.trans_le h.allowed
  retries nodeId := (h.counted nodeId).trans_le (h.retried nodeId)
  fresh := h.fresh
  once nodeId := by
    rw [h.completed]
    split <;> omega

theorem empty : Ledger limits [] 0 ∅ where
  spent := rfl
  allowed := Nat.zero_le _
  counted _ := rfl
  retried _ := Nat.zero_le _
  fresh := by simp
  completed _ := rfl

theorem dispatch (h : Ledger limits log attempts progress)
    (hallowed : attempts < limits.maxAttempts)
    (hfresh : (LogEntry.dispatched nodeId (stateOf progress nodeId)).Fresh)
    (hretry : attemptsOf progress nodeId ≤ limits.retryReserve) (hstate : record.state = .started)
    (hattempts : record.attempts = attemptsOf progress nodeId + 1) :
    Ledger limits (.dispatched nodeId (stateOf progress nodeId) :: log) (attempts + 1)
      (progress.insert nodeId record) where
  spent := by
    rw [dispatches_dispatched, h.spent]
  allowed := hallowed
  counted m := by
    have := h.counted m
    unfold dispatchesOf at this ⊢
    rw [List.countP_cons, this, attemptsOf_insert, hattempts]
    by_cases hm : m = nodeId
    · simp [hm]
    · simp [hm, Ne.symm hm]
  retried m := by
    have := h.retried m
    rw [attemptsOf_insert, hattempts]
    split <;> omega
  fresh := List.forall_mem_cons.mpr ⟨hfresh, h.fresh⟩
  completed m := by
    have hm := h.completed m
    unfold completionsOf at hm ⊢
    rw [List.count_cons_of_ne (by simp), hm, stateOf_insert, hstate]
    by_cases heq : m = nodeId
    · subst heq
      have hnot : stateOf progress m ≠ some .complete := by
        rintro hc
        simp [LogEntry.Fresh, hc] at hfresh
      simp [hnot]
    · simp [heq]

theorem rewrite (h : Ledger limits log attempts progress)
    (hbefore : stateOf progress nodeId ≠ some .complete) (hafter : record.state ≠ .complete)
    (hattempts : record.attempts = attemptsOf progress nodeId) :
    Ledger limits log attempts (progress.insert nodeId record) where
  spent := h.spent
  allowed := h.allowed
  counted m := by
    rw [h.counted, attemptsOf_insert, hattempts]
    split
    · next hm => rw [hm]
    · rfl
  retried m := by
    rw [attemptsOf_insert, hattempts]
    split
    · exact h.retried nodeId
    · exact h.retried m
  fresh := h.fresh
  completed m := by
    rw [h.completed, stateOf_insert]
    by_cases hm : m = nodeId
    · subst hm
      simp [hbefore, hafter]
    · simp [hm]

theorem complete (h : Ledger limits log attempts progress)
    (hbefore : stateOf progress nodeId ≠ some .complete) (hafter : record.state = .complete)
    (hattempts : record.attempts = attemptsOf progress nodeId) :
    Ledger limits (.completed nodeId :: log) attempts (progress.insert nodeId record) where
  spent := by
    rw [dispatches_completed, h.spent]
  allowed := h.allowed
  counted m := by
    have hm := h.counted m
    unfold dispatchesOf at hm ⊢
    rw [List.countP_cons_of_neg (by simp), hm, attemptsOf_insert, hattempts]
    split
    · next hm => rw [hm]
    · rfl
  retried m := by
    rw [attemptsOf_insert, hattempts]
    split
    · exact h.retried nodeId
    · exact h.retried m
  fresh := List.forall_mem_cons.mpr ⟨trivial, h.fresh⟩
  completed m := by
    have hm := h.completed m
    unfold completionsOf at hm ⊢
    rw [List.count_cons, hm, stateOf_insert, hafter]
    by_cases heq : m = nodeId
    · subst heq
      simp [hbefore]
    · simp [heq, Ne.symm heq]

end Ledger

end Counting

/-! ## The condition -/

/-- The copy of a call is up to date on a node, if it may still be dispatched or resumed. -/
def Current (limits : StackLimits) (prior progress : Progress) (nodeId : String) : Prop :=
  ∀ record ∈ progress.lookup nodeId, record.state ∈ [.waiting, .retryable] →
    prior.lookup nodeId = some record ∨ limits.retryReserve < record.attempts

instance (limits : StackLimits) (prior progress : Progress) :
    Decidable (∀ nodeId, Current limits prior progress nodeId) :=
  decidable_of_iff (∀ e ∈ progress.entries, e.2.state ∈ [.waiting, .retryable] →
      prior.lookup e.1 = some e.2 ∨ limits.retryReserve < e.2.attempts) <| by
    constructor
    · intro h nodeId record hrecord
      exact h ⟨nodeId, record⟩ (AList.mem_lookup_iff.mp hrecord)
    · rintro h ⟨nodeId, record⟩ he
      exact h nodeId record (AList.mem_lookup_iff.mpr he)

/-- A claim is made with an up-to-date copy, and a recovery when no call is still to settle the
node. -/
def Orderly (proposal : Proposal) (s : System) : StackEvent → Prop
  | .claim call _ =>
    match s.phase call with
    | .checked prior _ => ∀ nodeId, Current proposal.goal.limits prior (s.progress proposal) nodeId
    | _ => True
  | .reconcile recovery _ _ => ∀ e ∈ s.calls.entries, e.2.pending ≠ some recovery.nodeId
  | _ => True

instance (proposal : Proposal) (s : System) (event : StackEvent) :
    Decidable (Orderly proposal s event) := by
  unfold Orderly
  split
  · split <;> infer_instance
  · infer_instance
  · infer_instance

/-! ## The view of one proposal -/

/-- What concerns one proposal. -/
structure View where
  row : Option StackRun
  phase : ℕ → Phase
  reported : List String
  log : List LogEntry

namespace View

def progress (v : View) : Progress := v.row.elim ∅ (·.progress)

def put (v : View) (call : ℕ) (phase : Phase) : View :=
  { v with phase := Function.update v.phase call phase }

end View

def System.view (proposal : Proposal) (s : System) : View :=
  ⟨s.row proposal, s.phase, s.reported, s.log⟩

/-- What one step does; `orderly` says that it meets the condition. -/
inductive Moves (orderly : Prop) (limits : StackLimits) (v : View) : View → Prop where
  | skip : Moves orderly limits v v
  | report (decisionId : String) :
    Moves orderly limits v { v with reported := decisionId :: v.reported }
  | stop (call : ℕ) : Moves orderly limits v (v.put call .stopped)
  | check (call : ℕ) (inputDigest : String) (hidle : v.phase call = .idle) :
    Moves orderly limits v (v.put call (.checked v.progress inputDigest))
  | first (call : ℕ) (prior : Progress) (inputDigest : String) (deadline : Int)
    (steps : List String) (hphase : v.phase call = .checked prior inputDigest)
    (hrow : v.row = none) (hsteps : steps.Nodup) :
    Moves orderly limits v { v.put call (.proceed prior steps) with
      row := some ⟨inputDigest, .running, 0, deadline, ∅⟩ }
  | again (call : ℕ) (prior : Progress) (inputDigest : String) (row : StackRun)
    (steps : List String) (hphase : v.phase call = .checked prior inputDigest)
    (hrow : v.row = some row) (hstate : row.state ∉ [.running, .uncertain, .superseded])
    (hcurrent : orderly → ∀ nodeId, Current limits prior row.progress nodeId)
    (hsteps : steps.Nodup) :
    Moves orderly limits v { v.put call (.proceed prior steps) with
      row := some (row.setState .running) }
  | refuse (call : ℕ) (prior : Progress) (nodeId : String) (rest : List String)
    (hphase : v.phase call = .between prior nodeId rest) :
    Moves orderly limits v (v.put call (.closing .paused))
  | dispatch (call : ℕ) (prior : Progress) (nodeId : String) (rest : List String) (row : StackRun)
    (hphase : v.phase call = .between prior nodeId rest)
    (hnew : stateOf prior nodeId ≠ some .waiting) (hrow : v.row = some row)
    (hrunning : row.state = .running) (hallowed : row.attempts < limits.maxAttempts)
    (hstate : stateOf row.progress nodeId ∉ [some .started, some .uncertain, some .complete])
    (hretry : attemptsOf row.progress nodeId ≤ limits.retryReserve) :
    Moves orderly limits v { v.put call (.awaiting prior nodeId rest) with
      row := some { row with
        attempts := row.attempts + 1
        progress := row.progress.insert nodeId (dispatchRecord row.progress nodeId) }
      log := .dispatched nodeId (stateOf row.progress nodeId) :: v.log }
  | reenter (call : ℕ) (prior : Progress) (nodeId : String) (rest : List String)
    (hphase : v.phase call = .between prior nodeId rest)
    (hwaiting : stateOf prior nodeId = some .waiting) :
    Moves orderly limits v (v.put call (.awaiting prior nodeId rest))
  | answer (call : ℕ) (prior : Progress) (nodeId : String) (rest : List String) (write : Write)
    (hphase : v.phase call = .awaiting prior nodeId rest)
    (hnew : stateOf prior nodeId ≠ some .waiting) :
    Moves orderly limits v (v.put call (.returned prior nodeId rest write))
  | resume (call : ℕ) (prior : Progress) (nodeId : String) (rest : List String)
    (decisionId outputDigest : String) (receiptIds : List String)
    (hphase : v.phase call = .awaiting prior nodeId rest)
    (hdecision : (prior.lookup nodeId).bind (·.decisionId) = some decisionId)
    (hnew : decisionId ∉ v.reported) :
    Moves orderly limits v
      { v.put call (.returned prior nodeId rest (.complete outputDigest receiptIds)) with
        reported := decisionId :: v.reported }
  | fail (call : ℕ) (nodeId : String) (reported : List String)
    (hphase : (v.phase call).pending = some nodeId) (hreported : v.reported ⊆ reported) :
    Moves orderly limits v { v.put call (.closing .uncertain) with reported }
  | suspend (call : ℕ) (prior : Progress) (nodeId : String) (rest : List String)
    (decisionId : Option String) (workflowHash : String) (row : StackRun) (record : NodeRecord)
    (hphase : v.phase call = .returned prior nodeId rest (.suspend decisionId workflowHash))
    (hrow : v.row = some row) (hstate : record.state = .waiting)
    (hattempts : record.attempts = nodeAttempt prior nodeId) :
    Moves orderly limits v { v.put call .stopped with
      row := some { row with state := .waiting, progress := row.progress.insert nodeId record } }
  | allowRetry (call : ℕ) (prior : Progress) (nodeId : String) (rest : List String)
    (failedReceipts : List String) (row : StackRun) (record : NodeRecord)
    (hphase : v.phase call = .returned prior nodeId rest (.allowRetry failedReceipts))
    (hrow : v.row = some row) (hstate : record.state = .retryable)
    (hattempts : record.attempts = nodeAttempt prior nodeId) :
    Moves orderly limits v { v.put call (.closing .paused) with
      row := some { row with progress := row.progress.insert nodeId record } }
  | complete (call : ℕ) (prior : Progress) (nodeId : String) (rest : List String)
    (outputDigest : String) (receiptIds : List String) (row : StackRun)
    (previous record : NodeRecord)
    (hphase : v.phase call = .returned prior nodeId rest (.complete outputDigest receiptIds))
    (hrow : v.row = some row) (hprevious : row.progress.lookup nodeId = some previous)
    (hstate : record.state = .complete) (hattempts : record.attempts = previous.attempts) :
    Moves orderly limits v { v.put call (.proceed prior rest) with
      row := some { row with progress := row.progress.insert nodeId record }
      log := .completed nodeId :: v.log }
  | close (call : ℕ) (state : RunState) (hphase : v.phase call = .closing state) :
    Moves orderly limits v { v.put call .stopped with row := v.row.map (·.setState state) }
  | reconcile (nodeId : String) (row : StackRun) (previous record : NodeRecord)
    (hrow : v.row = some row) (hrunning : row.state ∈ [.running, .uncertain])
    (hprevious : row.progress.lookup nodeId = some previous) (hstarted : previous.state = .started)
    (hidle : orderly → ∀ call, (v.phase call).pending ≠ some nodeId)
    (hstate : record.state = .complete) (hattempts : record.attempts = previous.attempts) :
    Moves orderly limits v { v with
      row := some { row with state := .paused, progress := row.progress.insert nodeId record }
      log := .completed nodeId :: v.log }

section Views

variable {proposal : Proposal} {s : System}

theorem phase_put (call : ℕ) (phase : Phase) :
    (s.put call phase).phase = Function.update s.phase call phase := by
  funext c
  show (AList.lookup c (s.calls.insert call phase)).getD .idle = _
  by_cases h : c = call
  · subst h
    rw [AList.lookup_insert, Function.update_self]
    rfl
  · rw [AList.lookup_insert_ne h, Function.update_of_ne h]
    rfl

theorem view_put (call : ℕ) (phase : Phase) :
    (s.put call phase).view proposal = (s.view proposal).put call phase := by
  unfold System.view View.put
  rw [phase_put]
  rfl

variable (proposal s) in
theorem view_runs (row : StackRun) :
    ({ s with runs := s.runs.insert proposal.proposalId row } : System).view proposal =
      { s.view proposal with row := some row } := by
  unfold System.view System.row
  rw [AList.lookup_insert]
  rfl

theorem progress_of_row {row : StackRun} (h : s.row proposal = some row) :
    s.progress proposal = row.progress := by
  unfold System.progress
  rw [h]
  rfl

theorem Proposal.nodup_steps {steps : List String} (h : proposal.steps = .ok steps) :
    steps.Nodup := by
  simp only [Proposal.steps, bind_ok, pure_ok, raiseIf_ok, exists_const] at h
  obtain ⟨-, -, hnodup, rfl⟩ := h
  exact not_not.mp hnodup

section Step

variable {runtime : StackRuntime}

theorem moves_claim (call : ℕ) (now : Int) :
    Moves (Orderly proposal s (.claim call now)) proposal.goal.limits (s.view proposal)
      ((s.step runtime proposal (.claim call now)).view proposal) := by
  unfold System.step
  dsimp only
  split
  · next prior inputDigest steps hphase hsteps =>
    cases hclaim : claim s.runs proposal inputDigest now with
    | error e =>
      rw [view_put]
      exact .stop call
    | ok runs =>
      obtain ⟨hrow, -, rfl⟩ | ⟨row, hrow, -, hstate, -, rfl⟩ := claim_ok hclaim
      · rw [view_put, view_runs]
        exact .first call prior inputDigest _ steps hphase hrow (Proposal.nodup_steps hsteps)
      · rw [view_put, view_runs]
        refine .again call prior inputDigest row steps hphase hrow hstate ?_
          (Proposal.nodup_steps hsteps)
        intro horderly
        simp only [Orderly, hphase] at horderly
        rwa [progress_of_row hrow] at horderly
  · exact .skip

theorem moves_dispatch {orderly : Prop} (call : ℕ) (now : Int) :
    Moves orderly proposal.goal.limits (s.view proposal)
      ((s.step runtime proposal (.dispatch call now)).view proposal) := by
  unfold System.step
  dsimp only
  split
  · next prior nodeId rest hphase =>
    by_cases hwaiting : stateOf prior nodeId = some .waiting
    · rw [if_pos hwaiting, view_put]
      exact .reenter call prior nodeId rest hphase hwaiting
    · rw [if_neg hwaiting]
      cases hreserve : reserve s.runs proposal nodeId now with
      | error e =>
        rw [view_put]
        exact .refuse call prior nodeId rest hphase
      | ok runs =>
        obtain ⟨row, hrow, hrunning, hallowed, hstate, hretry, rfl⟩ := reserve_ok hreserve
        have hview := view_runs proposal
          { s with log := .dispatched nodeId (stateOf row.progress nodeId) :: s.log }
        rw [progress_of_row hrow, view_put, hview]
        exact .dispatch call prior nodeId rest row hphase hwaiting hrow hrunning hallowed hstate
          hretry
  · exact .skip

theorem moves_answer {orderly : Prop} (call : ℕ) (result : NodeResult) :
    Moves orderly proposal.goal.limits (s.view proposal)
      ((s.step runtime proposal (.answer call result)).view proposal) := by
  unfold System.step
  dsimp only
  split
  · next prior nodeId rest hphase =>
    have hpending : (s.phase call).pending = some nodeId := by rw [hphase, Phase.pending]
    have hfail : Moves orderly proposal.goal.limits (s.view proposal)
        ((s.view proposal).put call (.closing .uncertain)) :=
      .fail call nodeId s.reported hpending (List.Subset.refl _)
    by_cases hwaiting : stateOf prior nodeId = some .waiting
    · rw [if_pos hwaiting]
      unfold System.resume
      split
      · split
        · next decision hdecision =>
          by_cases hreported : decision ∈ s.reported
          · rw [if_pos hreported, view_put]
            exact hfail
          · rw [if_neg hreported, view_put]
            unfold settle
            dsimp only
            split
            · exact .resume call prior nodeId rest decision _ _ hphase hdecision hreported
            · exact .fail call nodeId (decision :: s.reported) hpending (List.subset_cons_self _ _)
        · rw [view_put]
          exact hfail
      · rw [view_put]
        exact hfail
    · rw [if_neg hwaiting, view_put]
      cases result with
      | waiting decisionId workflowHash => exact .answer call prior nodeId rest _ hphase hwaiting
      | failed receipts =>
        unfold settle
        dsimp only
        split
        · exact .answer call prior nodeId rest _ hphase hwaiting
        · exact hfail
      | success output receipts =>
        unfold settle
        dsimp only
        split
        · exact .answer call prior nodeId rest _ hphase hwaiting
        · exact hfail
      | raised => exact hfail
  · exact .skip

theorem moves_record {orderly : Prop} (call : ℕ) :
    Moves orderly proposal.goal.limits (s.view proposal)
      ((s.step runtime proposal (.record call)).view proposal) := by
  unfold System.step
  dsimp only
  split
  · next prior nodeId rest write hphase =>
    have hpending : (s.phase call).pending = some nodeId := by rw [hphase, Phase.pending]
    have hfail : Moves orderly proposal.goal.limits (s.view proposal)
        ((s.view proposal).put call (.closing .uncertain)) :=
      .fail call nodeId s.reported hpending (List.Subset.refl _)
    cases write with
    | suspend decisionId workflowHash =>
      unfold System.write
      dsimp only
      split
      · next runs hruns =>
        obtain ⟨row, previous, hrow, -, rfl⟩ := rewrite_eq_some hruns
        rw [view_put, view_runs]
        exact .suspend call prior nodeId rest decisionId workflowHash row _ hphase hrow rfl rfl
      · rw [view_put]
        exact hfail
    | allowRetry failedReceipts =>
      unfold System.write
      dsimp only
      split
      · next runs hruns =>
        obtain ⟨row, previous, hrow, -, rfl⟩ := rewrite_eq_some hruns
        rw [view_put, view_runs]
        exact .allowRetry call prior nodeId rest failedReceipts row _ hphase hrow rfl rfl
      · rw [view_put]
        exact hfail
    | complete outputDigest receiptIds =>
      unfold System.write
      dsimp only
      split
      · next runs hruns =>
        obtain ⟨row, previous, hrow, hprevious, rfl⟩ := rewrite_eq_some hruns
        have hview := view_runs proposal
          { s with log := .completed nodeId :: s.log }
        rw [view_put, hview]
        exact .complete call prior nodeId rest outputDigest receiptIds row previous _ hphase hrow
          hprevious rfl rfl
      · rw [view_put]
        exact hfail
  · exact .skip

theorem moves_close {orderly : Prop} (call : ℕ) :
    Moves orderly proposal.goal.limits (s.view proposal)
      ((s.step runtime proposal (.close call)).view proposal) := by
  unfold System.step
  dsimp only
  split
  · next state hphase =>
    have hrow : ({ s with runs := setState s.runs proposal.proposalId state } : System).view
        proposal = { s.view proposal with row := (s.row proposal).map (·.setState state) } := by
      unfold setState
      split
      · next hrow =>
        unfold System.view System.row
        rw [hrow]
        rfl
      · next row hrow =>
        rw [view_runs]
        unfold System.row
        rw [hrow]
        rfl
    rw [view_put, hrow]
    exact .close call state hphase
  · exact .skip

theorem moves_reconcile (recovery : StackRecovery) (output : Json) (evidence : Evidence) :
    Moves (Orderly proposal s (.reconcile recovery output evidence)) proposal.goal.limits
      (s.view proposal)
      ((s.step runtime proposal (.reconcile recovery output evidence)).view proposal) := by
  unfold System.step
  dsimp only
  split
  · next runs hreconcile =>
    obtain ⟨row, previous, record, hrow, hrunning, hprevious, hstarted, hstate, hattempts, rfl⟩ :=
      StackRuntime.reconcile_ok hreconcile
    have hview := view_runs proposal
      { s with log := .completed recovery.nodeId :: s.log }
    rw [hview]
    refine .reconcile recovery.nodeId row previous record hrow hrunning hprevious hstarted ?_ hstate
      hattempts
    intro horderly call hpending
    unfold System.view System.phase at hpending
    cases hlookup : s.calls.lookup call with
    | none => simp [hlookup, Phase.pending] at hpending
    | some phase =>
      have hentry : (⟨call, phase⟩ : Σ _ : ℕ, Phase) ∈ s.calls.entries :=
        AList.mem_lookup_iff.mp hlookup
      refine horderly _ hentry ?_
      simpa [hlookup] using hpending
  · exact .skip

theorem step_moves (event : StackEvent) :
    Moves (Orderly proposal s event) proposal.goal.limits (s.view proposal)
      ((s.step runtime proposal event).view proposal) := by
  cases event with
  | start call request evidence =>
    unfold System.step
    dsimp only
    split
    · next hphase _ =>
      rw [view_put]
      exact .check call request.inputDigest hphase
    · exact .skip
  | claim call now => exact moves_claim call now
  | refuse call =>
    unfold System.step
    dsimp only
    split
    · next hphase =>
      rw [view_put]
      exact .refuse call _ _ _ hphase
    · exact .skip
  | dispatch call now => exact moves_dispatch call now
  | answer call result => exact moves_answer call result
  | record call => exact moves_record call
  | close call => exact moves_close call
  | crash call =>
    unfold System.step
    dsimp only
    rw [view_put]
    exact .stop call
  | report decisionId => exact .report decisionId
  | reconcile recovery output evidence =>
    exact moves_reconcile recovery output evidence

end Step

end Views

end AeepRouter.Stack

import AeepRouter.Assessment.Admissions

/-!
# Assessment jobs and their workers

A plan has one job, which one worker claims. Cancelling a job, or taking its worker as dead, stops
it; the worker finds out at the next trial, and the campaign ends with the error. What the worker
then writes is not guarded: `run` completes the job whatever its state.

`Campaigns` keeps the claims, the trials, the stops and the admissions beside the rows. In the runs
whose completions find their job running, and whose jobs are enqueued under one name of their plan,
a stopped job stays stopped.
-/

namespace AeepRouter.Jobs

open Lib Admission

/-- Where a worker stands in `run`. -/
inductive Phase where
  | starting
  | running
  | checked
  /-- The campaign has ended, with the error that ended it. -/
  | reporting (errorCode : Option String)
  | completing (errorCode : Option String) (reportId : String) (useful : Bool)
  | admitting (reportId : String)
  | ended
  deriving DecidableEq, Repr

/-- Whether the worker has claimed its job. -/
def Phase.claimed : Phase → Bool
  | starting | ended => false
  | _ => true

/-- Whether the worker has claimed its job, and not completed it. -/
def Phase.inCampaign : Phase → Bool
  | starting | admitting _ | ended => false
  | _ => true

/-- Whether the report of the worker is stored, and its job not completed. -/
def Phase.reported : Phase → Bool
  | completing .. => true
  | _ => false

structure Worker where
  id : ℕ
  assessmentId : String
  phase : Phase
  deriving DecidableEq, Repr

/-- What a worker did for a job: its claim, or a trial. -/
structure Work where
  worker : ℕ
  assessmentId : String
  deriving DecidableEq, Repr

def Worker.work (worker : Worker) : Work := ⟨worker.id, worker.assessmentId⟩

/-- An admission by a run, and whether its job had been stopped. -/
structure RunAdmission where
  assessmentId : String
  stopped : Bool
  deriving DecidableEq, Repr

/-- The jobs and their workers, with what has happened to them. -/
structure Campaigns where
  history : History
  workers : Table Worker (·.id)
  claims : List Work
  trials : List Work
  /-- The jobs that were cancelled or indeterminate. -/
  stopped : List String
  admitted : List RunAdmission

/-! ## Updates of a job -/

/-- How the state of a job moves as long as no stopped job is completed. -/
inductive Moves : JobState → JobState → Prop where
  | refl (state : JobState) : Moves state state
  | claim : Moves .queued .running
  | cancel_queued : Moves .queued .cancelled
  | cancel_running : Moves .running .cancelled
  | disappear : Moves .running .indeterminate
  | interrupt : Moves .cancelled .indeterminate
  | complete : Moves .running .complete

namespace Moves

variable {a b : JobState} (h : Moves a b)
include h

theorem ne_queued (ha : a ≠ .queued) : b ≠ .queued := by
  cases h <;> first | exact ha | nofun

theorem stopped (ha : a = .cancelled ∨ a = .indeterminate) :
    b = .cancelled ∨ b = .indeterminate := by
  cases h <;> first | exact ha | exact .inr rfl | (rcases ha with ha | ha <;> cases ha)

theorem of_complete (ha : a = .complete) : b = .complete := by
  cases h <;> first | exact ha | cases ha

end Moves

structure Change where
  toFun : JobRow → JobRow
  state : JobState → JobState
  id_eq : ∀ job, (toFun job).id = job.id
  planId_eq : ∀ job, (toFun job).planId = job.planId
  state_eq : ∀ job, (toFun job).state = state job.state

namespace Change

def rewrite (change : Change) : Table.Rewrite JobRow.key := ⟨change.toFun, change.id_eq⟩

/-- The claim of `run`, at an instant. -/
def claim (now : Int) : Change where
  toFun job := { job with state := .running, startedAt := some now }
  state _ := .running
  id_eq _ := rfl
  planId_eq _ := rfl
  state_eq _ := rfl

def cancel : Change where
  toFun job := { job with state := .cancelled }
  state _ := .cancelled
  id_eq _ := rfl
  planId_eq _ := rfl
  state_eq _ := rfl

/-- `mark_dead_worker`. -/
def disappear : Change where
  toFun := JobRow.disappeared
  state _ := .indeterminate
  id_eq _ := rfl
  planId_eq _ := rfl
  state_eq _ := rfl

/-- An exception of the campaign other than a `ConfigurationError`. -/
def interrupt : Change where
  toFun job := { job with state := .indeterminate, errorCode := some "interrupted" }
  state _ := .indeterminate
  id_eq _ := rfl
  planId_eq _ := rfl
  state_eq _ := rfl

def complete (reportId : String) (errorCode : Option String) : Change where
  toFun job := { job with
    state := .complete, reportId := some reportId, errorCode := errorCode }
  state _ := .complete
  id_eq _ := rfl
  planId_eq _ := rfl
  state_eq _ := rfl

def unadmitted : Change where
  toFun job := { job with errorCode := some "automatic_admission_unavailable" }
  state := id
  id_eq _ := rfl
  planId_eq _ := rfl
  state_eq _ := rfl

end Change

namespace Campaigns

variable (c : Campaigns)

def start (now : Int) : Campaigns := ⟨.start now, ∅, [], [], [], []⟩

abbrev store : AdmissionStore := c.history.store

abbrev jobs : Table JobRow JobRow.key := c.store.jobs

def stateOf (assessmentId : String) : Option JobState := (c.jobs.find? assessmentId).map (·.state)

/-- A statement `UPDATE assessment_jobs … WHERE id=?`. -/
def update (assessmentId : String) (change : Change) : Campaigns :=
  { c with history := c.history.step (.writeJobs (c.jobs.modify assessmentId change.rewrite)) }

/-- Remembers that a job was stopped. -/
def stop (assessmentId : String) : Campaigns :=
  { c with stopped := c.stopped ++ [assessmentId] }

def enter (worker : Worker) (phase : Phase) : Campaigns :=
  { c with workers := c.workers.modify worker.id ⟨fun w => { w with phase := phase }, fun _ => rfl⟩ }

/-! ## The calls -/

/-- `enqueue`, of a plan named by its id or its digest. `checks` is what the grant and the blocked
reasons of the plan say. -/
def enqueue (planId : String) (checks : Result Unit) (assessmentId : String) :
    Result (String × Campaigns) := do
  let _ ← demand (c.store.plan? planId) "unknown assessment plan"
  checks
  match (c.jobs.rows.filter (·.planId = planId)).getLast? with
  | some existing => pure (existing.id, c)
  | none => do
    raiseIf (c.jobs.find? assessmentId).isSome .integrity
    let job : JobRow := ⟨⟨assessmentId, planId, .queued⟩, none, none, none⟩
    pure (assessmentId, { c with history := c.history.step (.writeJobs (c.jobs.insert job)) })

def markDead (assessmentId : String) (alive : Option Bool) : Campaigns :=
  if c.store.takesDead assessmentId alive then
    { c with history := c.history.step (.markDeadWorker assessmentId alive) }.stop assessmentId
  else c

/-- `cancel`, with what the read of the status knows of the worker. -/
def cancel (assessmentId : String) (alive : Option Bool) : Campaigns :=
  let c := c.markDead assessmentId alive
  if c.stateOf assessmentId = some .queued ∨ c.stateOf assessmentId = some .running then
    (c.update assessmentId .cancel).stop assessmentId
  else c

/-- A call of `run`, up to the claim. -/
def begin (workerId : ℕ) (assessmentId : String) (alive : Option Bool) : Campaigns :=
  let c := c.markDead assessmentId alive
  if c.stateOf assessmentId = none ∨ c.stateOf assessmentId = some .complete then c
  else { c with workers := c.workers.insert ⟨workerId, assessmentId, .starting⟩ }

/-! ## A worker -/

/-- What a worker does next. -/
inductive Action where
  | claim
  | check (alive : Option Bool)
  | trial (alive : Option Bool)
  | block
  | finish (missingCostLineage : Bool)
  | interrupt
  | report (report : AssessmentReport) (useful : Bool)
  | complete
  | admitReport (automatic : Result Bool) (call : AdmitCall)
  | die

/-- The error of a campaign that a `ConfigurationError` ended. -/
def blocked : Option String := some "assessment_blocked_or_budget_exhausted"

def claim (worker : Worker) : Campaigns :=
  if c.stateOf worker.assessmentId = some .queued then
    { (c.update worker.assessmentId (.claim c.history.now)).enter worker .running with
      claims := c.claims ++ [worker.work] }
  else c.enter worker .ended

def check (worker : Worker) (alive : Option Bool) : Campaigns :=
  let c := c.markDead worker.assessmentId alive
  if c.stateOf worker.assessmentId = some .running then c.enter worker .checked
  else c.enter worker (.reporting blocked)

def trial (worker : Worker) (alive : Option Bool) : Campaigns :=
  let c := c.markDead worker.assessmentId alive
  if c.stateOf worker.assessmentId = some .running then
    { c.enter worker .running with trials := c.trials ++ [worker.work] }
  else c.enter worker (.reporting blocked)

def finish (worker : Worker) (missingCostLineage : Bool) : Campaigns :=
  c.enter worker
    (.reporting (if missingCostLineage then some "assessment_cost_lineage_unavailable" else none))

def interrupt (worker : Worker) : Campaigns :=
  ((c.enter worker .ended).update worker.assessmentId .interrupt).stop worker.assessmentId

def report (worker : Worker) (errorCode : Option String) (report : AssessmentReport)
    (useful : Bool) : Campaigns :=
  { c.enter worker (.completing errorCode report.reportId (useful && errorCode.isNone)) with
    history := c.history.step (.putReport report) }

def complete (worker : Worker) (errorCode : Option String) (reportId : String) (useful : Bool) :
    Campaigns :=
  let c := (c.enter worker .ended).update worker.assessmentId (.complete reportId errorCode)
  if useful then c.enter worker (.admitting reportId) else c

/-- The admission at the end of `run`, if the grant permits it. -/
def automaticAdmission (reportId : String) (automatic : Result Bool) (call : AdmitCall) :
    Result Bool := do
  if ← automatic then
    let _ ← Admission.admitReport { call with reportId := reportId } c.store
    pure true
  else pure false

def admitReport (worker : Worker) (reportId : String) (automatic : Result Bool)
    (call : AdmitCall) : Campaigns :=
  match c.automaticAdmission reportId automatic call with
  | .ok true =>
    { c.enter worker .ended with
      history := c.history.step (.admitReport { call with reportId := reportId })
      admitted := c.admitted ++
        [⟨worker.assessmentId, decide (worker.assessmentId ∈ c.stopped)⟩] }
  | .error (.configuration _) => (c.enter worker .ended).update worker.assessmentId .unadmitted
  | _ => c.enter worker .ended

def act (worker : Worker) (action : Action) : Campaigns :=
  match action with
  | .claim => if worker.phase = .starting then c.claim worker else c
  | .check alive => if worker.phase = .running then c.check worker alive else c
  | .trial alive => if worker.phase = .checked then c.trial worker alive else c
  | .block =>
    if worker.phase = .running ∨ worker.phase = .checked then c.enter worker (.reporting blocked)
    else c
  | .finish missingCostLineage =>
    if worker.phase = .running then c.finish worker missingCostLineage else c
  | .interrupt =>
    if worker.phase = .running ∨ worker.phase = .checked then c.interrupt worker else c
  | .report report useful =>
    match worker.phase with
    | .reporting errorCode => c.report worker errorCode report useful
    | _ => c
  | .complete =>
    match worker.phase with
    | .completing errorCode reportId useful => c.complete worker errorCode reportId useful
    | _ => c
  | .admitReport automatic call =>
    match worker.phase with
    | .admitting reportId => c.admitReport worker reportId automatic call
    | _ => c
  | .die => c.enter worker .ended

/-! ## Runs -/

inductive Event where
  | elapse (microseconds : ℕ)
  | putPlan (plan : AssessmentPlan)
  | enqueue (planId : String) (checks : Result Unit) (assessmentId : String)
  | cancel (assessmentId : String) (alive : Option Bool)
  | markDead (assessmentId : String) (alive : Option Bool)
  | begin (workerId : ℕ) (assessmentId : String) (alive : Option Bool)
  | act (workerId : ℕ) (action : Action)

def step : Event → Campaigns
  | .elapse microseconds => { c with history := c.history.step (.elapse microseconds) }
  | .putPlan plan => { c with history := c.history.step (.putPlan plan) }
  | .enqueue planId checks assessmentId => commit (c.enqueue planId checks assessmentId) c
  | .cancel assessmentId alive => c.cancel assessmentId alive
  | .markDead assessmentId alive => c.markDead assessmentId alive
  | .begin workerId assessmentId alive => c.begin workerId assessmentId alive
  | .act workerId action =>
    match c.workers.find? workerId with
    | some worker => c.act worker action
    | none => c

/-- The trials of a job are by one worker and a plan has one job; no job that was stopped is
complete, and no run admitted a report after its job was stopped. -/
structure Lawful : Prop where
  oneWorker : ∀ trial ∈ c.trials, ∀ other ∈ c.trials, trial.assessmentId = other.assessmentId →
    trial.worker = other.worker
  oneJob : ∀ job ∈ c.jobs, ∀ other ∈ c.jobs, ∀ plan, c.store.plan? job.planId = some plan →
    c.store.plan? other.planId = some plan → job = other
  stopped : ∀ assessmentId ∈ c.stopped, c.stateOf assessmentId ≠ some .complete
  admitted : ∀ admission ∈ c.admitted, ¬ admission.stopped

/-- A completion finds its job running, and a job is enqueued under the name its plan already has a
job under, if it has one. -/
def Undisturbed : Event → Prop
  | .act workerId .complete => ∀ worker ∈ c.workers.find? workerId, worker.phase.reported →
      c.stateOf worker.assessmentId = some .running
  | .enqueue planId checks _ => checks = .ok () → ∀ plan ∈ c.store.plan? planId,
      ∀ job ∈ c.jobs, c.store.plan? job.planId = some plan → job.planId = planId
  | _ => True

/-! ## The invariant -/

/-- What every event keeps. -/
structure Sound : Prop where
  oneJob : ∀ job ∈ c.jobs, ∀ other ∈ c.jobs, ∀ plan, c.store.plan? job.planId = some plan →
    c.store.plan? other.planId = some plan → job = other
  known : ∀ job ∈ c.jobs, (c.store.plan? job.planId).isSome
  claimed : ∀ claim ∈ c.claims, ∃ state, c.stateOf claim.assessmentId = some state ∧
    state ≠ .queued
  oneClaim : ∀ claim ∈ c.claims, ∀ other ∈ c.claims, claim.assessmentId = other.assessmentId →
    claim = other
  trials : ∀ trial ∈ c.trials, trial ∈ c.claims
  working : ∀ worker ∈ c.workers, worker.phase.claimed → worker.work ∈ c.claims
  campaign : ∀ worker ∈ c.workers, worker.phase.inCampaign →
    c.stateOf worker.assessmentId ≠ some .complete
  completed : ∀ worker ∈ c.workers, ∀ reportId, worker.phase = .admitting reportId →
    c.stateOf worker.assessmentId = some .complete
  stopped : ∀ assessmentId ∈ c.stopped, c.stateOf assessmentId = some .cancelled ∨
    c.stateOf assessmentId = some .indeterminate
  admitted : ∀ admission ∈ c.admitted, ¬ admission.stopped

variable {c}

theorem Sound.lawful (hs : c.Sound) : c.Lawful where
  oneWorker trial ht other ho hsame :=
    congrArg Work.worker (hs.oneClaim trial (hs.trials trial ht) other (hs.trials other ho) hsame)
  oneJob := hs.oneJob
  stopped assessmentId h := by
    rcases hs.stopped assessmentId h with h | h <;> rw [h] <;> nofun
  admitted := hs.admitted

theorem Sound.start (now : Int) : (Campaigns.start now).Sound where
  oneJob _ h := absurd h Table.not_mem_empty
  known _ h := absurd h Table.not_mem_empty
  claimed _ h := absurd h List.not_mem_nil
  oneClaim _ h := absurd h List.not_mem_nil
  trials _ h := absurd h List.not_mem_nil
  working _ h := absurd h Table.not_mem_empty
  campaign _ h := absurd h Table.not_mem_empty
  completed _ h := absurd h Table.not_mem_empty
  stopped _ h := absurd h List.not_mem_nil
  admitted _ h := absurd h List.not_mem_nil

/-! ## What each write keeps -/

theorem Sound.history (hs : c.Sound) {h : History} (hjobs : h.store.jobs = c.jobs)
    (hplans : ∀ identity plan, c.store.plan? identity = some plan →
      h.store.plan? identity = some plan) : Campaigns.Sound { c with history := h } := by
  have hstate : ∀ id, Campaigns.stateOf { c with history := h } id = c.stateOf id := by
    intro id
    show (h.store.jobs.find? id).map _ = _
    rw [hjobs]
    rfl
  have hplan : ∀ job ∈ c.jobs, ∀ plan, h.store.plan? job.planId = some plan →
      c.store.plan? job.planId = some plan := by
    intro job hjob plan hfound
    obtain ⟨old, hold⟩ := Option.isSome_iff_exists.mp (hs.known job hjob)
    rw [hplans _ _ hold] at hfound
    rw [hold, hfound]
  have hmem : ∀ job, job ∈ h.store.jobs → job ∈ c.jobs := fun job hjob => hjobs ▸ hjob
  refine ⟨?_, ?_, ?_, hs.oneClaim, hs.trials, hs.working, ?_, ?_, ?_, hs.admitted⟩
  · intro job hjob other hother plan hplan1 hplan2
    have hjob := hmem job hjob
    have hother := hmem other hother
    exact hs.oneJob job hjob other hother plan (hplan job hjob plan hplan1)
      (hplan other hother plan hplan2)
  · intro job hjob
    obtain ⟨plan, hplan⟩ := Option.isSome_iff_exists.mp (hs.known job (hmem job hjob))
    exact Option.isSome_iff_exists.mpr ⟨plan, hplans _ _ hplan⟩
  all_goals simp only [hstate]
  · exact hs.claimed
  · exact hs.campaign
  · exact hs.completed
  · exact hs.stopped

theorem stateOf_modify {h : History} {id : String} {change : Change}
    (hjobs : h.store.jobs = c.jobs.modify id change.rewrite) (k : String) :
    Campaigns.stateOf { c with history := h } k =
      if k = id then (c.stateOf k).map change.state else c.stateOf k := by
  show (h.store.jobs.find? k).map (fun job => job.state) = _
  rw [hjobs, Table.find?_modify]
  split
  next hk =>
    subst hk
    unfold Campaigns.stateOf
    cases c.jobs.find? k with
    | none => rfl
    | some job => exact congrArg some (change.state_eq job)
  next => rfl

theorem Sound.write (hs : c.Sound) {h : History} {id : String} {change : Change}
    (hjobs : h.store.jobs = c.jobs.modify id change.rewrite)
    (hplans : ∀ identity, h.store.plan? identity = c.store.plan? identity)
    (hmoves : ∀ state, c.stateOf id = some state → Moves state (change.state state))
    (hcomplete : ∀ worker ∈ c.workers, worker.assessmentId = id → worker.phase.inCampaign →
      ∀ state, c.stateOf id = some state → change.state state ≠ .complete) :
    Campaigns.Sound { c with history := h } := by
  have hstate := stateOf_modify hjobs
  -- a row of the new table, and the row it was
  have hmem : ∀ job ∈ h.store.jobs, ∃ old ∈ c.jobs, old.planId = job.planId ∧ old.id = job.id := by
    intro job hjob
    rw [hjobs] at hjob
    obtain ⟨old, hold, rfl⟩ := Table.mem_modify.mp hjob
    refine ⟨old, hold, ?_⟩
    split
    · exact ⟨(change.planId_eq old).symm, (change.id_eq old).symm⟩
    · exact ⟨rfl, rfl⟩
  refine ⟨?_, ?_, ?_, hs.oneClaim, hs.trials, hs.working, ?_, ?_, ?_, hs.admitted⟩
  · intro job hjob other hother plan hplan hplan'
    obtain ⟨old, hold, hpo, hio⟩ := hmem job hjob
    obtain ⟨old', hold', hpo', hio'⟩ := hmem other hother
    rw [hplans, ← hpo] at hplan
    rw [hplans, ← hpo'] at hplan'
    have hsame := hs.oneJob old hold old' hold' plan hplan hplan'
    exact Table.eq_of_key_eq hjob hother (hio.symm.trans ((congrArg (·.id) hsame).trans hio'))
  · intro job hjob
    obtain ⟨old, hold, hpo, -⟩ := hmem job hjob
    rw [hplans, ← hpo]
    exact hs.known old hold
  · intro claim hclaim
    obtain ⟨state, hold, hne⟩ := hs.claimed claim hclaim
    rw [hstate]
    split
    next hid =>
      exact ⟨change.state state, by rw [hold]; rfl, (hmoves state (hid ▸ hold)).ne_queued hne⟩
    next => exact ⟨state, hold, hne⟩
  · intro worker hworker hphase
    rw [hstate]
    split
    next hid =>
      intro hnow
      obtain ⟨state, hold, hnow⟩ := Option.map_eq_some_iff.mp hnow
      exact hcomplete worker hworker hid hphase state (hid ▸ hold) hnow
    next => exact hs.campaign worker hworker hphase
  · intro worker hworker reportId hphase
    have hold := hs.completed worker hworker reportId hphase
    rw [hstate]
    split
    next hid =>
      rw [hold, Option.map_some, (hmoves _ (hid ▸ hold)).of_complete rfl]
    next => exact hold
  · intro id' hid'
    rw [hstate]
    split
    next hid =>
      rcases hs.stopped id' hid' with hold | hold <;> rw [hold, Option.map_some]
      · simpa using (hmoves _ (hid ▸ hold)).stopped (.inl rfl)
      · simpa using (hmoves _ (hid ▸ hold)).stopped (.inr rfl)
    next => exact hs.stopped id' hid'

theorem Sound.update (hs : c.Sound) {id : String} {change : Change}
    (hmoves : ∀ state, c.stateOf id = some state → Moves state (change.state state))
    (hcomplete : ∀ worker ∈ c.workers, worker.assessmentId = id → worker.phase.inCampaign →
      ∀ state, c.stateOf id = some state → change.state state ≠ .complete) :
    (c.update id change).Sound :=
  hs.write rfl (fun _ => rfl) hmoves hcomplete

theorem Sound.stop (hs : c.Sound) {id : String}
    (h : c.stateOf id = some .cancelled ∨ c.stateOf id = some .indeterminate) :
    (c.stop id).Sound where
  __ := hs
  stopped id' hid' := by
    rcases List.mem_append.mp hid' with hold | hnew
    · exact hs.stopped id' hold
    · rw [List.mem_singleton.mp hnew]
      exact h

theorem Sound.enter (hs : c.Sound) {worker : Worker} {phase : Phase} (hworker : worker ∈ c.workers)
    (hclaimed : phase.claimed → worker.work ∈ c.claims)
    (hcampaign : phase.inCampaign → c.stateOf worker.assessmentId ≠ some .complete)
    (hcompleted : ∀ reportId, phase = .admitting reportId →
      c.stateOf worker.assessmentId = some .complete) : (c.enter worker phase).Sound := by
  have hmem : ∀ w ∈ (c.enter worker phase).workers,
      w = { worker with phase := phase } ∨ w ∈ c.workers := by
    intro w hw
    obtain ⟨old, hold, rfl⟩ := Table.mem_modify.mp hw
    split
    next hid =>
      left
      rw [Table.eq_of_key_eq hold hworker hid]
    next => exact .inr hold
  refine { hs with working := ?_, campaign := ?_, completed := ?_ }
  · intro w hw hphase
    rcases hmem w hw with rfl | hold
    · exact hclaimed hphase
    · exact hs.working w hold hphase
  · intro w hw hphase
    rcases hmem w hw with rfl | hold
    · exact hcampaign hphase
    · exact hs.campaign w hold hphase
  · intro w hw reportId hphase
    rcases hmem w hw with rfl | hold
    · exact hcompleted reportId hphase
    · exact hs.completed w hold reportId hphase

/-! ## What each call keeps -/

section Calls

variable {assessmentId : String} {alive : Option Bool}

@[simp] theorem workers_markDead : (c.markDead assessmentId alive).workers = c.workers := by
  unfold markDead
  split <;> rfl

@[simp] theorem claims_markDead : (c.markDead assessmentId alive).claims = c.claims := by
  unfold markDead
  split <;> rfl

theorem Sound.markDead (hs : c.Sound) (assessmentId : String) (alive : Option Bool) :
    (c.markDead assessmentId alive).Sound := by
  unfold Campaigns.markDead
  split
  next hdead =>
    obtain ⟨job, hjob, hrunning⟩ := hdead.2
    have hstate : c.stateOf assessmentId = some .running := by
      unfold stateOf
      rw [hjob, Option.map_some, hrunning]
    have hstep : c.history.step (.markDeadWorker assessmentId alive) = History.revoking
        { c.history with store := c.store.setJob assessmentId JobRow.disappeared }
        (c.store.ofJob assessmentId) := if_pos hdead
    have hjobs : (c.history.step (.markDeadWorker assessmentId alive)).store.jobs =
        c.jobs.modify assessmentId Change.disappear.rewrite := by
      rw [hstep]
      rfl
    have hplans : ∀ identity, (c.history.step (.markDeadWorker assessmentId alive)).store.plan?
        identity = c.store.plan? identity := by
      rw [hstep]
      exact fun _ => rfl
    have hdone : Campaigns.Sound
        { c with history := c.history.step (.markDeadWorker assessmentId alive) } := by
      refine hs.write hjobs hplans (fun state h => ?_) (fun _ _ _ _ _ _ => nofun)
      rw [hstate, Option.some.injEq] at h
      exact h ▸ Moves.disappear
    refine hdone.stop (.inr ?_)
    rw [stateOf_modify hjobs, if_pos rfl, hstate]
    rfl
  next => exact hs

theorem stateOf_update_self {change : Change} {state : JobState}
    (h : c.stateOf assessmentId = some state) :
    (c.update assessmentId change).stateOf assessmentId = some (change.state state) := by
  have hmodify : (c.update assessmentId change).stateOf assessmentId =
      if assessmentId = assessmentId then (c.stateOf assessmentId).map change.state
      else c.stateOf assessmentId := stateOf_modify rfl assessmentId
  rw [if_pos rfl, h] at hmodify
  exact hmodify

theorem Sound.cancel (hs : c.Sound) : (c.cancel assessmentId alive).Sound := by
  have hs := hs.markDead assessmentId alive
  unfold Campaigns.cancel
  dsimp only
  split
  next hstate =>
    have hupdate : ((c.markDead assessmentId alive).update assessmentId .cancel).Sound := by
      refine hs.update (fun state h => ?_) (fun _ _ _ _ _ _ => nofun)
      rcases hstate with hstate | hstate <;> rw [hstate, Option.some.injEq] at h <;> subst h
      · exact .cancel_queued
      · exact .cancel_running
    refine hupdate.stop (.inl ?_)
    rcases hstate with hstate | hstate <;> exact stateOf_update_self hstate
  next => exact hs

theorem Sound.begin (hs : c.Sound) (workerId : ℕ) :
    (c.begin workerId assessmentId alive).Sound := by
  have hs := hs.markDead assessmentId alive
  unfold Campaigns.begin
  dsimp only
  split
  · exact hs
  · -- a new worker has claimed nothing
    have hmem : ∀ w ∈ (c.markDead assessmentId alive).workers.insert
        ⟨workerId, assessmentId, .starting⟩, w ∈ (c.markDead assessmentId alive).workers ∨
          w.phase = .starting := by
      intro w hw
      rcases Table.mem_or_eq_of_mem_insert hw with hold | rfl
      · exact .inl hold
      · exact .inr rfl
    refine { hs with working := ?_, campaign := ?_, completed := ?_ }
    · intro w hw hphase
      rcases hmem w hw with hold | hnew
      · exact hs.working w hold hphase
      · rw [hnew] at hphase
        cases hphase
    · intro w hw hphase
      rcases hmem w hw with hold | hnew
      · exact hs.campaign w hold hphase
      · rw [hnew] at hphase
        cases hphase
    · intro w hw reportId hphase
      rcases hmem w hw with hold | hnew
      · exact hs.completed w hold reportId hphase
      · rw [hnew] at hphase
        cases hphase

theorem Sound.insertJob (hs : c.Sound) {job : JobRow} {plan : AssessmentPlan}
    (hnew : c.jobs.find? job.key = none) (hplan : c.store.plan? job.planId = some plan)
    (hnone : ∀ other ∈ c.jobs, c.store.plan? other.planId ≠ some plan) :
    Campaigns.Sound
      { c with history := c.history.step (.writeJobs (c.jobs.insert job)) } := by
  have hinsert : ∀ other, other ∈ c.jobs.insert job ↔ other ∈ c.jobs ∨ other = job :=
    fun _ => Table.mem_insert hnew
  -- the state of a job there was is as before
  have hstate : ∀ id state, c.stateOf id = some state → Campaigns.stateOf
      { c with history := c.history.step (.writeJobs (c.jobs.insert job)) } id = some state := by
    intro id state hold
    show ((c.jobs.insert job).find? id).map _ = _
    rw [Table.find?_insert hnew, if_neg]
    · exact hold
    · rintro rfl
      rw [stateOf, hnew] at hold
      cases hold
  refine ⟨?_, ?_, ?_, hs.oneClaim, hs.trials, hs.working, ?_, ?_, ?_, hs.admitted⟩
  · intro a ha b hb other hother hother'
    rcases (hinsert a).mp ha with hold | rfl <;> rcases (hinsert b).mp hb with hold' | rfl
    · exact hs.oneJob a hold b hold' other hother hother'
    · exact absurd (hother.trans (hother'.symm.trans hplan)) (hnone a hold)
    · exact absurd (hother'.trans (hother.symm.trans hplan)) (hnone b hold')
    · rfl
  · intro other hother
    rcases (hinsert other).mp hother with hold | rfl
    · exact hs.known other hold
    · exact Option.isSome_iff_exists.mpr ⟨plan, hplan⟩
  · intro claim hclaim
    obtain ⟨state, hold, hne⟩ := hs.claimed claim hclaim
    exact ⟨state, hstate _ _ hold, hne⟩
  · intro worker hworker hphase
    have hclaimed : worker.phase.claimed := by
      revert hphase
      cases worker.phase <;> simp [Phase.claimed, Phase.inCampaign]
    obtain ⟨state, hold, -⟩ := hs.claimed _ (hs.working worker hworker hclaimed)
    exact fun hsame => hs.campaign worker hworker hphase
      (hold.trans ((hstate _ _ hold).symm.trans hsame))
  · intro worker hworker reportId hphase
    exact hstate _ _ (hs.completed worker hworker reportId hphase)
  · intro id hid
    exact (hs.stopped id hid).imp (hstate _ _) (hstate _ _)

theorem Sound.enqueue (hs : c.Sound) {planId : String} {checks : Result Unit}
    (hevent : c.Undisturbed (.enqueue planId checks assessmentId)) :
    (commit (c.enqueue planId checks assessmentId) c).Sound := by
  refine commit_induction hs ?_
  intro result c' hok
  simp only [Campaigns.enqueue, bind_ok, require_ok] at hok
  obtain ⟨plan, hplan, ⟨⟩, hchecks, hok⟩ := hok
  cases hexisting : (c.jobs.rows.filter (·.planId = planId)).getLast? with
  | some existing =>
    rw [hexisting] at hok
    simp only [pure_ok, Prod.mk.injEq] at hok
    obtain ⟨-, rfl⟩ := hok
    exact hs
  | none =>
    rw [hexisting] at hok
    simp only [bind_ok, raiseIf_ok, pure_ok, exists_const, Prod.mk.injEq, Bool.not_eq_true,
      Option.isSome_eq_false_iff, Option.isNone_iff_eq_none] at hok
    obtain ⟨hnew, -, rfl⟩ := hok
    have hnone : ∀ job ∈ c.jobs, c.store.plan? job.planId ≠ some plan := by
      intro job hjob hsame
      have hname := hevent hchecks plan hplan job hjob hsame
      rw [List.getLast?_eq_none_iff, List.filter_eq_nil_iff] at hexisting
      exact hexisting job hjob (by simpa using hname)
    exact hs.insertJob hnew hplan hnone

end Calls

/-! ## What each action keeps -/

theorem Phase.claimed_of_inCampaign {phase : Phase} (h : phase.inCampaign) : phase.claimed := by
  cases phase <;> first | rfl | exact h

section Actions

variable {worker : Worker} {alive : Option Bool}

/-- A worker always may stop. -/
theorem Sound.end (hs : c.Sound) (hworker : worker ∈ c.workers) : (c.enter worker .ended).Sound :=
  hs.enter hworker nofun nofun nofun

theorem Sound.proceed (hs : c.Sound) (hworker : worker ∈ c.workers)
    (hphase : worker.phase.inCampaign) {phase : Phase} (hnext : phase.inCampaign) :
    (c.enter worker phase).Sound := by
  refine hs.enter hworker (fun _ => hs.working worker hworker (Phase.claimed_of_inCampaign hphase))
    (fun _ => hs.campaign worker hworker hphase) ?_
  rintro reportId rfl
  cases hnext

theorem Sound.state_of_inCampaign (hs : c.Sound) (hworker : worker ∈ c.workers)
    (hphase : worker.phase.inCampaign) : ∃ state, c.stateOf worker.assessmentId = some state ∧
      state ≠ .queued ∧ state ≠ .complete := by
  obtain ⟨state, hstate, hne⟩ :=
    hs.claimed _ (hs.working worker hworker (Phase.claimed_of_inCampaign hphase))
  refine ⟨state, hstate, hne, fun hcomplete => hs.campaign worker hworker hphase ?_⟩
  rw [← hcomplete]
  exact hstate

theorem Sound.alone (hs : c.Sound) (hworker : worker ∈ c.workers)
    (hphase : worker.phase.inCampaign) {w : Worker} (hw : w ∈ (c.enter worker .ended).workers)
    (hsame : w.assessmentId = worker.assessmentId) : ¬ w.phase.inCampaign := by
  intro hin
  obtain ⟨old, hold, rfl⟩ := Table.mem_modify.mp hw
  split at hin
  next => cases hin
  next hid =>
    rw [if_neg hid] at hsame
    have hclaim := hs.working worker hworker (Phase.claimed_of_inCampaign hphase)
    have hother := hs.working old hold (Phase.claimed_of_inCampaign hin)
    exact hid (congrArg Work.worker (hs.oneClaim _ hother _ hclaim hsame))

theorem Sound.claim (hs : c.Sound) (hworker : worker ∈ c.workers) : (c.claim worker).Sound := by
  unfold Campaigns.claim
  split
  next hqueued =>
    have hupdate : (c.update worker.assessmentId (.claim c.history.now)).Sound := by
      refine hs.update (fun state h => ?_) (fun _ _ _ _ _ _ => nofun)
      rw [hqueued, Option.some.injEq] at h
      exact h ▸ Moves.claim
    have hstate : (c.update worker.assessmentId (.claim c.history.now)).stateOf
        worker.assessmentId = some .running := stateOf_update_self hqueued
    -- a claimed job is not queued, so this one was not
    have hfree : ∀ claim ∈ c.claims, claim.assessmentId ≠ worker.assessmentId := by
      intro claim hclaim hsame
      obtain ⟨state, hold, hne⟩ := hs.claimed claim hclaim
      rw [hsame, hqueued, Option.some.injEq] at hold
      exact hne hold.symm
    have hclaims : Campaigns.Sound { c.update worker.assessmentId (.claim c.history.now) with
        claims := c.claims ++ [worker.work] } := by
      refine { hupdate with claimed := ?_, oneClaim := ?_, trials := ?_, working := ?_ }
      · intro claim hclaim
        rcases List.mem_append.mp hclaim with hold | hnew
        · exact hupdate.claimed claim hold
        · rw [List.mem_singleton.mp hnew]
          exact ⟨_, hstate, nofun⟩
      · intro a ha b hb hsame
        rcases List.mem_append.mp ha with ha | ha <;> rcases List.mem_append.mp hb with hb | hb
        · exact hs.oneClaim a ha b hb hsame
        · rw [List.mem_singleton.mp hb] at hsame
          exact absurd hsame (hfree a ha)
        · rw [List.mem_singleton.mp ha] at hsame
          exact absurd hsame.symm (hfree b hb)
        · rw [List.mem_singleton.mp ha, List.mem_singleton.mp hb]
      · exact fun trial htrial => List.mem_append_left _ (hs.trials trial htrial)
      · exact fun w hw hphase => List.mem_append_left _ (hs.working w hw hphase)
    refine hclaims.enter hworker (fun _ => List.mem_append_right _ (List.mem_singleton_self _))
      (fun _ => ?_) nofun
    show (c.update worker.assessmentId (.claim c.history.now)).stateOf worker.assessmentId ≠ _
    rw [hstate]
    nofun
  next => exact hs.end hworker

theorem Sound.check (hs : c.Sound) (hworker : worker ∈ c.workers)
    (hphase : worker.phase.inCampaign) : (c.check worker alive).Sound := by
  have hs := hs.markDead worker.assessmentId alive
  have hworker : worker ∈ (c.markDead worker.assessmentId alive).workers := by
    rwa [workers_markDead]
  unfold Campaigns.check
  dsimp only
  split <;> exact hs.proceed hworker hphase rfl

theorem Sound.trial (hs : c.Sound) (hworker : worker ∈ c.workers)
    (hphase : worker.phase.inCampaign) : (c.trial worker alive).Sound := by
  have hs := hs.markDead worker.assessmentId alive
  have hworker : worker ∈ (c.markDead worker.assessmentId alive).workers := by
    rwa [workers_markDead]
  unfold Campaigns.trial
  dsimp only
  split
  · have hproceed : ((c.markDead worker.assessmentId alive).enter worker .running).Sound :=
      hs.proceed hworker hphase rfl
    refine { hproceed with trials := ?_ }
    intro trial htrial
    rcases List.mem_append.mp htrial with hold | hnew
    · exact hs.trials trial hold
    · rw [List.mem_singleton.mp hnew]
      exact hs.working worker hworker (Phase.claimed_of_inCampaign hphase)
  · exact hs.proceed hworker hphase rfl

theorem Sound.interrupt (hs : c.Sound) (hworker : worker ∈ c.workers)
    (hphase : worker.phase.inCampaign) : (c.interrupt worker).Sound := by
  obtain ⟨state, hstate, hqueued, hcomplete⟩ := hs.state_of_inCampaign hworker hphase
  have hupdate : ((c.enter worker .ended).update worker.assessmentId .interrupt).Sound := by
    refine (hs.end hworker).update (fun now hnow => ?_) (fun _ _ _ _ _ _ => nofun)
    obtain rfl : state = now := Option.some.inj (hstate.symm.trans hnow)
    cases state with
    | queued => exact absurd rfl hqueued
    | running => exact .disappear
    | cancelled => exact .interrupt
    | indeterminate => exact .refl _
    | complete => exact absurd rfl hcomplete
  exact hupdate.stop (.inr (stateOf_update_self (c := c.enter worker .ended) hstate))

theorem Sound.report (hs : c.Sound) (hworker : worker ∈ c.workers)
    (hphase : worker.phase.inCampaign) (errorCode : Option String) (report : AssessmentReport)
    (useful : Bool) : (c.report worker errorCode report useful).Sound := by
  have hproceed : (c.enter worker
      (.completing errorCode report.reportId (useful && errorCode.isNone))).Sound :=
    hs.proceed hworker hphase rfl
  refine hproceed.history ?_ ?_
  · show (c.store.putReport report).jobs = c.jobs
    unfold AdmissionStore.putReport
    split <;> rfl
  · intro identity plan hplan
    exact AdmissionStore.plan?_putReport.trans hplan

theorem Sound.complete (hs : c.Sound) (hworker : worker ∈ c.workers)
    (hphase : worker.phase.inCampaign) (hrunning : c.stateOf worker.assessmentId = some .running)
    (errorCode : Option String) (reportId : String) (useful : Bool) :
    (c.complete worker errorCode reportId useful).Sound := by
  have hended := hs.end hworker
  have hupdate : ((c.enter worker .ended).update worker.assessmentId
      (.complete reportId errorCode)).Sound := by
    refine hended.update (fun state h => ?_) ?_
    · obtain rfl : JobState.running = state := Option.some.inj (hrunning.symm.trans h)
      exact .complete
    · exact fun w hw hsame hin => absurd hin (hs.alone hworker hphase hw hsame)
  have hstate : ((c.enter worker .ended).update worker.assessmentId
      (.complete reportId errorCode)).stateOf worker.assessmentId = some .complete :=
    stateOf_update_self (c := c.enter worker .ended) hrunning
  have hmem : { worker with phase := .ended } ∈ (c.enter worker .ended).workers :=
    Table.mem_modify.mpr ⟨worker, hworker, (if_pos rfl).symm⟩
  have hadmitting : Campaigns.Sound (Campaigns.enter ((c.enter worker .ended).update
      worker.assessmentId (.complete reportId errorCode)) { worker with phase := .ended }
      (.admitting reportId)) := by
    refine hupdate.enter hmem (fun _ => ?_) nofun (fun _ _ => hstate)
    exact hs.working worker hworker (Phase.claimed_of_inCampaign hphase)
  unfold Campaigns.complete
  dsimp only
  split
  · exact hadmitting
  · exact hupdate

theorem admitReport_frame (call : AdmitCall) (s : AdmissionStore) :
    (commit (Admission.admitReport call s) s).jobs = s.jobs ∧
      (commit (Admission.admitReport call s) s).plans = s.plans := by
  refine commit_induction (P := fun s' : AdmissionStore => s'.jobs = s.jobs ∧ s'.plans = s.plans) ⟨rfl, rfl⟩ ?_
  intro result s' hok
  simp only [Admission.admitReport, bind_ok, require_ok, raiseIf_ok, exists_const] at hok
  obtain ⟨_, -, _, -, -, -, _, -, -, current, -, hok⟩ := hok
  cases current with
  | some previous =>
    simp only [pure_ok, Prod.mk.injEq] at hok
    exact hok.2 ▸ ⟨rfl, rfl⟩
  | none =>
    simp only [bind_ok, pure_ok, Prod.mk.injEq] at hok
    obtain ⟨_, -, _, -, -, rfl⟩ := hok
    exact ⟨rfl, rfl⟩

theorem Sound.admitReport (hs : c.Sound) (hworker : worker ∈ c.workers) {reportId : String}
    (hphase : worker.phase = .admitting reportId) (automatic : Result Bool) (call : AdmitCall) :
    (c.admitReport worker reportId automatic call).Sound := by
  have hended := hs.end hworker
  have hcomplete := hs.completed worker hworker reportId hphase
  unfold Campaigns.admitReport
  split
  · have hhistory : Campaigns.Sound { c.enter worker .ended with
        history := c.history.step (.admitReport { call with reportId := reportId }) } := by
      obtain ⟨hjobs, hplans⟩ := admitReport_frame { call with reportId := reportId } c.store
      exact hended.history hjobs fun identity plan hplan => by
        rw [AdmissionStore.plan?] at hplan ⊢
        exact hplans ▸ hplan
    refine { hhistory with admitted := ?_ }
    intro admission hadmission
    rcases List.mem_append.mp hadmission with hold | hnew
    · exact hs.admitted admission hold
    · rw [List.mem_singleton.mp hnew]
      have hnot : worker.assessmentId ∉ c.stopped := by
        intro hstopped
        rcases hs.stopped _ hstopped with h | h <;> rw [hcomplete] at h <;> cases h
      simpa using hnot
  · refine hended.update (fun state _ => .refl state) ?_
    intro w hw hsame hin state hstate
    have := hended.campaign w hw hin
    rw [hsame] at this
    intro hnow
    apply this
    rw [hstate]
    exact congrArg some hnow
  · exact hended

end Actions

theorem Sound.act (hs : c.Sound) {worker : Worker} {workerId : ℕ} {action : Action}
    (hfound : c.workers.find? workerId = some worker)
    (hevent : c.Undisturbed (.act workerId action)) : (c.act worker action).Sound := by
  have hworker := Table.mem_of_find? hfound
  have hcampaign : worker.phase = .running ∨ worker.phase = .checked → worker.phase.inCampaign := by
    rintro (h | h) <;> rw [h] <;> rfl
  cases action with
  | claim =>
    unfold Campaigns.act
    dsimp only
    split
    · exact hs.claim hworker
    · exact hs
  | check alive =>
    unfold Campaigns.act
    dsimp only
    split
    next h => exact hs.check hworker (hcampaign (.inl h))
    next => exact hs
  | trial alive =>
    unfold Campaigns.act
    dsimp only
    split
    next h => exact hs.trial hworker (hcampaign (.inr h))
    next => exact hs
  | block =>
    unfold Campaigns.act
    dsimp only
    split
    next h => exact hs.proceed hworker (hcampaign h) rfl
    next => exact hs
  | finish missingCostLineage =>
    unfold Campaigns.act
    dsimp only
    split
    next h => exact hs.proceed hworker (hcampaign (.inl h)) rfl
    next => exact hs
  | interrupt =>
    unfold Campaigns.act
    dsimp only
    split
    next h => exact hs.interrupt hworker (hcampaign h)
    next => exact hs
  | report report useful =>
    unfold Campaigns.act
    dsimp only
    split
    next errorCode h => exact hs.report hworker (by rw [h]; rfl) errorCode report useful
    next => exact hs
  | complete =>
    unfold Campaigns.act
    dsimp only
    split
    next errorCode reportId useful h =>
      have hrunning := hevent worker hfound (by rw [h]; rfl)
      exact hs.complete hworker (by rw [h]; rfl) hrunning errorCode reportId useful
    next => exact hs
  | admitReport automatic call =>
    unfold Campaigns.act
    dsimp only
    split
    next reportId h => exact hs.admitReport hworker h automatic call
    next => exact hs
  | die => exact hs.end hworker

theorem Sound.step (hs : c.Sound) {event : Event} (hevent : c.Undisturbed event) :
    (c.step event).Sound := by
  cases event with
  | elapse microseconds => exact hs.history rfl fun _ _ h => h
  | putPlan plan =>
    refine hs.history ?_ fun _ _ => AdmissionStore.plan?_putPlan
    show (c.store.putPlan plan).jobs = c.jobs
    unfold AdmissionStore.putPlan
    split <;> rfl
  | enqueue planId checks assessmentId => exact hs.enqueue hevent
  | cancel assessmentId alive => exact hs.cancel
  | markDead assessmentId alive => exact hs.markDead assessmentId alive
  | begin workerId assessmentId alive => exact hs.begin workerId
  | act workerId action =>
    unfold Campaigns.step
    dsimp only
    split
    next worker hfound => exact hs.act hfound hevent
    next => exact hs

instance : DecidableRel Undisturbed := fun c event => by
  cases event with
  | act workerId action => cases action <;> unfold Undisturbed <;> infer_instance
  | enqueue planId checks assessmentId => unfold Undisturbed; infer_instance
  | _ => unfold Undisturbed; infer_instance

end Campaigns

/-! ## Runs -/

/-- In every run whose completions find their job running, and whose jobs are enqueued under one
name of their plan, jobs have one worker, plans have one job, and a stopped job is neither complete
nor admitted. -/
theorem stopped_jobs_stay_stopped (now : Int) (events : List Campaigns.Event)
    (hevents : Admissible Campaigns.step Campaigns.Undisturbed (.start now) events) :
    (run Campaigns.step (.start now) events).Lawful := by
  have hs : (run Campaigns.step (.start now) events).Sound :=
    run_invariant_of_admissible (fun _ _ hs hevent => hs.step hevent) (.start now) hevents
  exact hs.lawful

def oneTrial : List Campaigns.Event :=
  [.putPlan ⟨"plan", "sha256:plan", "candidate", "grant"⟩, .enqueue "plan" (.ok ()) "job",
    .begin 1 "job" none, .act 1 .claim, .act 1 (.check none), .act 1 (.trial none),
    .act 1 (.finish false),
    .act 1 (.report ⟨"report", "sha256:report", "plan", "campaign", 0⟩ true)]

def completion : List Campaigns.Event :=
  [.act 1 .complete,
    .act 1 (.admitReport (.ok true) ⟨"report", .ok (), .ok true, "admission", .ok ()⟩)]

theorem stopped_jobs_stay_stopped_of_admitted :
    (run Campaigns.step (.start 0) (oneTrial ++ completion)).Lawful :=
  stopped_jobs_stay_stopped 0 (oneTrial ++ completion) (by decide +kernel)

/-- A job cancelled after its last trial is completed, and its report admitted; and a plan named by
its digest gets a second job. -/
theorem stopped_job_completed :
    ¬ (run Campaigns.step (.start 0) (oneTrial ++ [.cancel "job" none] ++ completion)).Lawful ∧
      ¬ (run Campaigns.step (.start 0) (oneTrial ++
        [.enqueue "sha256:plan" (.ok ()) "second"])).Lawful := by
  refine ⟨fun h => ?_, fun h => ?_⟩
  · have hstopped := h.admitted ⟨"job", true⟩ (by decide +kernel)
    exact hstopped rfl
  · have hjobs := h.oneJob
      ⟨⟨"job", "plan", .running⟩, none, some 0, none⟩ (by decide +kernel)
      ⟨⟨"second", "sha256:plan", .queued⟩, none, none, none⟩ (by decide +kernel)
      ⟨"plan", "sha256:plan", "candidate", "grant"⟩ (by decide +kernel) (by decide +kernel)
    exact absurd hjobs (by decide)

end AeepRouter.Jobs

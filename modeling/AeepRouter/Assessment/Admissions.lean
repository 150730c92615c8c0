import AeepRouter.Assessment.Repository

/-!
# Admissions and revocations

An executor has one row in `assessment_admissions`: the marker of its newest admission. `admitReport` tests
the freshness of a report against that marker alone, and a successful admission replaces it, so the
revocations of the admissions before are forgotten with them.

`History` keeps the revocations beside the tables. What an unrevoked marker rests on is compared with
all of them in `unrevoked_is_fresh`, for the runs whose admissions meet `Fresh`, the part of the law
the marker cannot show.
-/

namespace AeepRouter.Admission

open Lib

/-- The fields of a report that an admission reads. -/
structure AssessmentReport where
  reportId : String
  digest : String
  planDigest : String
  campaignDigest : String
  createdAt : Int
  deriving DecidableEq, Repr

/-- The fields of a plan that an admission reads. -/
structure AssessmentPlan where
  planId : String
  digest : String
  candidateId : String
  authorizationId : String
  deriving DecidableEq, Repr

structure ScopedAdmission where
  admissionId : String
  executorId : String
  reportId : String
  authorizationId : String
  deriving DecidableEq, Repr

/-- A row of `assessment_admissions`. -/
structure AdmissionMarker where
  executorId : String
  admissionId : String
  revoked : Bool
  revokedAt : Option Int
  deriving DecidableEq, Repr

structure JobRow extends AssessmentJob where
  reportId : Option String
  startedAt : Option Int
  errorCode : Option String
  deriving DecidableEq

def JobRow.key (job : JobRow) : String := job.id

/-- The tables an admission works on. -/
structure AdmissionStore where
  /-- In the order they were put. -/
  reports : List AssessmentReport
  plans : List AssessmentPlan
  admissions : Table ScopedAdmission (·.admissionId)
  markers : Table AdmissionMarker (·.executorId)
  jobs : Table JobRow JobRow.key

def AdmissionStore.empty : AdmissionStore := ⟨[], [], ∅, ∅, ∅⟩

namespace AdmissionStore

variable (s : AdmissionStore)

/-- `repository.get("report", …)`. -/
def report? (identity : String) : Option AssessmentReport :=
  s.reports.find? fun report => report.reportId = identity ∨ report.digest = identity

/-- `repository.get("plan", …)`. -/
def plan? (identity : String) : Option AssessmentPlan :=
  s.plans.find? fun plan => plan.planId = identity ∨ plan.digest = identity

/-- `repository.put` of a report: identities are immutable. -/
def putReport (report : AssessmentReport) : AdmissionStore :=
  if ∃ other ∈ s.reports, other.reportId = report.reportId ∨ other.digest = report.digest then s
  else { s with reports := s.reports ++ [report] }

def putPlan (plan : AssessmentPlan) : AdmissionStore :=
  if ∃ other ∈ s.plans, other.planId = plan.planId ∨ other.digest = plan.digest then s
  else { s with plans := s.plans ++ [plan] }

/-- The rows of a new admission: its record, and the marker of its executor. -/
def admitted (admission : ScopedAdmission) : AdmissionStore :=
  { s with
    admissions := s.admissions.insert admission
    markers := s.markers.put ⟨admission.executorId, admission.admissionId, false, none⟩ }

def restsOn (marker : AdmissionMarker) : Option AssessmentReport :=
  (s.admissions.find? marker.admissionId).bind fun admission => s.report? admission.reportId

end AdmissionStore

/-! ## Admitting -/

/-- The arguments of `admit`, and what it meets outside these tables. -/
structure AdmitCall where
  reportId : String
  /-- What the refit, the grader evidence, the dependencies and the boundaries say. -/
  checks : Result Unit
  /-- `authorize`: whether the grant permits automatic admission. -/
  grant : Result Bool
  admissionId : String
  activation : Result Unit

def AdmissionMarker.forbids (marker : AdmissionMarker) (previousReport report : AssessmentReport) :
    Prop :=
  marker.revoked ∧ (marker.revokedAt = none ∨ (∃ at' ∈ marker.revokedAt, report.createdAt ≤ at') ∨
    previousReport.campaignDigest = report.campaignDigest)

instance (marker : AdmissionMarker) (previousReport report : AssessmentReport) :
    Decidable (marker.forbids previousReport report) := by
  unfold AdmissionMarker.forbids; infer_instance

def AdmitCall.admission (call : AdmitCall) (plan : AssessmentPlan) : ScopedAdmission where
  admissionId := call.admissionId
  executorId := plan.candidateId
  reportId := call.reportId
  authorizationId := plan.authorizationId

/-- The admission that is in force already, if the marker shows one of the same report. -/
def AdmissionStore.current (s : AdmissionStore) (call : AdmitCall) (report : AssessmentReport)
    (plan : AssessmentPlan) : Result (Option ScopedAdmission) :=
  match s.markers.find? plan.candidateId with
  | none => pure none
  | some marker => do
    let previous ← demand (s.admissions.find? marker.admissionId) "unknown assessment admission"
    let previousReport ← demand (s.report? previous.reportId) "unknown assessment report"
    refuseIf (marker.forbids previousReport report)
      "revoked admission requires fresh assessment evidence"
    pure (if previous.reportId = call.reportId then some previous else none)

/-- `AssessmentService.admit`. -/
def admitReport (call : AdmitCall) (s : AdmissionStore) : Result (ScopedAdmission × AdmissionStore) := do
  let report ← demand (s.report? call.reportId) "unknown assessment report"
  let plan ← demand (s.plan? report.planDigest) "unknown assessment plan"
  call.checks
  let automatic ← call.grant
  refuseIf (¬ automatic) "standing authorization does not permit automatic admission"
  match ← s.current call report plan with
  | some previous => pure (previous, s)
  | none => do
    raiseIf (s.admissions.find? call.admissionId).isSome .integrity
    call.activation
    pure (call.admission plan, s.admitted (call.admission plan))

/-! ## Revoking -/

def AdmissionMarker.revoke (p : AdmissionMarker → Bool) (now : Int) :
    Table.Rewrite (AdmissionMarker.executorId) where
  toFun marker := if p marker then { marker with revoked := true, revokedAt := some now } else marker
  keeps marker := by split <;> rfl

namespace AdmissionStore

variable (s : AdmissionStore)

def revokeWhere (p : AdmissionMarker → Bool) (now : Int) : AdmissionStore :=
  { s with markers := s.markers.rewrite (AdmissionMarker.revoke p now) }

/-- The admissions `AssessmentRepository.revoke` revokes. -/
def underAuthorization (authorizationId : String) (marker : AdmissionMarker) : Bool :=
  (s.admissions.find? marker.admissionId).any (·.authorizationId = authorizationId)

/-- The admissions `revoke_admission` revokes. -/
def ofExecutor (executorId : String) (marker : AdmissionMarker) : Bool :=
  marker.executorId = executorId

/-- The admissions `mark_dead_worker` revokes, when it finds the job running. -/
def ofJob (assessmentId : String) (marker : AdmissionMarker) : Bool :=
  (s.admissions.find? marker.admissionId).any fun admission =>
    (s.jobs.find? assessmentId).any (·.reportId = some admission.reportId)

def setJob (assessmentId : String) (f : Table.Rewrite JobRow.key) : AdmissionStore :=
  { s with jobs := s.jobs.modify assessmentId f }

end AdmissionStore

def JobRow.disappeared : Table.Rewrite JobRow.key where
  toFun job := { job with state := .indeterminate, errorCode := some "worker_disappeared" }
  keeps _ := rfl

/-- Whether `mark_dead_worker`, by what it knows of the worker, takes the worker of a job as dead. -/
def AdmissionStore.takesDead (s : AdmissionStore) (assessmentId : String) (alive : Option Bool) :
    Prop :=
  alive = some false ∧ ∃ job ∈ s.jobs.find? assessmentId, job.state = .running

instance (s : AdmissionStore) (assessmentId : String) (alive : Option Bool) :
    Decidable (s.takesDead assessmentId alive) := by
  unfold AdmissionStore.takesDead; infer_instance

/-! ## Histories -/

structure Revocation where
  executorId : String
  admissionId : String
  report : AssessmentReport
  revokedAt : Int
  deriving DecidableEq, Repr

/-- The tables under a clock, with every revocation there has been. -/
structure History where
  now : Int
  store : AdmissionStore
  revocations : List Revocation

def History.start (now : Int) : History := ⟨now, .empty, []⟩

inductive Event where
  | elapse (microseconds : ℕ)
  | putReport (report : AssessmentReport)
  | putPlan (plan : AssessmentPlan)
  /-- Another component wrote the jobs. -/
  | writeJobs (jobs : Table JobRow JobRow.key)
  | admitReport (call : AdmitCall)
  | revoke (authorizationId : String)
  | revokeAdmission (executorId : String)
  /-- `mark_dead_worker`, with what it knows of the worker. -/
  | markDeadWorker (assessmentId : String) (alive : Option Bool)

namespace History

variable (h : History)

def revoked (p : AdmissionMarker → Bool) : List Revocation :=
  (h.store.markers.rows.filter p).filterMap fun marker =>
    (h.store.restsOn marker).map fun report =>
      ⟨marker.executorId, marker.admissionId, report, h.now⟩

def revoking (p : AdmissionMarker → Bool) : History :=
  { h with
    store := h.store.revokeWhere p h.now
    revocations := h.revocations ++ h.revoked p }

def step : Event → History
  | .elapse microseconds => { h with now := h.now + microseconds }
  | .putReport report => { h with store := h.store.putReport report }
  | .putPlan plan => { h with store := h.store.putPlan plan }
  | .writeJobs jobs => { h with store := { h.store with jobs := jobs } }
  | .admitReport call => { h with store := commit (Admission.admitReport call h.store) h.store }
  | .revoke authorizationId => h.revoking (h.store.underAuthorization authorizationId)
  | .revokeAdmission executorId => h.revoking (AdmissionStore.ofExecutor executorId)
  | .markDeadWorker assessmentId alive =>
    if h.store.takesDead assessmentId alive then
      History.revoking { h with store := h.store.setJob assessmentId JobRow.disappeared }
        (h.store.ofJob assessmentId)
    else h

/-- An unrevoked admission rests on fresh evidence: not on a report whose admission was revoked, not
on a campaign an earlier revoked admission of its executor used, and on a report created after every
revocation for its executor. -/
def Lawful : Prop :=
  ∀ marker ∈ h.store.markers, ¬ marker.revoked → ∃ report, h.store.restsOn marker = some report ∧
    ∀ revocation ∈ h.revocations, revocation.report ≠ report ∧
      (revocation.executorId = marker.executorId →
        revocation.report.campaignDigest ≠ report.campaignDigest ∧
          revocation.revokedAt < report.createdAt)

/-- What the marker of the executor does not show of the revocations before: when it is not revoked,
the report is newer than all of them; and the campaign is none of those of the revoked admissions
that the marker has replaced. -/
def Fresh : Event → Prop
  | .admitReport call =>
    ∀ report ∈ h.store.report? call.reportId, ∀ plan ∈ h.store.plan? report.planDigest,
      ∀ marker ∈ h.store.markers.find? plan.candidateId,
        ∀ revocation ∈ h.revocations, revocation.executorId = plan.candidateId →
          (¬ marker.revoked → revocation.revokedAt < report.createdAt) ∧
          (revocation.admissionId ≠ marker.admissionId →
            revocation.report.campaignDigest ≠ report.campaignDigest)
  | _ => True

instance : DecidableRel Fresh := fun _ event => by
  cases event <;> unfold Fresh <;> infer_instance

end History

/-! ## Lookups -/

section Lookups

variable {s : AdmissionStore} {report found : AssessmentReport} {plan : AssessmentPlan}
  {identity : String}

theorem AdmissionStore.report?_putReport (h : s.report? identity = some found) :
    (s.putReport report).report? identity = some found := by
  unfold putReport
  split
  · exact h
  · unfold report? at h ⊢
    rw [List.find?_append, h, Option.some_or]

theorem AdmissionStore.plan?_putPlan {found : AssessmentPlan} (h : s.plan? identity = some found) :
    (s.putPlan plan).plan? identity = some found := by
  unfold putPlan
  split
  · exact h
  · unfold plan? at h ⊢
    rw [List.find?_append, h, Option.some_or]

@[simp] theorem AdmissionStore.admissions_putReport :
    (s.putReport report).admissions = s.admissions := by
  unfold putReport
  split <;> rfl

@[simp] theorem AdmissionStore.markers_putReport : (s.putReport report).markers = s.markers := by
  unfold putReport
  split <;> rfl

@[simp] theorem AdmissionStore.plan?_putReport :
    (s.putReport report).plan? identity = s.plan? identity := by
  unfold putReport
  split <;> rfl

@[simp] theorem AdmissionStore.admissions_putPlan :
    (s.putPlan plan).admissions = s.admissions := by
  unfold putPlan
  split <;> rfl

@[simp] theorem AdmissionStore.markers_putPlan : (s.putPlan plan).markers = s.markers := by
  unfold putPlan
  split <;> rfl

@[simp] theorem AdmissionStore.report?_putPlan :
    (s.putPlan plan).report? identity = s.report? identity := by
  unfold putPlan
  split <;> rfl

end Lookups

/-! ## The invariant -/

def AdmissionStore.executorOf (s : AdmissionStore) (report : AssessmentReport) : Option String :=
  (s.plan? report.planDigest).map (·.candidateId)

/-- What a store keeps of another: reports, plans and admissions stay as they are. -/
structure AdmissionStore.Grows (s s' : AdmissionStore) : Prop where
  reports : ∀ identity report, s.report? identity = some report → s'.report? identity = some report
  plans : ∀ identity plan, s.plan? identity = some plan → s'.plan? identity = some plan
  admissions : ∀ id admission, s.admissions.find? id = some admission →
    s'.admissions.find? id = some admission

namespace AdmissionStore.Grows

variable {s s' : AdmissionStore} (hg : s.Grows s')
include hg

theorem restsOn {marker : AdmissionMarker} {report : AssessmentReport}
    (h : s.restsOn marker = some report) : s'.restsOn marker = some report := by
  obtain ⟨admission, hadmission, hreport⟩ := Option.bind_eq_some_iff.mp h
  exact Option.bind_eq_some_iff.mpr
    ⟨admission, hg.admissions _ _ hadmission, hg.reports _ _ hreport⟩

theorem executorOf {report : AssessmentReport} {executorId : String}
    (h : s.executorOf report = some executorId) : s'.executorOf report = some executorId := by
  obtain ⟨plan, hplan, rfl⟩ := Option.map_eq_some_iff.mp h
  exact Option.map_eq_some_iff.mpr ⟨plan, hg.plans _ _ hplan, rfl⟩

end AdmissionStore.Grows

namespace History

/-- What every event keeps. -/
structure Sound (h : History) : Prop where
  stored : ∀ marker ∈ h.store.markers, ∃ report, h.store.restsOn marker = some report ∧
    h.store.executorOf report = some marker.executorId
  latest : ∀ marker ∈ h.store.markers, marker.revoked → ∃ at', marker.revokedAt = some at' ∧
    ∀ revocation ∈ h.revocations, revocation.executorId = marker.executorId →
      revocation.revokedAt ≤ at'
  past : ∀ revocation ∈ h.revocations, revocation.revokedAt ≤ h.now
  known : ∀ revocation ∈ h.revocations, (h.store.admissions.find? revocation.admissionId).isSome ∧
    h.store.executorOf revocation.report = some revocation.executorId
  shown : ∀ revocation ∈ h.revocations, ∃ marker ∈ h.store.markers,
    marker.executorId = revocation.executorId ∧ (marker.admissionId = revocation.admissionId →
      marker.revoked ∧ h.store.restsOn marker = some revocation.report)
  lawful : h.Lawful

section Events

variable {h h' : History}

theorem Sound.start (now : Int) : (History.start now).Sound where
  stored _ hm := absurd hm Table.not_mem_empty
  latest _ hm := absurd hm Table.not_mem_empty
  past _ hr := absurd hr List.not_mem_nil
  known _ hr := absurd hr List.not_mem_nil
  shown _ hr := absurd hr List.not_mem_nil
  lawful _ hm := absurd hm Table.not_mem_empty

/-- An event that touches neither markers nor revocations. -/
theorem Sound.grow (hs : h.Sound) (hnow : h.now ≤ h'.now) (hg : h.store.Grows h'.store)
    (hm : h'.store.markers = h.store.markers) (hr : h'.revocations = h.revocations) : h'.Sound := by
  refine ⟨?_, ?_, ?_, ?_, ?_, ?_⟩
  · intro marker hmarker
    rw [hm] at hmarker
    obtain ⟨report, hrests, hexecutor⟩ := hs.stored marker hmarker
    exact ⟨report, hg.restsOn hrests, hg.executorOf hexecutor⟩
  · rw [hm, hr]
    exact hs.latest
  · rw [hr]
    exact fun revocation hmem => (hs.past revocation hmem).trans hnow
  · intro revocation hmem
    rw [hr] at hmem
    obtain ⟨hstored, hexecutor⟩ := hs.known revocation hmem
    obtain ⟨admission, hadmission⟩ := Option.isSome_iff_exists.mp hstored
    exact ⟨by rw [hg.admissions _ _ hadmission]; rfl, hg.executorOf hexecutor⟩
  · intro revocation hmem
    rw [hr] at hmem
    obtain ⟨marker, hmarker, hid, hshows⟩ := hs.shown revocation hmem
    refine ⟨marker, hm ▸ hmarker, hid, fun hsame => ?_⟩
    exact ⟨(hshows hsame).1, hg.restsOn (hshows hsame).2⟩
  · intro marker hmarker hlive
    rw [hm] at hmarker
    obtain ⟨report, hrests, hlaw⟩ := hs.lawful marker hmarker hlive
    exact ⟨report, hg.restsOn hrests, by rw [hr]; exact hlaw⟩

/-- An admission under the law: the marker of its executor is replaced. -/
theorem Sound.admitted (hs : h.Sound) {admission : ScopedAdmission} {report : AssessmentReport}
    (hnew : h.store.admissions.find? admission.admissionId = none)
    (hreport : h.store.report? admission.reportId = some report)
    (hexecutor : h.store.executorOf report = some admission.executorId)
    (hfresh : ∀ revocation ∈ h.revocations, revocation.executorId = admission.executorId →
      revocation.report.campaignDigest ≠ report.campaignDigest ∧
        revocation.revokedAt < report.createdAt) :
    History.Sound { h with store := h.store.admitted admission } := by
  have hg : h.store.Grows (h.store.admitted admission) := by
    refine ⟨fun _ _ hfound => hfound, fun _ _ hfound => hfound, fun id other hfound => ?_⟩
    show (h.store.admissions.insert admission).find? id = some other
    rw [Table.find?_insert hnew, if_neg]
    · exact hfound
    · rintro rfl
      rw [hnew] at hfound
      cases hfound
  have hrests : (h.store.admitted admission).restsOn
      ⟨admission.executorId, admission.admissionId, false, none⟩ = some report := by
    refine Option.bind_eq_some_iff.mpr ⟨admission, ?_, hreport⟩
    exact Table.find?_insert_self hnew
  have hmem : ∀ marker, marker ∈ (h.store.admitted admission).markers ↔
      marker = ⟨admission.executorId, admission.admissionId, false, none⟩ ∨
        marker ∈ h.store.markers ∧ marker.executorId ≠ admission.executorId :=
    fun _ => Table.mem_put
  refine ⟨?_, ?_, hs.past, ?_, ?_, ?_⟩
  · intro marker hmarker
    rcases (hmem marker).mp hmarker with rfl | ⟨hold, -⟩
    · exact ⟨report, hrests, hexecutor⟩
    · obtain ⟨other, hother, hof⟩ := hs.stored marker hold
      exact ⟨other, hg.restsOn hother, hof⟩
  · intro marker hmarker hrevoked
    rcases (hmem marker).mp hmarker with rfl | ⟨hold, -⟩
    · cases hrevoked
    · exact hs.latest marker hold hrevoked
  · intro revocation hr
    obtain ⟨hstored, hof⟩ := hs.known revocation hr
    obtain ⟨other, hother⟩ := Option.isSome_iff_exists.mp hstored
    exact ⟨by rw [hg.admissions _ _ hother]; rfl, hof⟩
  · intro revocation hr
    obtain ⟨marker, hmarker, hid, hshows⟩ := hs.shown revocation hr
    by_cases hthis : revocation.executorId = admission.executorId
    · refine ⟨_, (hmem _).mpr (.inl rfl), hthis.symm, fun hsame => ?_⟩
      -- an admission revoked before is stored, and the new one was not
      have hstored := (hs.known revocation hr).1
      rw [← hsame, hnew] at hstored
      cases hstored
    · refine ⟨marker, (hmem _).mpr (.inr ⟨hmarker, hid ▸ hthis⟩), hid, fun hsame => ?_⟩
      exact ⟨(hshows hsame).1, hg.restsOn (hshows hsame).2⟩
  · intro marker hmarker hlive
    rcases (hmem marker).mp hmarker with rfl | ⟨hold, -⟩
    · refine ⟨report, hrests, fun revocation hr => ⟨?_, hfresh revocation hr⟩⟩
      rintro rfl
      have hsame := (hs.known revocation hr).2.symm.trans hexecutor
      exact (hfresh revocation hr (Option.some.inj hsame)).1 rfl
    · obtain ⟨other, hother, hlaw⟩ := hs.lawful marker hold hlive
      exact ⟨other, hg.restsOn hother, hlaw⟩

/-- What the marker shows and what it does not make the evidence of an admission fresh. -/
theorem Sound.fresh (hs : h.Sound) {call : AdmitCall} (hcall : h.Fresh (.admitReport call))
    {report : AssessmentReport} {plan : AssessmentPlan}
    (hreport : h.store.report? call.reportId = some report)
    (hplan : h.store.plan? report.planDigest = some plan)
    (hcurrent : h.store.current call report plan = .ok none) :
    ∀ revocation ∈ h.revocations, revocation.executorId = plan.candidateId →
      revocation.report.campaignDigest ≠ report.campaignDigest ∧
        revocation.revokedAt < report.createdAt := by
  intro revocation hr hexecutor
  obtain ⟨marker, hmarker, hid, hshows⟩ := hs.shown revocation hr
  have hfound : h.store.markers.find? plan.candidateId = some marker := by
    rw [← hexecutor, ← hid]
    exact Table.find?_of_mem hmarker
  obtain ⟨hnewer, hother⟩ := hcall report hreport plan hplan marker hfound revocation hr hexecutor
  unfold AdmissionStore.current at hcurrent
  rw [hfound] at hcurrent
  simp only [bind_ok, require_ok, raiseIf_ok, exists_const] at hcurrent
  obtain ⟨previous, hprevious, previousReport, hpreviousReport, hforbids, -⟩ := hcurrent
  have hrests : h.store.restsOn marker = some previousReport :=
    Option.bind_eq_some_iff.mpr ⟨previous, hprevious, hpreviousReport⟩
  by_cases hrevoked : marker.revoked
  · -- the code compares the report with the marker, which shows the last revocation
    obtain ⟨at', hat, hlatest⟩ := hs.latest marker hmarker hrevoked
    simp only [AdmissionMarker.forbids, hrevoked, true_and, hat, Option.mem_some_iff,
      exists_eq_left', not_or, not_le] at hforbids
    obtain ⟨-, hafter, hcampaign⟩ := hforbids
    refine ⟨?_, (hlatest revocation hr (hexecutor.trans (by rw [← hexecutor, hid]))).trans_lt hafter⟩
    by_cases hsame : revocation.admissionId = marker.admissionId
    · have := (hshows hsame.symm).2
      rw [hrests, Option.some.injEq] at this
      rwa [← this]
    · exact hother hsame
  · refine ⟨hother fun hsame => hrevoked (hshows hsame.symm).1, hnewer hrevoked⟩

theorem Sound.admitReport (hs : h.Sound) {call : AdmitCall} (hcall : h.Fresh (.admitReport call)) :
    History.Sound { h with store := commit (Admission.admitReport call h.store) h.store } := by
  refine commit_induction (P := fun s => History.Sound { h with store := s }) hs ?_
  intro result s' hok
  simp only [Admission.admitReport, bind_ok, require_ok, raiseIf_ok, exists_const] at hok
  obtain ⟨report, hreport, plan, hplan, -, -, automatic, -, -, current, hcurrent, hok⟩ := hok
  cases current with
  | some previous =>
    simp only [pure_ok, Prod.mk.injEq] at hok
    obtain ⟨-, rfl⟩ := hok
    exact hs
  | none =>
    simp only [bind_ok, raiseIf_ok, pure_ok, exists_const, Prod.mk.injEq, Bool.not_eq_true,
      Option.isSome_eq_false_iff, Option.isNone_iff_eq_none] at hok
    obtain ⟨hnew, -, -, -, rfl⟩ := hok
    refine hs.admitted hnew hreport ?_ (hs.fresh hcall hreport hplan hcurrent)
    rw [AdmissionStore.executorOf, hplan]
    rfl

theorem mem_revoked {p : AdmissionMarker → Bool} {revocation : Revocation} :
    revocation ∈ h.revoked p ↔ ∃ marker ∈ h.store.markers, p marker ∧
      ∃ report, h.store.restsOn marker = some report ∧
        ⟨marker.executorId, marker.admissionId, report, h.now⟩ = revocation := by
  simp [revoked, Table.mem_def, and_assoc]

theorem revoke_of_pos {p : AdmissionMarker → Bool} {now : Int} {marker : AdmissionMarker}
    (hp : p marker) : AdmissionMarker.revoke p now marker =
      { marker with revoked := true, revokedAt := some now } := if_pos hp

theorem revoke_of_neg {p : AdmissionMarker → Bool} {now : Int} {marker : AdmissionMarker}
    (hp : ¬ p marker) : AdmissionMarker.revoke p now marker = marker := if_neg hp

theorem revoke_admissionId (p : AdmissionMarker → Bool) (now : Int) (marker : AdmissionMarker) :
    (AdmissionMarker.revoke p now marker).admissionId = marker.admissionId := by
  by_cases hp : p marker
  · rw [revoke_of_pos hp]
  · rw [revoke_of_neg hp]

theorem Sound.revoking (hs : h.Sound) (p : AdmissionMarker → Bool) : (h.revoking p).Sound := by
  have hkeeps : ∀ marker, (AdmissionMarker.revoke p h.now marker).executorId = marker.executorId :=
    (AdmissionMarker.revoke p h.now).keeps
  have hrests : ∀ marker, (h.revoking p).store.restsOn (AdmissionMarker.revoke p h.now marker) =
      h.store.restsOn marker := fun marker =>
    congrArg (fun id => (h.store.admissions.find? id).bind fun a => h.store.report? a.reportId)
      (revoke_admissionId p h.now marker)
  have hmem : ∀ revocation ∈ (h.revoking p).revocations, revocation ∈ h.revocations ∨
      ∃ marker ∈ h.store.markers, p marker ∧ ∃ report, h.store.restsOn marker = some report ∧
        ⟨marker.executorId, marker.admissionId, report, h.now⟩ = revocation := by
    intro revocation hr
    rcases List.mem_append.mp hr with hr | hr
    · exact .inl hr
    · exact .inr (mem_revoked.mp hr)
  refine ⟨?_, ?_, ?_, ?_, ?_, ?_⟩
  · intro marker hmarker
    obtain ⟨old, hold, rfl⟩ := Table.mem_rewrite.mp hmarker
    obtain ⟨report, hreport, hexecutor⟩ := hs.stored old hold
    exact ⟨report, by rw [hrests, hreport], by rw [hkeeps]; exact hexecutor⟩
  · intro marker hmarker hrevoked
    obtain ⟨old, hold, rfl⟩ := Table.mem_rewrite.mp hmarker
    by_cases hp : p old
    · refine ⟨h.now, by rw [revoke_of_pos hp], fun revocation hr _ => ?_⟩
      rcases hmem revocation hr with hr | ⟨_, _, _, _, _, rfl⟩
      · exact hs.past revocation hr
      · exact le_rfl
    · rw [revoke_of_neg hp] at hrevoked ⊢
      obtain ⟨at', hat, hlatest⟩ := hs.latest old hold hrevoked
      refine ⟨at', hat, fun revocation hr hexecutor => ?_⟩
      rcases hmem revocation hr with hr | ⟨other, hother, hpother, _, _, rfl⟩
      · exact hlatest revocation hr hexecutor
      · exact absurd (Table.eq_of_key_eq hother hold hexecutor ▸ hpother) hp
  · intro revocation hr
    rcases hmem revocation hr with hr | ⟨_, _, _, _, _, rfl⟩
    · exact hs.past revocation hr
    · exact le_rfl
  · intro revocation hr
    rcases hmem revocation hr with hr | ⟨marker, hmarker, -, report, hreport, rfl⟩
    · exact hs.known revocation hr
    · obtain ⟨other, hother, hexecutor⟩ := hs.stored marker hmarker
      obtain rfl : report = other := Option.some.inj (hreport.symm.trans hother)
      obtain ⟨admission, hadmission, -⟩ := Option.bind_eq_some_iff.mp hreport
      refine ⟨?_, hexecutor⟩
      show (h.store.admissions.find? marker.admissionId).isSome
      rw [hadmission]
      rfl
  · intro revocation hr
    rcases hmem revocation hr with hr | ⟨marker, hmarker, hp, report, hreport, rfl⟩
    · obtain ⟨marker, hmarker, hid, hshows⟩ := hs.shown revocation hr
      refine ⟨_, Table.mem_rewrite.mpr ⟨marker, hmarker, rfl⟩, (hkeeps marker).trans hid,
        fun hsame => ?_⟩
      rw [revoke_admissionId] at hsame
      rw [hrests]
      refine ⟨?_, (hshows hsame).2⟩
      by_cases hp : p marker
      · rw [revoke_of_pos hp]
      · rw [revoke_of_neg hp]
        exact (hshows hsame).1
    · refine ⟨_, Table.mem_rewrite.mpr ⟨marker, hmarker, rfl⟩, hkeeps marker, fun _ => ?_⟩
      exact ⟨by rw [revoke_of_pos hp], by rw [hrests, hreport]⟩
  · intro marker hmarker hlive
    obtain ⟨old, hold, rfl⟩ := Table.mem_rewrite.mp hmarker
    have hp : ¬ p old := by
      intro hp
      rw [revoke_of_pos hp] at hlive
      exact hlive rfl
    rw [revoke_of_neg hp] at hlive ⊢
    obtain ⟨report, hreport, hlaw⟩ := hs.lawful old hold hlive
    refine ⟨report, hreport, fun revocation hr => ?_⟩
    rcases hmem revocation hr with hr | ⟨other, hother, hpother, found, hfound, rfl⟩
    · exact hlaw revocation hr
    · -- a marker just revoked is of another executor, and so is its report
      have hne : other.executorId ≠ old.executorId := fun heq =>
        hp (Table.eq_of_key_eq hother hold heq ▸ hpother)
      refine ⟨?_, fun heq => absurd heq hne⟩
      rintro rfl
      obtain ⟨a, ha, haof⟩ := hs.stored other hother
      obtain ⟨b, hb, hbof⟩ := hs.stored old hold
      rw [hfound, Option.some.injEq] at ha
      rw [hreport, Option.some.injEq] at hb
      rw [← ha] at haof
      rw [← hb, haof, Option.some.injEq] at hbof
      exact hne hbof

theorem Sound.step (hs : h.Sound) {event : Event} (hevent : h.Fresh event) :
    (h.step event).Sound := by
  have hgrows : ∀ s : AdmissionStore, s.Grows s := fun _ => ⟨fun _ _ h => h, fun _ _ h => h,
    fun _ _ h => h⟩
  cases event with
  | elapse microseconds =>
    exact hs.grow (le_add_of_nonneg_right (Int.natCast_nonneg _)) (hgrows _) rfl rfl
  | putReport report =>
    have hg : h.store.Grows (h.store.putReport report) :=
      ⟨fun _ _ => AdmissionStore.report?_putReport,
        fun _ _ => AdmissionStore.plan?_putReport.trans,
        fun id _ => (congrArg (·.find? id) AdmissionStore.admissions_putReport).trans⟩
    exact hs.grow le_rfl hg AdmissionStore.markers_putReport rfl
  | putPlan plan =>
    have hg : h.store.Grows (h.store.putPlan plan) :=
      ⟨fun _ _ => AdmissionStore.report?_putPlan.trans,
        fun _ _ => AdmissionStore.plan?_putPlan,
        fun id _ => (congrArg (·.find? id) AdmissionStore.admissions_putPlan).trans⟩
    exact hs.grow le_rfl hg AdmissionStore.markers_putPlan rfl
  | writeJobs jobs =>
    have hg : h.store.Grows { h.store with jobs := jobs } :=
      ⟨fun _ _ h => h, fun _ _ h => h, fun _ _ h => h⟩
    exact hs.grow le_rfl hg rfl rfl
  | admitReport call => exact hs.admitReport hevent
  | revoke authorizationId => exact hs.revoking _
  | revokeAdmission executorId => exact hs.revoking _
  | markDeadWorker assessmentId alive =>
    unfold History.step
    dsimp only
    split
    · have hg : h.store.Grows (h.store.setJob assessmentId JobRow.disappeared) :=
        ⟨fun _ _ h => h, fun _ _ h => h, fun _ _ h => h⟩
      have hdead : History.Sound
          { h with store := h.store.setJob assessmentId JobRow.disappeared } :=
        hs.grow le_rfl hg rfl rfl
      exact hdead.revoking _
    · exact hs

end Events

end History

/-! ## Runs -/

/-- In every run of admissions and revocations whose admissions are fresh where their marker does not
show it, every unrevoked admission rests on fresh evidence. -/
theorem unrevoked_is_fresh (now : Int) (events : List Event)
    (hevents : Admissible History.step History.Fresh (.start now) events) :
    (run History.step (.start now) events).Lawful := by
  have hs : (run History.step (.start now) events).Sound :=
    run_invariant_of_admissible (fun _ _ hs hevent => hs.step hevent) (.start now) hevents
  exact hs.lawful

/-- A report on a candidate, of a campaign and an instant. -/
def reportOf (reportId campaignDigest : String) (createdAt : Int) : AssessmentReport :=
  ⟨reportId, "sha256:" ++ reportId, "plan", campaignDigest, createdAt⟩

def admitted (report : AssessmentReport) (admissionId : String) : List Event :=
  [.putPlan ⟨"plan", "sha256:plan", "candidate", "grant"⟩, .putReport report,
    .admitReport ⟨report.reportId, .ok (), .ok true, admissionId, .ok ()⟩]

instance (h : History) : Decidable h.Lawful :=
  decidable_of_iff (∀ marker ∈ h.store.markers, ¬ marker.revoked →
      ∃ report ∈ h.store.restsOn marker, ∀ revocation ∈ h.revocations, revocation.report ≠ report ∧
        (revocation.executorId = marker.executorId →
          revocation.report.campaignDigest ≠ report.campaignDigest ∧
            revocation.revokedAt < report.createdAt)) (by simp [History.Lawful])

/-- A revoked admission, and a fresh one after it. -/
theorem unrevoked_is_fresh_of_two :
    (run History.step (.start 0) (admitted (reportOf "first" "campaign-1" 0) "admission-1" ++
      [.revokeAdmission "candidate", .elapse 1] ++
      admitted (reportOf "second" "campaign-2" 1) "admission-2")).Lawful :=
  unrevoked_is_fresh 0 _ (by decide +kernel)

/-- The admission that follows a revocation clears the marker, and the revoked report is admitted
again. -/
theorem revoked_report_admitted_again :
    ¬ (run History.step (.start 0) (admitted (reportOf "first" "campaign-1" 0) "admission-1" ++
      [.revokeAdmission "candidate", .elapse 1] ++
      admitted (reportOf "second" "campaign-2" 1) "admission-2" ++
      [.admitReport ⟨"first", .ok (), .ok true, "admission-3", .ok ()⟩])).Lawful := by
  decide +kernel

end AeepRouter.Admission

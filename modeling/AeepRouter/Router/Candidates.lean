import AeepRouter.Stack.Goal

/-!
# Candidate routes

A candidate is ingested disabled, qualified by a campaign, activated and suspended. A qualification
takes a copy of the candidate before its trials and writes the copy back after them, whatever has
happened to the candidate since.

`Lifecycle` counts the calls and remembers when the candidate was last suspended or drifted.
`enabled_route_is_qualified` holds of the runs in which no qualification writes back over an enabled
route, or passes over a suspension or a drift.
-/

namespace AeepRouter.Candidates

open Lib

/-- The part of an executor that `behavior_fingerprint` covers. -/
structure Behavior where
  kind : Stack.ExecutorKind
  /-- Schemas, configuration, validators and the other fields, as canonical text. -/
  payload : String
  sideEffect : SideEffect
  idempotent : Bool
  safeToAutoExecute : Bool
  deriving DecidableEq

structure ExecutorSpec extends Behavior where
  enabled : Bool
  deriving DecidableEq

inductive RouteLifecycle where
  | candidate
  | qualified
  | active
  | suspended
  deriving DecidableEq, Repr

inductive QualificationCondition where
  | processCold
  | routerWarm
  deriving DecidableEq, Repr

structure RouteCandidate where
  candidateId : String
  sourceId : String
  behaviorFingerprint : String
  status : RouteLifecycle
  spec : ExecutorSpec
  qualificationReportId : Option String
  reason : Option String
  deriving DecidableEq

structure QualificationReport where
  reportId : String
  candidateId : String
  behaviorFingerprint : String
  dynamicRuns : ℕ
  passedRuns : ℕ
  passed : Bool
  deriving DecidableEq, Repr

/-- What the package computes elsewhere. -/
structure Reviewer where
  /-- The SHA-256 digest of the canonical text of a behavior. -/
  digest : Behavior → String
  /-- `require_static_qualification`. -/
  staticChecks : ExecutorSpec → Result Unit

variable (reviewer : Reviewer)

def behaviorFingerprint (spec : ExecutorSpec) : String := reviewer.digest spec.toBehavior

/-- The arguments of `qualify_candidate`. -/
structure QualifyCall where
  sideEffect : SideEffect
  idempotent : Bool
  safeToAutoExecute : Bool
  cases : ℕ
  repetitions : ℕ
  conditions : List QualificationCondition

/-- A qualification whose trials run: the copy of the candidate, and the executor they run. -/
structure Qualification where
  id : ℕ
  candidate : RouteCandidate
  spec : ExecutorSpec
  startedAt : ℕ
  deriving DecidableEq

structure Lifecycle where
  clock : ℕ
  candidate : Option RouteCandidate
  /-- `registry.get`. -/
  route : Option ExecutorSpec
  reports : Table QualificationReport (·.reportId)
  running : Table Qualification (·.id)
  /-- When the qualification of each report started. -/
  starts : List (String × ℕ)
  /-- The last suspension, or ingestion with drift. -/
  barrier : ℕ

namespace Lifecycle

variable (s : Lifecycle)

/-- Nothing is known of the id. -/
def start : Lifecycle := ⟨1, none, none, ∅, ∅, [], 0⟩

/-- `registry.get(…).enabled = False`, where the registry has the route. -/
def disableRoute : Lifecycle := { s with route := s.route.map ({ · with enabled := false }) }

/-! ## Ingesting -/

/-- The executor of a new candidate. -/
def quarantined (spec : ExecutorSpec) : ExecutorSpec :=
  { spec with
    enabled := false
    safeToAutoExecute := false
    idempotent := false
    sideEffect := .financial }

/-- The executor of a candidate that is known, with the reviewed flags of the stored one. -/
def RouteCandidate.revised (existing : RouteCandidate) (spec : ExecutorSpec) : ExecutorSpec :=
  { spec with
    enabled := false
    sideEffect := existing.spec.sideEffect
    idempotent := existing.spec.idempotent
    safeToAutoExecute := existing.spec.safeToAutoExecute }

def ingestCandidate (spec : ExecutorSpec) (sourceId candidateId : String) : Result Lifecycle :=
  match s.candidate with
  | none => do
    refuseIf s.route.isSome "candidate collides with a trusted route"
    let spec := quarantined spec
    pure { s with
      candidate := some ⟨candidateId, sourceId, behaviorFingerprint reviewer spec, .candidate, spec,
        none, none⟩ }
  | some existing => do
    refuseIf (existing.sourceId ≠ sourceId) "candidate collides with source"
    let spec := RouteCandidate.revised existing spec
    if behaviorFingerprint reviewer spec = existing.behaviorFingerprint then pure s
    else pure { s.disableRoute with
      candidate := some { existing with
        spec := spec
        behaviorFingerprint := behaviorFingerprint reviewer spec
        status := .suspended
        qualificationReportId := none
        reason := some "behavior fingerprint drift" }
      barrier := s.clock }

/-! ## Qualifying -/

def QualifyCall.reviewed (call : QualifyCall) (spec : ExecutorSpec) : ExecutorSpec :=
  { spec with
    sideEffect := call.sideEffect
    idempotent := call.idempotent
    safeToAutoExecute := call.safeToAutoExecute
    enabled := false }

/-- `qualify_candidate`, up to its trials. -/
def beginQualification (call : QualifyCall) (id : ℕ) : Result Lifecycle := do
  let candidate ← demand s.candidate "unknown candidate"
  refuseIf (candidate.status = .active) "suspend an active route before requalification"
  refuseIf (call.repetitions < 1 ∨ 1000 < call.repetitions)
    "qualification repetitions must be between 1 and 1000"
  refuseIf (¬ call.conditions.Nodup) "duplicate qualification condition"
  refuseIf (call.cases = 0) "qualification requires at least one canonical case"
  let spec := QualifyCall.reviewed call candidate.spec
  refuseIf (spec.kind ∈ [.python, .managedHost])
    "external Python or managed-host candidates cannot be qualified in-process from packages"
  reviewer.staticChecks spec
  pure { s with running := s.running.insert ⟨id, candidate, spec, s.clock⟩ }

def Qualification.report (q : Qualification) (reportId : String) (runs : List Bool) :
    QualificationReport where
  reportId := reportId
  candidateId := q.candidate.candidateId
  behaviorFingerprint := behaviorFingerprint reviewer q.spec
  dynamicRuns := runs.length
  passedRuns := runs.count true
  passed := runs.count true = runs.length

def Qualification.candidateAfter (q : Qualification) (report : QualificationReport) :
    RouteCandidate :=
  if report.passed then
    { q.candidate with
      spec := q.spec
      behaviorFingerprint := report.behaviorFingerprint
      status := .qualified
      qualificationReportId := some report.reportId
      reason := none }
  else
    { q.candidate with
      status := if q.candidate.status = .candidate then .candidate else .suspended
      spec := { q.candidate.spec with enabled := false }
      qualificationReportId := none
      reason := some "qualification failed" }

/-- The rest of `qualify_candidate`, after the trials. -/
def endQualification (id : ℕ) (reportId : String) (runs : List Bool) : Result Lifecycle := do
  let q ← demand (s.running.find? id) "no such qualification runs"
  raiseIf (s.reports.find? reportId).isSome .integrity
  let report := Qualification.report reviewer q reportId runs
  pure { s with
    reports := s.reports.insert report
    starts := s.starts ++ [(reportId, q.startedAt)]
    candidate := some (Qualification.candidateAfter q report)
    running := s.running.erase id }

/-! ## Activating and suspending -/

def requireCandidateQualification (candidate : RouteCandidate)
    (report : Option QualificationReport) : Result QualificationReport := do
  let report ← demand report "qualification evidence does not match candidate fingerprint"
  refuseIf (¬ report.passed ∨ report.behaviorFingerprint ≠ candidate.behaviorFingerprint ∨
      behaviorFingerprint reviewer candidate.spec ≠ candidate.behaviorFingerprint)
    "qualification evidence does not match candidate fingerprint"
  pure report

def activateCandidate : Result Lifecycle := do
  let candidate ← demand (s.candidate.filter (·.status = .qualified))
    "candidate must be qualified before activation"
  let report ← requireCandidateQualification reviewer candidate
    (candidate.qualificationReportId.bind s.reports.find?)
  let spec := { candidate.spec with enabled := true }
  pure { s with
    candidate := some { candidate with
      status := .active
      spec := spec
      qualificationReportId := some report.reportId }
    route := some spec }

def suspendCandidate (reason : String) : Result Lifecycle := do
  let candidate ← demand s.candidate "unknown candidate"
  pure { s.disableRoute with
    candidate := some { candidate with
      status := .suspended
      spec := { candidate.spec with enabled := false }
      reason := some reason }
    barrier := s.clock }

/-! ## Runs -/

inductive Event where
  | ingest (spec : ExecutorSpec) (sourceId candidateId : String)
  | beginQualification (call : QualifyCall) (id : ℕ)
  /-- With whether each run of the campaign was valid. -/
  | endQualification (id : ℕ) (reportId : String) (runs : List Bool)
  | activate
  | suspend (reason : String)

def exec : Event → Result Lifecycle
  | .ingest spec sourceId candidateId => s.ingestCandidate reviewer spec sourceId candidateId
  | .beginQualification call id => Lifecycle.beginQualification reviewer s call id
  | .endQualification id reportId runs => Lifecycle.endQualification reviewer s id reportId runs
  | .activate => s.activateCandidate reviewer
  | .suspend reason => s.suspendCandidate reason

def step (s : Lifecycle) (event : Event) : Lifecycle :=
  let next := (s.exec reviewer event).toOption.getD s
  { next with clock := next.clock + 1 }

def enabled : Prop := ∃ spec ∈ s.route, spec.enabled

instance : Decidable s.enabled := by unfold enabled; infer_instance

/-- Whether the qualification of a report started after the last suspension or drift. -/
def Fresh (reportId : String) : Prop := ∃ startedAt, (reportId, startedAt) ∈ s.starts ∧
  s.barrier < startedAt

/-- An enabled route is that of an active candidate, with a report that passed, names the fingerprint
of the registered executor, and is of a qualification that started after every suspension and every
drift. -/
def Lawful : Prop :=
  ∀ spec ∈ s.route, spec.enabled → ∃ candidate, s.candidate = some candidate ∧
    candidate.status = .active ∧ ∃ report ∈ s.reports,
      candidate.qualificationReportId = some report.reportId ∧ report.passed ∧
      report.behaviorFingerprint = behaviorFingerprint reviewer spec ∧ s.Fresh report.reportId

/-- A qualification ends over a route that is disabled; and when it has passed, no suspension and no
drift came after its start. -/
def Undisturbed : Event → Prop
  | .endQualification id _ runs => ∀ q ∈ s.running.find? id,
    ¬ s.enabled ∧ (runs.count true = runs.length → s.barrier < q.startedAt)
  | _ => True

instance : DecidableRel Undisturbed := fun _ event => by
  cases event <;> unfold Undisturbed <;> infer_instance

/-! ## The invariant -/

variable {reviewer} {s} {s' : Lifecycle}

/-- What every call keeps. -/
structure Sound (reviewer : Reviewer) (s : Lifecycle) : Prop where
  lawful : s.Lawful reviewer
  /-- The report of a qualified candidate is fresh. -/
  qualified : ∀ candidate ∈ s.candidate, candidate.status = .qualified →
    ∀ reportId ∈ candidate.qualificationReportId, s.Fresh reportId
  past : s.barrier < s.clock

theorem Sound.start : Sound reviewer start where
  lawful _ h := absurd h (Option.not_mem_none _)
  qualified _ h := absurd h (Option.not_mem_none _)
  past := Nat.zero_lt_one

theorem not_enabled_disableRoute : ¬ s.disableRoute.enabled := by
  rintro ⟨spec, hspec, henabled⟩
  obtain ⟨old, -, rfl⟩ := Option.map_eq_some_iff.mp hspec
  cases henabled

/-- A route that is disabled meets the law. -/
theorem lawful_of_not_enabled (h : ¬ s.enabled) : s.Lawful reviewer :=
  fun spec hspec henabled => absurd ⟨spec, hspec, henabled⟩ h

/-- The time of the next call may be later. -/
theorem Sound.tick (hs : Sound reviewer s) {clock : ℕ} (h : s.clock ≤ clock) :
    Sound reviewer { s with clock := clock } :=
  ⟨hs.lawful, hs.qualified, hs.past.trans_le h⟩

theorem Sound.ingest (hs : Sound reviewer s) {spec : ExecutorSpec} {sourceId candidateId : String}
    (h : s.ingestCandidate reviewer spec sourceId candidateId = .ok s') :
    Sound reviewer { s' with clock := s'.clock + 1 } := by
  unfold ingestCandidate at h
  split at h
  · simp only [bind_ok, raiseIf_ok, pure_ok, exists_const, Bool.not_eq_true,
      Option.isSome_eq_false_iff, Option.isNone_iff_eq_none] at h
    obtain ⟨hroute, rfl⟩ := h
    refine ⟨lawful_of_not_enabled ?_, ?_, Nat.lt_succ_of_lt hs.past⟩
    · rintro ⟨other, hother, -⟩
      rw [show s.route = none from hroute] at hother
      cases hother
    · rintro candidate hcandidate hstatus
      obtain rfl := Option.some.inj hcandidate
      cases hstatus
  · simp only [bind_ok, raiseIf_ok, exists_const] at h
    obtain ⟨-, h⟩ := h
    split at h
    · cases h
      exact hs.tick (Nat.le_succ _)
    · cases h
      refine ⟨lawful_of_not_enabled not_enabled_disableRoute, ?_, Nat.lt_succ_self _⟩
      rintro candidate hcandidate hstatus
      obtain rfl := Option.some.inj hcandidate
      cases hstatus

theorem Sound.begin (hs : Sound reviewer s) {call : QualifyCall} {id : ℕ}
    (h : beginQualification reviewer s call id = .ok s') :
    Sound reviewer { s' with clock := s'.clock + 1 } := by
  simp only [beginQualification, bind_ok, require_ok, raiseIf_ok, pure_ok, exists_const] at h
  obtain ⟨candidate, -, -, -, -, -, -, -, -, rfl⟩ := h
  exact ⟨hs.lawful, hs.qualified, Nat.lt_succ_of_lt hs.past⟩

theorem Sound.end (hs : Sound reviewer s) {id : ℕ} {reportId : String} {runs : List Bool}
    (hevent : s.Undisturbed (.endQualification id reportId runs))
    (h : endQualification reviewer s id reportId runs = .ok s') :
    Sound reviewer { s' with clock := s'.clock + 1 } := by
  simp only [endQualification, bind_ok, require_ok, raiseIf_ok, pure_ok, exists_const] at h
  obtain ⟨q, hq, -, rfl⟩ := h
  obtain ⟨hdisabled, hfresh⟩ := hevent q hq
  refine ⟨lawful_of_not_enabled hdisabled, ?_, Nat.lt_succ_of_lt hs.past⟩
  rintro candidate hcandidate hstatus reportId' hreportId
  obtain rfl := Option.some.inj hcandidate
  unfold Qualification.candidateAfter at hstatus hreportId
  split at hstatus
  next hpassed =>
    -- the report of the candidate is the one just written
    rw [if_pos hpassed] at hreportId
    obtain rfl := Option.some.inj hreportId
    refine ⟨q.startedAt, List.mem_append_right _ (List.mem_singleton_self _), hfresh ?_⟩
    simpa [Qualification.report] using hpassed
  next =>
    dsimp only at hstatus
    split at hstatus <;> cases hstatus

theorem Sound.activate (hs : Sound reviewer s) (h : s.activateCandidate reviewer = .ok s') :
    Sound reviewer { s' with clock := s'.clock + 1 } := by
  simp only [activateCandidate, requireCandidateQualification, bind_ok, require_ok, raiseIf_ok,
    pure_ok, exists_const, not_or, not_not] at h
  obtain ⟨candidate, hcandidate, report, ⟨found, hfound, ⟨hpassed, hreport, hspec⟩, rfl⟩, rfl⟩ := h
  obtain ⟨hstored, hqualified⟩ := Option.filter_eq_some_iff.mp hcandidate
  obtain ⟨reportId, hid, hreports⟩ := Option.bind_eq_some_iff.mp hfound
  have hkey : found.reportId = reportId := Table.key_of_find? hreports
  refine ⟨?_, ?_, Nat.lt_succ_of_lt hs.past⟩
  · rintro spec hroute -
    obtain rfl := Option.some.inj hroute
    refine ⟨_, rfl, rfl, found, Table.mem_of_find? hreports, rfl, hpassed, ?_, ?_⟩
    · rw [hreport, ← hspec]
      rfl
    · rw [hkey]
      exact hs.qualified candidate hstored (of_decide_eq_true hqualified) reportId hid
  · rintro other hother hstatus
    obtain rfl := Option.some.inj hother
    cases hstatus

theorem Sound.suspend {reason : String} (h : s.suspendCandidate reason = .ok s') :
    Sound reviewer { s' with clock := s'.clock + 1 } := by
  simp only [suspendCandidate, bind_ok, require_ok, pure_ok] at h
  obtain ⟨candidate, -, rfl⟩ := h
  refine ⟨lawful_of_not_enabled not_enabled_disableRoute, ?_, Nat.lt_succ_self _⟩
  rintro other hother hstatus
  obtain rfl := Option.some.inj hother
  cases hstatus

theorem Sound.step (hs : Sound reviewer s) {event : Event} (hevent : s.Undisturbed event) :
    Sound reviewer (step reviewer s event) := by
  unfold Lifecycle.step
  cases h : s.exec reviewer event with
  | error e => exact hs.tick (Nat.le_succ _)
  | ok s' =>
    cases event with
    | ingest spec sourceId candidateId => exact hs.ingest h
    | beginQualification call id => exact hs.begin h
    | endQualification id reportId runs => exact hs.end hevent h
    | activate => exact hs.activate h
    | suspend reason => exact Sound.suspend h

end Lifecycle

/-! ## Runs -/

/-- In every run whose qualifications end over a disabled route, and pass over no suspension and no
drift, an enabled route is that of an active candidate with a fresh report on its executor. -/
theorem enabled_route_is_qualified (reviewer : Reviewer) (events : List Lifecycle.Event)
    (hevents : Admissible (Lifecycle.step reviewer) Lifecycle.Undisturbed .start events) :
    (run (Lifecycle.step reviewer) .start events).Lawful reviewer := by
  have hs : Lifecycle.Sound reviewer (run (Lifecycle.step reviewer) .start events) :=
    run_invariant_of_admissible (fun _ _ hs hevent => hs.step hevent) Lifecycle.Sound.start hevents
  exact hs.lawful

/-- A reviewer to whom the text of a behavior is its digest, and who accepts every executor. -/
def plainReviewer : Reviewer := ⟨(·.payload), fun _ => .ok ()⟩

def command : ExecutorSpec := ⟨⟨.command, "payload", .read, true, true⟩, true⟩

def oneCase : QualifyCall := ⟨.read, true, true, 1, 1, [.processCold]⟩

open Lifecycle.Event in
def activated : List Lifecycle.Event :=
  [ingest command "source" "candidate", beginQualification oneCase 1,
    endQualification 1 "report" [true], activate]

theorem enabled_route_is_qualified_of_activated :
    (run (Lifecycle.step plainReviewer) .start activated).Lawful plainReviewer :=
  enabled_route_is_qualified plainReviewer activated (by decide +kernel)

open Lifecycle.Event in
/-- A second qualification, begun before the activation, fails over the enabled route; and one begun
before a suspension undoes it. -/
theorem disturbed_route :
    ¬ (run (Lifecycle.step plainReviewer) .start
      [ingest command "source" "candidate", beginQualification oneCase 1,
        beginQualification oneCase 2, endQualification 1 "report" [true], activate,
        endQualification 2 "second" [false]]).Lawful plainReviewer ∧
    ¬ (run (Lifecycle.step plainReviewer) .start
      [ingest command "source" "candidate", beginQualification oneCase 1, suspend "revoked",
        endQualification 1 "report" [true], activate]).Lawful plainReviewer := by
  refine ⟨fun h => ?_, fun h => ?_⟩
  · obtain ⟨candidate, hcandidate, hactive, -⟩ := h command (by decide +kernel) rfl
    have hstatus := congrArg (Option.map (·.status)) hcandidate
    rw [Option.map_some, hactive] at hstatus
    exact absurd hstatus (by decide +kernel)
  · obtain ⟨-, -, -, report, -, -, -, -, startedAt, hstart, hlate⟩ := h command (by decide +kernel) rfl
    have hearly : ∀ start ∈ (run (Lifecycle.step plainReviewer) .start
        [ingest command "source" "candidate", beginQualification oneCase 1, suspend "revoked",
          endQualification 1 "report" [true], activate]).starts, start.2 ≤ 3 := by decide +kernel
    have hbarrier : (run (Lifecycle.step plainReviewer) .start
        [ingest command "source" "candidate", beginQualification oneCase 1, suspend "revoked",
          endQualification 1 "report" [true], activate]).barrier = 3 := by decide +kernel
    have := hearly _ hstart
    omega

end AeepRouter.Candidates

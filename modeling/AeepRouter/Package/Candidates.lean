import Mathlib.Data.List.Sort
import Mathlib.Data.String.Basic
import AeepRouter.Package.Ingest

/-!
# Smoke runs and qualification from evidence

A candidate of a package is smoke tested (`smokeCandidate`), suspended (`suspendCandidate`) and
qualified by the evidence that ingests accepted (`qualifyCandidateFromEvidence`). What the executor of
a route does and what its definition says are given (`Runtime`, `SmokeRun`).
-/

namespace AeepRouter.Package

open Lib
open Trust (TrustStore)

/-! ## Records -/

inductive SmokeMode where
  | cold
  | warm
  deriving DecidableEq, Repr

/-- The `mode` of a smoke test definition. -/
inductive SmokeOrder where
  | cold
  | warm
  | coldThenWarm
  deriving DecidableEq, Repr

structure SmokeSettings where
  order : SmokeOrder
  maxExecutions : ℕ
  maxTokens : Option ℕ
  maxCash : Option CurrencyAmount
  deriving DecidableEq

structure SmokeTestReport where
  smokeReportId : String
  candidateId : String
  routeFingerprint : String
  smokeDefinitionId : String
  environmentDigest : String
  mode : SmokeMode
  status : SmokeStatus
  startedAt : Int
  finishedAt : Int
  executionReceiptId : Option String
  failureCode : Option String
  deriving DecidableEq, Repr

/-- A report whose method is `evidence_reuse`: one case, that passed. -/
structure QualificationReport where
  reportId : String
  candidateId : String
  behaviorFingerprint : String
  staticChecks : List (String × Bool)
  sourceEvidenceIds : List String
  smokeReportIds : List String
  effectiveTrust : TrustLevel
  environmentDigest : String
  createdAt : Int
  deriving DecidableEq, Repr

/-- The tables of the packages, with the reports about their candidates. -/
structure CandidateStore extends PackageStore where
  smokes : Table SmokeTestReport (·.smokeReportId)
  qualifications : Table QualificationReport (·.reportId)
  deriving DecidableEq

def CandidateStore.empty : CandidateStore := ⟨.empty, ∅, ∅⟩

/-- What the texts of routes and smoke tests say. -/
structure Runtime where
  /-- Whether a route is idempotent and does no more than read. -/
  readOnly : PublishedProviderRoute → Bool
  runtimeIdentityMatches : PublishedProviderRoute → String → Bool
  /-- The spec of a route that may be executed automatically. -/
  automaticSpec : PublishedProviderRoute → String → String
  disabledSpec : String → String
  staticQualificationChecks : String → List (String × Bool)
  smokeSettings : SmokeTestDefinition → SmokeSettings
  smokeEnvironment : String → String
  settlementCurrency : String

structure SmokeExecution where
  smokeReportId : String
  receiptId : String
  startedAt : Int
  endedAt : Int
  succeeded : Bool
  outputValid : Option Bool
  taskValid : Bool
  /-- Whether it kept the timeout, as floating point numbers compare. -/
  inTime : Bool
  tokens : ℕ
  cash : Option ℚ
  deriving DecidableEq

/-- The executions of a smoke test, by their number, with what was read from the clock after them. -/
structure SmokeRun where
  execution : ℕ → Result SmokeExecution
  snapshotId : String
  now : Int

/-! ## Suspension -/

variable (env : Environment) (runtime : Runtime)

def suspendCandidate (executorId reason : String) (now : Int) (s : CandidateStore) :
    Result (RouteCandidate × CandidateStore) := do
  let candidate ← demand (s.candidates.find? executorId) ("unknown candidate '" ++ executorId ++ "'")
  let suspended := { candidate with
    status := .suspended
    spec := runtime.disabledSpec candidate.spec
    reason := some reason
    updatedAt := now }
  pure (suspended, { s with candidates := s.candidates.assign suspended })

/-! ## Smoke runs -/

/-- What a smoke run is about. -/
structure SmokeSubject where
  candidate : RouteCandidate
  snapshot : CandidateVerificationSnapshot
  package : ProviderPackage
  definition : SmokeTestDefinition
  route : PublishedProviderRoute

/-- `smoke_candidate`, before it compares fingerprints. -/
def smokeSubject (executorId : String) (s : CandidateStore) : Result SmokeSubject := do
  let candidate ← demand (s.candidates.find? executorId) "smoke requires a provider-package candidate"
  refuseIf (candidate.status ≠ .candidate ∧ candidate.status ≠ .suspended)
    "smoke requires a non-active candidate"
  let snapshot ← demand (s.snapshots.find? candidate.verificationSnapshotId)
    "candidate package verification is unavailable"
  let row ← demand (s.packages.find? candidate.packageDigest)
    "candidate package verification is unavailable"
  refuseIf (snapshot.fingerprintMatched = false ∨ snapshot.artifactsVerified = false)
    "candidate verification blocks smoke execution"
  let definition ← demand (row.package.smokeTests.find? (·.routeId = executorId))
    "candidate package does not define a smoke test"
  let route ← require (row.package.routes.find? (·.routeId = executorId)) .fault
  refuseIf (runtime.readOnly route = false)
    "automatic smoke is restricted to read-only idempotent routes"
  pure ⟨candidate, snapshot, row.package, definition, route⟩

def SmokeSettings.modes (settings : SmokeSettings) : List SmokeMode :=
  let modes : List SmokeMode := match settings.order with
    | .coldThenWarm => [.cold, .warm]
    | .warm => [.warm]
    | .cold => [.cold]
  modes.take settings.maxExecutions

def SmokeExecution.passed (execution : SmokeExecution) (settings : SmokeSettings) (currency : String) :
    Bool :=
  execution.succeeded ∧ execution.outputValid ≠ some false ∧ execution.taskValid ∧ execution.inTime ∧
    (∀ limit ∈ settings.maxTokens, execution.tokens ≤ limit) ∧
    ∀ limit ∈ settings.maxCash, limit.currency = currency ∧ ∃ cash ∈ execution.cash, cash ≤ limit.amount

def requireStaticQualification (spec : String) : Result (List (String × Bool)) := do
  let checks := runtime.staticQualificationChecks spec
  let failed := (checks.filter (!·.2)).map (·.1)
  refuseIf (failed ≠ []) ("route failed static qualification: " ++ String.intercalate ", " failed)
  pure checks

namespace SmokeSubject

variable (subject : SmokeSubject)

def spec : String := runtime.automaticSpec subject.route subject.package.providerId

def report (mode : SmokeMode) (execution : SmokeExecution) : SmokeTestReport :=
  let passed := execution.passed (runtime.smokeSettings subject.definition) runtime.settlementCurrency
  { smokeReportId := execution.smokeReportId
    candidateId := subject.candidate.executorId
    routeFingerprint := subject.candidate.packageFingerprint
    smokeDefinitionId := subject.definition.smokeId
    environmentDigest := runtime.smokeEnvironment (subject.spec runtime)
    mode := mode
    status := if passed then .passed else .failed
    startedAt := execution.startedAt
    finishedAt := execution.endedAt
    executionReceiptId := some execution.receiptId
    failureCode := if passed then none else some "smoke_failed" }

/-- The executions, up to one that raises. -/
def reports (run : SmokeRun) : Result (List SmokeTestReport) := do
  let _ ← requireStaticQualification runtime (subject.spec runtime)
  (runtime.smokeSettings subject.definition).modes.zipIdx.mapM fun (mode, index) => do
    let execution ← run.execution (index + 1)
    pure (subject.report runtime mode execution)

def allPassed (reports : List SmokeTestReport) : Bool := reports.all (·.status = .passed)

def updatedSnapshot (run : SmokeRun) (reports : List SmokeTestReport) : CandidateVerificationSnapshot :=
  { subject.snapshot with
    snapshotId := run.snapshotId
    smokeStatus := if allPassed reports then .passed else .failed
    blockingReasons :=
      if allPassed reports then subject.snapshot.blockingReasons.filter (· ≠ "smoke_required")
      else subject.snapshot.blockingReasons ++ ["smoke_failed"]
    createdAt := run.now }

def updatedCandidate (run : SmokeRun) (reports : List SmokeTestReport) : RouteCandidate :=
  { subject.candidate with
    verificationSnapshotId := run.snapshotId
    updatedAt := run.now
    status := if allPassed reports then subject.candidate.status else .suspended
    reason := if allPassed reports then subject.candidate.reason else some "smoke failed" }

end SmokeSubject

def saveSmokeCandidateResult (reports : List SmokeTestReport) (snapshot : CandidateVerificationSnapshot)
    (candidate : RouteCandidate) (s : CandidateStore) : Result CandidateStore := do
  let smokes ← s.smokes.retainAll id (.configuration "smoke report ID conflicts with prior content")
    reports
  pure { s with
    smokes := smokes
    snapshots :=
      if (s.snapshots.find? snapshot.snapshotId).isSome then s.snapshots
      else s.snapshots.insert snapshot
    candidates := s.candidates.assign candidate }

def suspendAndRefuse (executorId reason message : String) (now : Int) (s : CandidateStore) :
    Result (List SmokeTestReport) × CandidateStore :=
  (.error (.configuration message), commit (suspendCandidate runtime executorId reason now s) s)

/-- The executions of a smoke test, and what is saved of them. -/
def runSmoke (subject : SmokeSubject) (run : SmokeRun) (s : CandidateStore) :
    Result (List SmokeTestReport × CandidateStore) := do
  let reports ← subject.reports runtime run
  let s' ← saveSmokeCandidateResult reports (subject.updatedSnapshot run reports)
    (subject.updatedCandidate run reports) s
  pure (reports, s')

def smokeCandidate (executorId : String) (run : SmokeRun) (s : CandidateStore) :
    Result (List SmokeTestReport) × CandidateStore :=
  match smokeSubject runtime executorId s with
  | .error e => (.error e, s)
  | .ok subject =>
    match env.routeFingerprint subject.route subject.package.providerId with
    | .error e => (.error e, s)
    | .ok fingerprint =>
      if fingerprint ≠ subject.candidate.packageFingerprint then
        suspendAndRefuse runtime executorId "package fingerprint drift before smoke"
          "candidate package fingerprint changed before smoke" run.now s
      else if runtime.runtimeIdentityMatches subject.route (subject.spec runtime) = false then
        suspendAndRefuse runtime executorId "runtime executable identity mismatch"
          "candidate runtime executable identity does not match" run.now s
      else
        match runSmoke runtime subject run s with
        | .error e => (.error e, s)
        | .ok (reports, s') => (.ok reports, s')

/-! ## Qualification -/

/-- `ORDER BY finished_at DESC, smoke_report_id DESC`. -/
def SmokeTestReport.Newer (a b : SmokeTestReport) : Prop :=
  b.finishedAt < a.finishedAt ∨ b.finishedAt = a.finishedAt ∧ b.smokeReportId ≤ a.smokeReportId

instance : DecidableRel SmokeTestReport.Newer := fun _ _ => inferInstanceAs (Decidable (_ ∨ _))

def latestSmokeTestReport (executorId : String) (s : CandidateStore) : Option SmokeTestReport :=
  ((s.smokes.rows.filter (·.candidateId = executorId)).insertionSort SmokeTestReport.Newer).head?

/-- `ORDER BY evaluated_at, acceptance_id`. -/
def EvidenceAcceptance.Earlier (a b : EvidenceAcceptance) : Prop :=
  a.evaluatedAt < b.evaluatedAt ∨ a.evaluatedAt = b.evaluatedAt ∧ a.acceptanceId ≤ b.acceptanceId

instance : DecidableRel EvidenceAcceptance.Earlier := fun _ _ => inferInstanceAs (Decidable (_ ∨ _))

def listEvidenceAcceptances (executorId : String) (s : PackageStore) : List EvidenceAcceptance :=
  (s.acceptances.rows.filter (·.candidateId = executorId)).insertionSort EvidenceAcceptance.Earlier

/-- Whether an acceptance lets a route qualify. -/
def EvidenceAcceptance.qualifies (item : EvidenceAcceptance) : Bool :=
  item.metric = "correctness" ∧ item.status = .accepted ∧ item.effectiveTrust.strong

def qualifyCandidateFromEvidence (executorId reportId : String) (now : Int) (s : CandidateStore) :
    Result (QualificationReport × CandidateStore) := do
  let candidate ← demand (s.candidates.find? executorId)
    "evidence reuse requires a provider-package candidate"
  refuseIf (candidate.status = .active) "suspend an active route before requalification"
  let row ← demand (s.packages.find? candidate.packageDigest)
    "candidate package/smoke evidence is incomplete"
  let snapshot ← demand (s.snapshots.find? candidate.verificationSnapshotId)
    "candidate package/smoke evidence is incomplete"
  let smoke ← demand (latestSmokeTestReport executorId s)
    "candidate package/smoke evidence is incomplete"
  let correctness := (listEvidenceAcceptances executorId s.toPackageStore).filter (·.qualifies)
  refuseIf (snapshot.fingerprintMatched = false ∨ snapshot.artifactsVerified = false ∨
      smoke.status ≠ .passed ∨ smoke.routeFingerprint ≠ candidate.packageFingerprint ∨
      correctness = [])
    "trusted exact evidence plus current smoke is required"
  let route ← require (row.package.routes.find? (·.routeId = executorId)) .fault
  refuseIf (runtime.readOnly route = false) "evidence-assisted qualification is read-only/idempotent"
  let spec := runtime.automaticSpec route row.package.providerId
  let checks ← requireStaticQualification runtime spec
  let report : QualificationReport :=
    { reportId := reportId
      candidateId := candidate.candidateId
      behaviorFingerprint := env.behaviorFingerprint spec
      staticChecks := checks
      sourceEvidenceIds := ((correctness.map (·.evidenceId)).dedup).insertionSort (· ≤ ·)
      smokeReportIds := [smoke.smokeReportId]
      effectiveTrust :=
        if correctness.any (·.effectiveTrust = .attested) then .attested else .verified
      environmentDigest := smoke.environmentDigest
      createdAt := now }
  raiseIf (s.qualifications.find? reportId).isSome .integrity
  let qualified := { candidate with
    spec := spec
    behaviorFingerprint := report.behaviorFingerprint
    status := .qualified
    qualificationReportId := some reportId
    reason := none
    updatedAt := now }
  pure (report, { s with
    qualifications := s.qualifications.insert report
    candidates := s.candidates.assign qualified })

/-! ## Steps -/

/-- What an ingest finds outside the store: the trusted keys and the artifacts. -/
structure Surroundings where
  trust : TrustStore
  resolveLocal : ArtifactReference → Except String ResolvedArtifact
  resolveHttps : ArtifactReference → Except String ResolvedArtifact

/-- The libraries, with the artifacts as they are at an ingest. -/
def Environment.at (around : Surroundings) : Environment :=
  { env with
    resolveLocal := around.resolveLocal
    resolveHttps := around.resolveHttps }

inductive CandidateCall where
  | ingest (around : Surroundings) (call : IngestCall)
  | smoke (executorId : String) (run : SmokeRun)
  | suspend (executorId reason : String) (now : Int)
  | qualify (executorId reportId : String) (now : Int)

/-- The store after a call, whether it returned or raised. -/
def step (s : CandidateStore) : CandidateCall → CandidateStore
  | .ingest around call =>
    { s with toPackageStore := (ingest (env.at around) around.trust call s.toPackageStore).store }
  | .smoke executorId run => (smokeCandidate env runtime executorId run s).2
  | .suspend executorId reason now => commit (suspendCandidate runtime executorId reason now s) s
  | .qualify executorId reportId now =>
    commit (qualifyCandidateFromEvidence env runtime executorId reportId now s) s

end AeepRouter.Package

import AeepRouter.Lib.Retention
import AeepRouter.Package.Verification

/-!
# Ingesting packages

`ingest` verifies a package, judges its evidence (`evaluate`) and publishes what it found in one
transaction (`saveProviderPackageIngest`). The rate cards it collected are saved after that, each in a
transaction of its own.
-/

namespace AeepRouter.Package

open Lib
open Trust (TrustStore)

/-! ## The store -/

structure PackageRow where
  packageDigest : String
  sourceId : String
  importedAt : Int
  identityTrust : TrustLevel
  package : ProviderPackage
  deriving DecidableEq

structure SignatureRow where
  packageDigest : String
  result : SignatureVerificationResult
  verifiedAt : Int
  deriving DecidableEq

structure ContentArtifactRow where
  artifactDigest : String
  mediaType : String
  sizeBytes : ℕ
  casPath : String
  sourceKind : String
  verifiedAt : Int
  deriving DecidableEq

structure PackageArtifactRow where
  packageDigest : String
  artifactId : String
  artifactDigest : String
  required : Bool
  result : ArtifactVerificationResult
  deriving DecidableEq

structure EvidenceRow where
  packageDigest : String
  artifactDigest : String
  effectiveTrust : TrustLevel
  evidence : EvidenceReference
  deriving DecidableEq

structure AuditRow where
  eventId : String
  packageDigest : String
  reasonCode : String
  occurredAt : Int
  deriving DecidableEq

def SignatureRow.key (row : SignatureRow) : String × String :=
  (row.packageDigest, row.result.signatureId)

def PackageArtifactRow.key (row : PackageArtifactRow) : String × String :=
  (row.packageDigest, row.artifactId)

def EvidenceRow.key (row : EvidenceRow) : String × String :=
  (row.packageDigest, row.evidence.evidenceId)

/-- The metadata two uses of one artifact digest must share. -/
def ContentArtifactRow.metadata (row : ContentArtifactRow) : String × ℕ × String :=
  (row.mediaType, row.sizeBytes, row.casPath)

/-- The tables an ingest writes. -/
structure PackageStore where
  packages : Table PackageRow (·.packageDigest)
  signatures : Table SignatureRow SignatureRow.key
  contents : Table ContentArtifactRow (·.artifactDigest)
  artifacts : Table PackageArtifactRow PackageArtifactRow.key
  evidence : Table EvidenceRow EvidenceRow.key
  acceptances : Table EvidenceAcceptance (·.acceptanceId)
  snapshots : Table CandidateVerificationSnapshot (·.snapshotId)
  candidates : Table RouteCandidate (·.executorId)
  rateCards : Table RateCardSnapshot (·.snapshotId)
  audits : Table AuditRow (·.eventId)
  deriving DecidableEq

def PackageStore.empty : PackageStore := ⟨∅, ∅, ∅, ∅, ∅, ∅, ∅, ∅, ∅, ∅⟩

/-! ## Judging a package -/

/-- The arguments of an ingest, with the package its file holds and the reading of the clock. -/
structure IngestCall where
  package : ProviderPackage
  now : Int
  sourceId : String
  allowRemoteArtifacts : Bool
  allowSelfAssertedPriors : Bool
  forbiddenExecutorIds : List String

/-- What one ingest publishes. -/
structure Evaluation where
  packageRow : PackageRow
  signatureRows : List SignatureRow
  contentRows : List ContentArtifactRow
  artifactRows : List PackageArtifactRow
  evidenceRows : List EvidenceRow
  acceptances : List EvidenceAcceptance
  snapshots : List CandidateVerificationSnapshot
  candidates : List RouteCandidate
  rateCards : List RateCardSnapshot

section Evaluate

variable (env : Environment) (trust : TrustStore) (call : IngestCall)

def atMostCurrent (version : ℕ × ℕ × ℕ) : Bool :=
  version.1 = 0 ∧ (version.2.1 < 6 ∨ version.2.1 = 6 ∧ version.2.2 = 0)

def checkCompatibility : Result Unit := do
  refuseIf (atMostCurrent call.package.aeepMin = false) "provider package requires a newer AEEP version"
  refuseIf (∃ limit ∈ call.package.aeepMaxExclusive, atMostCurrent limit)
    "provider package excludes AEEP 0.6"
  refuseIf (∃ expiresAt ∈ call.package.expiresAt, expiresAt ≤ call.now) "provider package is expired"

/-- `resolve_local` or `resolve_https`; the error is the text of what was raised. -/
def resolveArtifact (reference : ArtifactReference) : Except String ResolvedArtifact :=
  match reference.location, call.allowRemoteArtifacts with
  | .path _, _ => env.resolveLocal reference
  | .uri _, true => env.resolveHttps reference
  | _, _ => .error "artifact location is disabled by local policy"

def mentions (text word : String) : Bool := word.toList <:+: text.toList.map Char.toLower

def artifactFailure (text : String) : ArtifactStatus × String :=
  if mentions text "digest" then (.digestMismatch, "artifact_digest_mismatch")
  else if mentions text "size" ∨ mentions text "limit" ∨ mentions text "ratio" then
    (.sizeMismatch, "artifact_size_mismatch")
  else if mentions text "does not exist" ∨ mentions text "not a regular file" then
    (.missing, "artifact_unavailable")
  else if mentions text "parse" ∨ mentions text "json" ∨ mentions text "gzip" then
    (.parseFailed, "artifact_parse_failed")
  else (.blocked, "artifact_blocked")

def artifactResult (reference : ArtifactReference) : ArtifactVerificationResult :=
  match resolveArtifact env call reference with
  | .ok _ => ⟨reference.artifactId, reference.digest, .verified, none⟩
  | .error text =>
    let (status, code) := artifactFailure text
    ⟨reference.artifactId, reference.digest, status, some code⟩

def requiredArtifactFailed : Bool :=
  call.package.artifacts.any fun reference =>
    reference.required && (resolveArtifact env call reference).toOption.isNone

def resolvedArtifact (artifactId : String) : Option (ArtifactReference × ResolvedArtifact) :=
  (call.package.artifacts.find? (·.artifactId = artifactId)).bind fun reference =>
    (resolveArtifact env call reference).toOption.map fun artifact => (reference, artifact)

/-- A route with the fingerprint the ingest computes for it. -/
structure RouteFacts where
  route : PublishedProviderRoute
  fingerprint : String
  deriving DecidableEq

def RouteFacts.matched (facts : RouteFacts) : Bool :=
  facts.fingerprint = facts.route.declaredFingerprint

/-- Whether evidence is about a route as the package publishes it. -/
def RouteFacts.subjectMatches (facts : RouteFacts) (evidence : EvidenceReference) : Bool :=
  evidence.subject.capability = facts.route.capability ∧
    evidence.subject.routeFingerprint = facts.fingerprint ∧ facts.matched

def checkCollision (candidates : Table RouteCandidate (·.executorId)) (route : PublishedProviderRoute) :
    Result Unit :=
  match candidates.find? route.routeId with
  | none => refuseIf (route.routeId ∈ call.forbiddenExecutorIds)
    ("package route '" ++ route.routeId ++ "' collides with a trusted manifest route")
  | some existing => refuseIf (existing.sourceId ≠ call.sourceId)
    ("package route '" ++ route.routeId ++ "' collides with source '" ++ existing.sourceId ++ "'")

/-- A piece of evidence whose artifact was resolved, about one of the routes. -/
structure Exhibit where
  evidence : EvidenceReference
  reference : ArtifactReference
  artifact : ResolvedArtifact
  facts : RouteFacts

def exhibits (facts : List RouteFacts) : List Exhibit :=
  call.package.evidence.filterMap fun evidence => do
    let (reference, artifact) ← resolvedArtifact env call evidence.artifactId
    let route ← facts.find? (·.route.routeId = evidence.subject.routeId)
    pure ⟨evidence, reference, artifact, route⟩

namespace Exhibit

variable (exhibit : Exhibit)

def trustLevel : TrustLevel := evidenceTrust env trust call.now exhibit.evidence exhibit.reference.digest

/-- `subject_matches`, which is false when the content does not hold. -/
def matched : Bool :=
  exhibit.facts.subjectMatches exhibit.evidence &&
    contentHolds env exhibit.evidence exhibit.artifact.payload

def card : Option RateCardSnapshot := collectedCard env exhibit.evidence exhibit.artifact.payload

def accept (metric : String) : EvidenceAcceptance :=
  acceptance env call.package call.now exhibit.evidence metric (exhibit.trustLevel env trust call)
    (exhibit.matched env) call.allowSelfAssertedPriors

def acceptances : List EvidenceAcceptance :=
  (evidenceMetrics exhibit.evidence).map (exhibit.accept env trust call)

def row (digest : String) : EvidenceRow :=
  ⟨digest, exhibit.reference.digest, exhibit.trustLevel env trust call, exhibit.evidence⟩

end Exhibit

def evidenceStatus (acceptances : List EvidenceAcceptance) : EvidenceAcceptanceStatus :=
  if acceptances.any (·.status = .accepted) then .accepted
  else if acceptances.any (·.status = .acceptedAsPrior) then .acceptedAsPrior
  else if acceptances ≠ [] then .rejected
  else .pending

def blockers (facts : RouteFacts) : List String :=
  (if facts.matched then [] else ["route_fingerprint_mismatch"]) ++
    if requiredArtifactFailed env call then ["required_artifact_failed"] else []

def identityTrust : TrustLevel :=
  trustMax ((acceptedSignatures env trust call.package call.now).map (·.effectiveTrust))

def snapshotOf (digest : String) (acceptances : List EvidenceAcceptance) (facts : RouteFacts) :
    CandidateVerificationSnapshot where
  snapshotId := env.snapshotId digest facts.route.routeId
  candidateId := facts.route.routeId
  packageDigest := digest
  routeFingerprint := facts.fingerprint
  identityTrust := identityTrust env trust call
  fingerprintMatched := facts.matched
  artifactsVerified := call.package.artifacts.all fun reference =>
    (artifactResult env call reference).status = .verified
  evidenceStatus := evidenceStatus
    (acceptances.filter (·.candidateId = facts.route.routeId))
  smokeStatus :=
    if call.package.smokeTests.any (·.routeId = facts.route.routeId) then .pending else .notRequired
  blockingReasons := blockers env call facts
  createdAt := call.now

def candidateOf (digest : String) (facts : RouteFacts) : RouteCandidate where
  candidateId := env.candidateId call.sourceId facts.route.routeId
  executorId := facts.route.routeId
  sourceId := call.sourceId
  providerId := call.package.providerId
  capability := facts.route.capability
  behaviorFingerprint :=
    env.behaviorFingerprint (env.executorSpec facts.route call.package.providerId)
  packageDigest := digest
  packageFingerprint := facts.fingerprint
  verificationSnapshotId := env.snapshotId digest facts.route.routeId
  qualificationReportId := none
  status := if facts.matched ∧ requiredArtifactFailed env call = false then .candidate else .suspended
  spec := env.executorSpec facts.route call.package.providerId
  reason := if blockers env call facts = [] then none
    else some (String.intercalate "; " (blockers env call facts))
  createdAt := call.now
  updatedAt := call.now

def publication (facts : List RouteFacts) : Evaluation :=
  let digest := env.packageDigest call.package.toPackageContent
  let exhibits := exhibits env call facts
  let acceptances := exhibits.flatMap (Exhibit.acceptances env trust call)
  { packageRow := ⟨digest, call.sourceId, call.now, identityTrust env trust call, call.package⟩
    signatureRows := (verifySignatures env trust call.package call.now).map (⟨digest, ·, call.now⟩)
    contentRows := call.package.artifacts.filterMap fun reference =>
      (resolveArtifact env call reference).toOption.map fun artifact =>
        ⟨reference.digest, reference.mediaType, reference.sizeBytes, artifact.casPath,
          artifact.sourceKind, call.now⟩
    artifactRows := call.package.artifacts.map fun reference =>
      ⟨digest, reference.artifactId, reference.digest, reference.required,
        artifactResult env call reference⟩
    evidenceRows := exhibits.map (Exhibit.row env trust call · digest)
    acceptances := acceptances
    snapshots := facts.map (snapshotOf env trust call digest acceptances)
    candidates := facts.map (candidateOf env call digest)
    rateCards := exhibits.filterMap (Exhibit.card env) }

def routeFacts : Result (List RouteFacts) :=
  call.package.routes.mapM fun route => do
    let fingerprint ← env.routeFingerprint route call.package.providerId
    pure ⟨route, fingerprint⟩

/-- `ingest`, from the collisions of the routes to the transaction. -/
def evaluate (candidates : Table RouteCandidate (·.executorId)) : Result Evaluation := do
  call.package.routes.forM (checkCollision call candidates)
  let facts ← routeFacts env call
  pure (publication env trust call facts)

end Evaluate

/-! ## Publishing -/

/-- `INSERT … ON CONFLICT … DO UPDATE` of artifact results: digest and requirement stay. -/
def upsertArtifact (t : Table PackageArtifactRow PackageArtifactRow.key) (row : PackageArtifactRow) :
    Table PackageArtifactRow PackageArtifactRow.key :=
  match t.find? row.key with
  | none => t.insert row
  | some stored => t.assign { row with artifactDigest := stored.artifactDigest, required := stored.required }

def saveProviderPackageIngest (evaluation : Evaluation) (s : PackageStore) : Result PackageStore := do
  let packages ← s.packages.retain (·.package)
    (.configuration "provider package digest collides with different content") evaluation.packageRow
  let signatures ← s.signatures.retainAll (·.result)
    (.configuration "package signature verification conflicts with prior result")
    evaluation.signatureRows
  let contents ← s.contents.retainAll ContentArtifactRow.metadata
    (.configuration "content artifact digest collides with different metadata") evaluation.contentRows
  let evidence ← s.evidence.retainAll (·.evidence)
    (.configuration "evidence identity collides with different content") evaluation.evidenceRows
  let acceptances ← s.acceptances.retainAll id
    (.configuration "evidence acceptance ID conflicts with prior content") evaluation.acceptances
  let snapshots ← s.snapshots.retainAll id
    (.configuration "verification snapshot ID conflicts with prior content") evaluation.snapshots
  pure { s with
    packages := packages
    signatures := signatures
    contents := contents
    artifacts := evaluation.artifactRows.foldl upsertArtifact s.artifacts
    evidence := evidence
    acceptances := acceptances
    snapshots := snapshots
    candidates := s.candidates.assignAll evaluation.candidates }

def cardCollision : Err := .configuration "immutable rate-card snapshot digest collision"

def saveRateCardSnapshot (s : PackageStore) (card : RateCardSnapshot) : Result PackageStore := do
  let rateCards ← s.rateCards.retain id cardCollision card
  pure { s with rateCards := rateCards }

/-- What an ingest did: how it ended, and what it saved before. -/
structure Outcome where
  ending : Result (List RouteCandidate)
  store : PackageStore
  published : Option Evaluation
  savedCards : List RateCardSnapshot

/-- An ingest that saves nothing. -/
def Outcome.refused (e : Err) (s : PackageStore) : Outcome := ⟨.error e, s, none, []⟩

def saveRateCards (evaluation : Evaluation) :
    List RateCardSnapshot → List RateCardSnapshot → PackageStore → Outcome
  | [], saved, s => ⟨.ok evaluation.candidates, s, some evaluation, saved⟩
  | card :: cards, saved, s =>
    match saveRateCardSnapshot s card with
    | .error e => ⟨.error e, s, some evaluation, saved⟩
    | .ok s' => saveRateCards evaluation cards (saved ++ [card]) s'

/-- `save_provider_package_audit_event` for a package that was not verified. -/
def PackageStore.audit (s : PackageStore) (row : AuditRow) : PackageStore :=
  if (s.audits.find? row.eventId).isSome then s else { s with audits := s.audits.insert row }

def ingest (env : Environment) (trust : TrustStore) (call : IngestCall) (s : PackageStore) : Outcome :=
  match checkCompatibility call with
  | .error e => .refused e s
  | .ok () =>
    match verifyPackage env trust call.package call.now with
    | some code =>
      let digest := env.packageDigest call.package.toPackageContent
      .refused (.configuration "provider package digest/signature verification failed")
        (s.audit ⟨env.rejectionId digest, digest, code, call.now⟩)
    | none =>
      match evaluate env trust call s.candidates with
      | .error e => .refused e s
      | .ok evaluation =>
        match saveProviderPackageIngest evaluation s with
        | .error e => .refused e s
        | .ok published => saveRateCards evaluation evaluation.rateCards [] published

end AeepRouter.Package

import AeepRouter.Lib.Run
import AeepRouter.Package.Records

/-!
# Verifying packages and evidence

What an ingest decides about the signatures of a package and about each piece of evidence: which
attestations count (`attestingKey`), which metrics the evidence speaks of (`evidenceMetrics`) and how
each of them is accepted (`acceptance`). Digests, signatures and the contents of artifacts are given
(`Environment`).
-/

namespace AeepRouter.Package

open Lib
open Trust (TrustedKeyRole TrustStore)

structure SignedFields where
  evidenceId : String
  artifactDigest : String
  subject : EvidenceSubject
  summaryDigest : Option String
  producer : EvidenceProducer
  validity : EvidenceValidity
  deriving DecidableEq, Repr

/-- What the artifact store keeps of a reference it resolved. -/
structure ResolvedArtifact where
  payload : String
  casPath : String
  sourceKind : String
  deriving DecidableEq, Repr

/-- An artifact payload, as its evidence type reads it. -/
inductive ParsedEvidence where
  | qualification (dynamicRuns passedRuns : ℤ)
  /-- Whether each trial is ok and valid. -/
  | campaign (trials : List (Bool × Option Bool))
  | rateCard (card : RateCardSnapshot)
  | comparison (pairedTrials : ℤ)
  | object
  deriving DecidableEq

/-- What the libraries compute, and what the artifact store resolves. -/
structure Environment where
  packageDigest : PackageContent → String
  attestationDigest : SignedFields → String
  /-- `none` where the summary has no canonical form. -/
  summaryDigest : Summary → Option String
  routeFingerprint : PublishedProviderRoute → String → Result String
  executorSpec : PublishedProviderRoute → String → String
  behaviorFingerprint : String → String
  /-- Whether a public key verifies a signature over the payload of a digest. -/
  verifiesPackage : String → String → String → Bool
  verifiesEvidence : String → String → String → Bool
  acceptanceId : String → String → String → String
  snapshotId : String → String → String
  candidateId : String → String → String
  rejectionId : String → String
  /-- The runs of a qualification report, and those that passed. -/
  qualificationReport : String → Option (ℤ × ℤ)
  benchmarkCampaign : String → Option (List (Bool × Option Bool))
  rateCardSnapshot : String → Option RateCardSnapshot
  comparisonReport : String → Option ℤ
  isObject : String → Bool
  resolveLocal : ArtifactReference → Except String ResolvedArtifact
  resolveHttps : ArtifactReference → Except String ResolvedArtifact

/-! ## Signatures of a package -/

def trustMax (values : List TrustLevel) : TrustLevel :=
  if .attested ∈ values then .attested
  else if .verified ∈ values then .verified
  else if .selfAsserted ∈ values then .selfAsserted
  else .untrusted

variable (env : Environment) (trust : TrustStore) (package : ProviderPackage) (now : Int)

def trustedSignatureStatus (key : Trust.TrustedProviderKey) (signature : ProviderPackageSignature) :
    PackageSignatureStatus × Option String :=
  if key.status = .revoked then (.revoked, some "signer_revoked")
  else if ¬ (key.validFrom ≤ signature.issuedAt ∧ signature.issuedAt ≤ key.validUntil) then
    (.expired, some "signer_expired")
  else if now < signature.issuedAt then (.expired, some "signature_future_dated")
  else if key.permitsRole .packagePublisher = false then (.wrongRole, some "signer_wrong_role")
  else if key.permitsPackage package.packageId = false ∨
      package.routes.any (!key.permitsCapability ·.capability) then
    (.wrongScope, some "signer_wrong_scope")
  else if env.verifiesPackage key.publicKey package.integrityDigest signature.signature = false then
    (.invalid, some "signature_invalid")
  else (.verified, none)

/-- Whether a signature is by a key that the package itself names. -/
def embeddedValid (signature : ProviderPackageSignature) : Bool :=
  match package.keys.find? (·.keyId = signature.keyId) with
  | none => false
  | some key =>
    (∀ start ∈ key.validFrom, start ≤ signature.issuedAt) ∧
      (∀ stop ∈ key.validUntil, signature.issuedAt ≤ stop) ∧ signature.issuedAt ≤ now ∧
      env.verifiesPackage key.publicKey package.integrityDigest signature.signature

def verifySignature (signature : ProviderPackageSignature) : SignatureVerificationResult :=
  match trust.find? (package.providerId, signature.keyId) with
  | some key =>
    let (status, failure) := trustedSignatureStatus env package now key signature
    { signatureId := signature.signatureId
      keyId := signature.keyId
      status := status
      effectiveTrust := if status = .verified then .ofKey key.trust else .untrusted
      keySource := some "operator_trust_store"
      failureCode := failure }
  | none =>
    let valid := embeddedValid env package now signature
    { signatureId := signature.signatureId
      keyId := signature.keyId
      status := if valid then .unknownKey else .invalid
      effectiveTrust := if valid then .selfAsserted else .untrusted
      keySource := if package.keys.any (·.keyId = signature.keyId) then some "embedded" else none
      failureCode := if valid then none else some "signature_invalid" }

def verifySignatures : List SignatureVerificationResult :=
  package.signatures.map (verifySignature env trust package now)

def acceptedSignatures : List SignatureVerificationResult :=
  (verifySignatures env trust package now).filter fun result =>
    result.status = .verified ∨ result.status = .unknownKey

def verifyPackage : Option String :=
  if env.packageDigest package.toPackageContent ≠ package.integrityDigest then
    some "manifest_digest_mismatch"
  else if acceptedSignatures env trust package now = [] then some "signature_invalid"
  else none

/-! ## The content of evidence -/

variable (evidence : EvidenceReference)

def integerSummary : Option SummaryScalar → ℤ
  | some (.integer n) => n
  | _ => -1

def Summary.integer (summary : Summary) (name : String) : ℤ :=
  match summary.lookup name with
  | some (.scalar value) => integerSummary (some value)
  | _ => -1

def Summary.succeeds (summary : Summary) (trials successes : ℤ) : Bool :=
  match summary.lookup "success" with
  | some (.object fields) =>
    integerSummary (fields.lookup "trials") = trials ∧
      integerSummary (fields.lookup "successes") = successes
  | _ => false

def summaryMatchesArtifact (parsed : ParsedEvidence) : Bool :=
  match evidence.summary with
  | none => true
  | some summary =>
    match parsed with
    | .qualification dynamicRuns passedRuns => summary.succeeds dynamicRuns passedRuns
    | .campaign trials =>
      summary.integer "sample_size" = trials.length &&
        summary.succeeds trials.length (trials.countP fun trial => trial.1 && trial.2 != some false)
    | .rateCard card => summary.lookup "snapshot_id" = some (.scalar (.text card.snapshotId))
    | .comparison pairedTrials => summary.integer "paired_trials" = pairedTrials
    | .object => true

/-- Whether a summary has the digest its evidence states. -/
def summaryConsistent : Bool :=
  match evidence.summary with
  | none => true
  | some summary => evidence.summaryDigest.isSome && env.summaryDigest summary = evidence.summaryDigest

def validateEvidencePayload (payload : String) : Option ParsedEvidence :=
  match evidence.evidenceType with
  | .qualificationReport =>
    (env.qualificationReport payload).map fun runs => .qualification runs.1 runs.2
  | .benchmarkCampaign => (env.benchmarkCampaign payload).map .campaign
  | .rateCardSnapshot => (env.rateCardSnapshot payload).map .rateCard
  | .comparisonReport => (env.comparisonReport payload).map .comparison
  | .compatibilityReport | .revocationStatement =>
    if env.isObject payload then some .object else none

/-- The rate card an artifact is taken for: its summary matches, its digest is not looked at. -/
def collectedCard (payload : String) : Option RateCardSnapshot :=
  match validateEvidencePayload env evidence payload with
  | some (.rateCard card) =>
    if summaryMatchesArtifact evidence (.rateCard card) then some card else none
  | _ => none

/-- Whether the artifact and its summary hold together. -/
def contentHolds (payload : String) : Bool :=
  match validateEvidencePayload env evidence payload with
  | none => false
  | some parsed => summaryMatchesArtifact evidence parsed && summaryConsistent env evidence

/-! ## The trust in evidence -/

def EvidenceReference.signedFields (artifactDigest : String) : SignedFields where
  evidenceId := evidence.evidenceId
  artifactDigest := artifactDigest
  subject := evidence.subject
  summaryDigest := evidence.summaryDigest
  producer := evidence.producer
  validity := evidence.validity

def AttestationRole.required : AttestationRole → TrustedKeyRole
  | independentVerifier => .independentVerifier
  | evidenceProducer => .evidenceProducer

def verifyEvidenceAttestation (attestation : EvidenceAttestation) (artifactDigest publicKey : String) :
    Bool :=
  let digest := env.attestationDigest (evidence.signedFields artifactDigest)
  attestation.digest = digest ∧ env.verifiesEvidence publicKey digest attestation.signature

def keyAttests (key : Trust.TrustedProviderKey) (attestation : EvidenceAttestation) : Bool :=
  key.status = .active ∧
    (key.validFrom ≤ attestation.issuedAt ∧ attestation.issuedAt ≤ key.validUntil) ∧
    attestation.issuedAt ≤ now ∧ key.permitsRole attestation.role.required ∧
    key.permitsCapability evidence.subject.capability ∧
    (∀ notBefore ∈ evidence.validity.notBefore, notBefore ≤ attestation.issuedAt) ∧
    ∀ expiresAt ∈ evidence.validity.expiresAt, attestation.issuedAt ≤ expiresAt

def attestingKey (artifactDigest : String) (attestation : EvidenceAttestation) :
    Option Trust.TrustedProviderKey :=
  (trust.find? (evidence.producer.producerId, attestation.keyId)).filter fun key =>
    keyAttests now evidence key attestation &&
      verifyEvidenceAttestation env evidence attestation artifactDigest key.publicKey

def evidenceTrust (artifactDigest : String) : TrustLevel :=
  let accepted := evidence.attestations.filterMap fun attestation =>
    (attestingKey env trust now evidence artifactDigest attestation).map (TrustLevel.ofKey ·.trust)
  if accepted = [] then .selfAsserted else trustMax accepted

def evidenceMetrics : List String :=
  let summary := evidence.summary.getD []
  let names := summary.map (·.1)
  (if evidence.evidenceType = .qualificationReport ∨ evidence.evidenceType = .compatibilityReport ∨
      "success" ∈ names then ["correctness"] else []) ++
    (["tokens", "cost", "latency"].filter fun name =>
      name ∈ names ∨ evidence.evidenceType = .benchmarkCampaign) ++
    if evidence.evidenceType = .rateCardSnapshot then ["rate_card"] else []

def expired : Bool := ∃ expiresAt ∈ evidence.validity.expiresAt, expiresAt ≤ now

def TrustLevel.strong (level : TrustLevel) : Bool := level = .verified ∨ level = .attested

/-- The status, the reason and the confidence of `_acceptance`. -/
def acceptanceVerdict (metric : String) (level : TrustLevel) (subjectMatches allowPriors : Bool) :
    EvidenceAcceptanceStatus × String × ℚ :=
  if expired now evidence then (.stale, "evidence_expired", 0)
  else if subjectMatches = false then (.rejected, "evidence_subject_mismatch", 0)
  else if level.strong ∧ (package.apiVersion = .v05 ∨ evidence.authorityClass = none ∨
      evidence.cohort = none) then (.acceptedAsPrior, "legacy_incomplete_evidence_prior", 25 / 100)
  else if level.strong ∧ (evidence.authorityClass = some .providerSelfAttested ∨
      evidence.authorityClass = some .distributorAttested) then
    (.acceptedAsPrior, "non_independent_authority_prior",
      if evidence.authorityClass = some .providerSelfAttested then 20 / 100 else 25 / 100)
  else if level.strong then
    if metric = "latency" ∧ evidence.subject.environmentClass ≠ some "local-exact" then
      (.acceptedAsPrior, "environment_sensitive_prior", 25 / 100)
    else (.accepted, "accepted_exact_subject", if level = .attested then 90 / 100 else 85 / 100)
  else if level = .selfAsserted ∧ allowPriors then (.acceptedAsPrior, "self_asserted_prior", 20 / 100)
  else (.rejected, "evidence_insufficient_trust", 0)

def acceptance (metric : String) (level : TrustLevel) (subjectMatches allowPriors : Bool) :
    EvidenceAcceptance :=
  let verdict := acceptanceVerdict package now evidence metric level subjectMatches allowPriors
  { acceptanceId := env.acceptanceId package.integrityDigest evidence.evidenceId metric
    evidenceId := evidence.evidenceId
    packageDigest := package.integrityDigest
    candidateId := evidence.subject.routeId
    metric := metric
    status := verdict.1
    reasonCode := verdict.2.1
    applicability := evidence.subject.environmentClass.getD "unspecified"
    confidence := verdict.2.2
    effectiveTrust := level
    evaluatedAt := now }

end AeepRouter.Package

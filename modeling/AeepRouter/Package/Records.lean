import AeepRouter.Economic.Pricing
import AeepRouter.Economic.TrustStore

/-!
# Provider packages

A provider package publishes routes with artifacts and evidence, under signatures over the digest of
its content. Texts that no decision reads (descriptions, schemas, links) are kept as one text a
record, so that equal records have equal payloads.
-/

namespace AeepRouter.Package

open Trust (TrustedKeyRole)

/-! ## Levels and states -/

inductive TrustLevel where
  | untrusted
  | selfAsserted
  | observed
  | verified
  | attested
  deriving DecidableEq, Repr

def TrustLevel.ofKey : Trust.TrustLevel → TrustLevel
  | .verified => verified
  | .attested => attested

inductive EvidenceType where
  | qualificationReport
  | benchmarkCampaign
  | comparisonReport
  | rateCardSnapshot
  | compatibilityReport
  | revocationStatement
  deriving DecidableEq, Repr

inductive EvidenceAuthorityClass where
  | providerSelfAttested
  | distributorAttested
  | independentLab
  | organizationAdmin
  | localOperator
  deriving DecidableEq, Repr

inductive PackageSignatureStatus where
  | absent
  | verified
  | invalid
  | unknownKey
  | revoked
  | expired
  | wrongRole
  | wrongScope
  deriving DecidableEq, Repr

inductive ArtifactStatus where
  | pending
  | verified
  | missing
  | digestMismatch
  | sizeMismatch
  | blocked
  | parseFailed
  deriving DecidableEq, Repr

inductive EvidenceAcceptanceStatus where
  | pending
  | accepted
  | acceptedAsPrior
  | rejected
  | stale
  | superseded
  deriving DecidableEq, Repr

inductive SmokeStatus where
  | notRequired
  | pending
  | passed
  | failed
  | blocked
  | expired
  deriving DecidableEq, Repr

/-! ## Summaries -/

/-- A value in a summary; `other` is any value that is neither an integer nor a text. -/
inductive SummaryScalar where
  | integer (n : ℤ)
  | text (s : String)
  | other (json : String)
  deriving DecidableEq, Repr

inductive SummaryValue where
  | scalar (value : SummaryScalar)
  | object (fields : List (String × SummaryScalar))
  deriving DecidableEq, Repr

/-- The summary of an evidence artifact, by key. -/
abbrev Summary := List (String × SummaryValue)

/-! ## Evidence -/

structure EvidenceSubject where
  routeId : String
  capability : String
  routeFingerprint : String
  environmentClass : Option String
  rest : String
  deriving DecidableEq, Repr

structure EvidenceProducer where
  producerId : String
  role : TrustedKeyRole
  keyId : Option String
  deriving DecidableEq, Repr

structure EvidenceValidity where
  issuedAt : Int
  notBefore : Option Int
  expiresAt : Option Int
  deriving DecidableEq, Repr

inductive AttestationRole where
  | evidenceProducer
  | independentVerifier
  deriving DecidableEq, Repr

structure EvidenceAttestation where
  attestationId : String
  keyId : String
  role : AttestationRole
  digest : String
  signature : String
  issuedAt : Int
  deriving DecidableEq, Repr

structure EvidenceReference where
  evidenceId : String
  evidenceType : EvidenceType
  artifactId : String
  subject : EvidenceSubject
  producer : EvidenceProducer
  authorityClass : Option EvidenceAuthorityClass
  /-- The cohort declaration. -/
  cohort : Option String
  trustClaim : TrustLevel
  validity : EvidenceValidity
  summary : Option Summary
  summaryDigest : Option String
  attestations : List EvidenceAttestation
  deriving DecidableEq, Repr

/-! ## Packages -/

inductive ArtifactLocation where
  | path (path : String)
  | uri (uri : String)
  | oci (oci : String)
  deriving DecidableEq, Repr

structure ArtifactReference where
  artifactId : String
  digest : String
  mediaType : String
  sizeBytes : ℕ
  location : ArtifactLocation
  required : Bool
  rest : String
  deriving DecidableEq, Repr

structure PublishedProviderRoute where
  routeId : String
  capability : String
  declaredFingerprint : String
  /-- Executor, schemas, bindings and estimate, as canonical text. -/
  definition : String
  deriving DecidableEq, Repr

structure ProviderPublicKey where
  keyId : String
  publicKey : String
  roles : List TrustedKeyRole
  validFrom : Option Int
  validUntil : Option Int
  deriving DecidableEq, Repr

structure SmokeTestDefinition where
  smokeId : String
  routeId : String
  rest : String
  deriving DecidableEq, Repr

inductive ApiVersion where
  | v05
  | v06
  deriving DecidableEq, Repr

/-- What the digest of a package covers. -/
structure PackageContent where
  apiVersion : ApiVersion
  packageId : String
  version : String
  issuedAt : Int
  expiresAt : Option Int
  providerId : String
  keys : List ProviderPublicKey
  /-- `aeep_min` and `aeep_max_exclusive`. -/
  aeepMin : ℕ × ℕ × ℕ
  aeepMaxExclusive : Option (ℕ × ℕ × ℕ)
  routes : List PublishedProviderRoute
  artifacts : List ArtifactReference
  evidence : List EvidenceReference
  smokeTests : List SmokeTestDefinition
  rest : String
  deriving DecidableEq, Repr

structure ProviderPackageSignature where
  signatureId : String
  keyId : String
  digest : String
  signature : String
  issuedAt : Int
  deriving DecidableEq, Repr

/-- A package, with the checks of its models that an ingest rests on. -/
structure ProviderPackage extends PackageContent where
  integrityDigest : String
  signatures : List ProviderPackageSignature
  routes_ne : routes ≠ []
  routes_nodup : (routes.map (·.routeId)).Nodup
  artifacts_nodup : (artifacts.map (·.artifactId)).Nodup
  evidence_nodup : (evidence.map (·.evidenceId)).Nodup
  subjects : ∀ item ∈ evidence, item.subject.routeId ∈ routes.map (·.routeId) ∧
    item.artifactId ∈ artifacts.map (·.artifactId)
  signatures_nodup : (signatures.map (·.signatureId)).Nodup
  signed_digest : ∀ item ∈ signatures, item.digest = integrityDigest
  signed_after : ∀ item ∈ signatures, issuedAt ≤ item.issuedAt
  summarized : ∀ item ∈ evidence, item.summary.isSome → item.summaryDigest.isSome
  windows : ∀ item ∈ evidence, ∀ notBefore ∈ item.validity.notBefore,
    ∀ expiresAt ∈ item.validity.expiresAt, notBefore < expiresAt
  classified : apiVersion = .v06 →
    ∀ item ∈ evidence, item.authorityClass.isSome ∧ item.cohort.isSome
  deriving DecidableEq

/-! ## What an ingest finds out -/

structure SignatureVerificationResult where
  signatureId : String
  keyId : String
  status : PackageSignatureStatus
  effectiveTrust : TrustLevel
  keySource : Option String
  failureCode : Option String
  deriving DecidableEq, Repr

structure ArtifactVerificationResult where
  artifactId : String
  digest : String
  status : ArtifactStatus
  failureCode : Option String
  deriving DecidableEq, Repr

structure EvidenceAcceptance where
  acceptanceId : String
  evidenceId : String
  packageDigest : String
  candidateId : String
  metric : String
  status : EvidenceAcceptanceStatus
  reasonCode : String
  applicability : String
  confidence : ℚ
  effectiveTrust : TrustLevel
  evaluatedAt : Int
  deriving DecidableEq, Repr

structure CandidateVerificationSnapshot where
  snapshotId : String
  candidateId : String
  packageDigest : String
  routeFingerprint : String
  identityTrust : TrustLevel
  fingerprintMatched : Bool
  artifactsVerified : Bool
  evidenceStatus : EvidenceAcceptanceStatus
  smokeStatus : SmokeStatus
  blockingReasons : List String
  createdAt : Int
  deriving DecidableEq, Repr

inductive RouteLifecycle where
  | candidate
  | qualified
  | active
  | suspended
  deriving DecidableEq, Repr

structure RouteCandidate where
  candidateId : String
  executorId : String
  sourceId : String
  providerId : String
  capability : String
  behaviorFingerprint : String
  packageDigest : String
  packageFingerprint : String
  verificationSnapshotId : String
  qualificationReportId : Option String
  status : RouteLifecycle
  /-- The inert executor, as canonical text. -/
  spec : String
  reason : Option String
  createdAt : Int
  updatedAt : Int
  deriving DecidableEq, Repr

end AeepRouter.Package

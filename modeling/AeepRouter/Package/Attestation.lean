import AeepRouter.Package.RateCards

/-!
# What an attestation covers

An attestation signs the subject, the validity, the producer and the digests of a piece of evidence,
and neither its type nor its authority class, its cohort or its summary. So every acceptance that
rests on an attestation is an upgrade of another reference the attestation covers as well; and
evidence without an attestation is taken as a prior before it is valid. `authorityKept_iff` says which
evidence is left.
-/

namespace AeepRouter.Package

open Lib
open Trust (TrustStore)

variable {env : Environment} {trust : TrustStore} {call : IngestCall} {s : PackageStore}
  {facts : List RouteFacts} {exhibit other : Exhibit} {attestation : EvidenceAttestation}
  {metric : String}

/-! ## Statements -/

/-- How much an acceptance says. -/
def EvidenceAcceptanceStatus.rank : EvidenceAcceptanceStatus → ℕ
  | accepted => 2
  | acceptedAsPrior => 1
  | pending | rejected | stale | superseded => 0

namespace Exhibit

variable (env : Environment) (trust : TrustStore) (call : IngestCall) (exhibit : Exhibit)

def rank (metric : String) : ℕ :=
  if metric ∈ evidenceMetrics exhibit.evidence then
    (exhibit.accept env trust call metric).status.rank
  else 0

/-- The trusted key behind an attestation of the evidence, if the attestation counts. -/
def signer (attestation : EvidenceAttestation) : Option Trust.TrustedProviderKey :=
  attestingKey env trust call.now exhibit.evidence exhibit.reference.digest attestation

/-- Another reference to the artifact that could stand in the package with the same attestations. -/
structure Variant (exhibit other : Exhibit) : Prop where
  artifact : other.reference = exhibit.reference ∧ other.artifact = exhibit.artifact ∧
    other.facts = exhibit.facts
  evidenceId : other.evidence.evidenceId = exhibit.evidence.evidenceId
  artifactId : other.evidence.artifactId = exhibit.evidence.artifactId
  routeId : other.evidence.subject.routeId = exhibit.evidence.subject.routeId
  attestations : other.evidence.attestations = exhibit.evidence.attestations
  summarized : other.evidence.summary.isSome → other.evidence.summaryDigest.isSome
  classified : exhibit.evidence.authorityClass.isSome ∧ exhibit.evidence.cohort.isSome →
    other.evidence.authorityClass.isSome ∧ other.evidence.cohort.isSome

structure AuthorityKept : Prop where
  attested : ∀ metric, exhibit.rank env trust call metric = 2 →
    ∃ attestation ∈ exhibit.evidence.attestations, ∃ key ∈ exhibit.signer env trust call attestation,
      key.status = .active ∧ key.permitsRole attestation.role.required = true
  covered : ∀ other, exhibit.Variant other → ∀ attestation ∈ exhibit.evidence.attestations,
    (exhibit.signer env trust call attestation).isSome = true →
    (other.signer env trust call attestation).isSome = true →
    ∀ metric, exhibit.rank env trust call metric ≤ other.rank env trust call metric
  timely : ∀ metric, 0 < exhibit.rank env trust call metric →
    (∀ notBefore ∈ exhibit.evidence.validity.notBefore, notBefore ≤ call.now) ∧
      ∀ expiresAt ∈ exhibit.evidence.validity.expiresAt, call.now < expiresAt

/-- Whether no attestation of the evidence counts. -/
def Unattested : Prop :=
  ∀ attestation ∈ exhibit.evidence.attestations, exhibit.signer env trust call attestation = none

/-- Evidence of which nothing is accepted, or only a prior without attestation and in time. -/
def Harmless : Prop :=
  expired call.now exhibit.evidence = true ∨ exhibit.matched env = false ∨
    evidenceMetrics exhibit.evidence = [] ∨
    (exhibit.Unattested env trust call ∧ (call.allowSelfAssertedPriors = false ∨
      ∀ notBefore ∈ exhibit.evidence.validity.notBefore, notBefore ≤ call.now))

end Exhibit

/-! ## The level of evidence -/

theorem signer_eq_some {key : Trust.TrustedProviderKey} :
    exhibit.signer env trust call attestation = some key ↔
      trust.find? (exhibit.evidence.producer.producerId, attestation.keyId) = some key ∧
        keyAttests call.now exhibit.evidence key attestation = true ∧
        verifyEvidenceAttestation env exhibit.evidence attestation exhibit.reference.digest
          key.publicKey = true := by
  unfold Exhibit.signer attestingKey
  rw [Option.filter_eq_some_iff, Bool.and_eq_true]

/-- Evidence is more than self-asserted exactly when an attestation counts. -/
theorem strong_iff : (exhibit.trustLevel env trust call).strong = true ↔
    ¬ exhibit.Unattested env trust call := by
  constructor
  · intro hstrong hnone
    rw [trustLevel_selfAsserted hnone] at hstrong
    cases hstrong
  · intro h
    unfold Exhibit.Unattested at h
    push Not at h
    obtain ⟨attestation, hin, hne⟩ := h
    obtain ⟨key, hkey⟩ := Option.ne_none_iff_exists'.mp hne
    exact trustLevel_strong hin hkey

theorem rank_pos {status : EvidenceAcceptanceStatus} :
    0 < status.rank ↔ status = .accepted ∨ status = .acceptedAsPrior := by
  cases status <;> decide

theorem rank_pos_iff : 0 < exhibit.rank env trust call metric ↔
    metric ∈ evidenceMetrics exhibit.evidence ∧ exhibit.InOrder env trust call := by
  unfold Exhibit.rank
  split
  next hin => rw [rank_pos, accept_iff, and_iff_right hin]
  next hout => exact iff_of_false (lt_irrefl 0) fun h => hout h.1

/-- Only attested evidence is accepted for more than a prior. -/
theorem attested_of_rank (h : exhibit.rank env trust call metric = 2) :
    ¬ exhibit.Unattested env trust call := by
  rw [← strong_iff]
  unfold Exhibit.rank at h
  split at h
  next =>
    have hverdict : (acceptanceVerdict call.package call.now exhibit.evidence metric
        (exhibit.trustLevel env trust call) (exhibit.matched env)
        call.allowSelfAssertedPriors).1.rank = 2 := h
    by_contra hweak
    unfold acceptanceVerdict at hverdict
    split_ifs at hverdict <;> simp_all [EvidenceAcceptanceStatus.rank]
  next => cases h

theorem exists_signer (h : exhibit.rank env trust call metric = 2) :
    ∃ attestation ∈ exhibit.evidence.attestations, ∃ key ∈ exhibit.signer env trust call attestation,
      key.status = .active ∧ key.permitsRole attestation.role.required = true := by
  have hattested := attested_of_rank h
  unfold Exhibit.Unattested at hattested
  push Not at hattested
  obtain ⟨attestation, hin, hne⟩ := hattested
  obtain ⟨key, hkey⟩ := Option.ne_none_iff_exists'.mp hne
  have hattests := (signer_eq_some.mp hkey).2.1
  unfold keyAttests at hattests
  obtain ⟨hactive, -, -, hrole, -⟩ := of_decide_eq_true hattests
  exact ⟨attestation, hin, key, hkey, hactive, hrole⟩

/-! ## What is covered -/

/-- The same evidence as a statement that speaks of no metric. -/
def Exhibit.silent (exhibit : Exhibit) : Exhibit :=
  { exhibit with
    evidence := { exhibit.evidence with evidenceType := .revocationStatement, summary := none } }

theorem silent_variant (exhibit : Exhibit) : exhibit.Variant exhibit.silent where
  artifact := ⟨rfl, rfl, rfl⟩
  evidenceId := rfl
  artifactId := rfl
  routeId := rfl
  attestations := rfl
  summarized h := nomatch h
  classified h := h

/-- Every attestation that counts for evidence counts for its silent reading. -/
theorem silent_signer : exhibit.silent.signer env trust call attestation =
    exhibit.signer env trust call attestation := rfl

theorem silent_rank : exhibit.silent.rank env trust call metric = 0 := rfl

theorem harmless_of_kept (h : exhibit.AuthorityKept env trust call) :
    exhibit.Harmless env trust call := by
  by_contra hharm
  unfold Exhibit.Harmless at hharm
  simp only [not_or, not_and, Bool.not_eq_true, Bool.not_eq_false] at hharm
  obtain ⟨hcurrent, hmatched, hmetrics, hpriors⟩ := hharm
  obtain ⟨metric, hmetric⟩ := List.exists_mem_of_ne_nil _ hmetrics
  by_cases hunattested : exhibit.Unattested env trust call
  · obtain ⟨hallowed, hearly⟩ := hpriors hunattested
    have hrank : 0 < exhibit.rank env trust call metric :=
      rank_pos_iff.mpr ⟨hmetric, hmatched, hcurrent, .inr hallowed⟩
    exact hearly (h.timely metric hrank).1
  · have hrank : 0 < exhibit.rank env trust call metric :=
      rank_pos_iff.mpr ⟨hmetric, hmatched, hcurrent, .inl (strong_iff.mpr hunattested)⟩
    unfold Exhibit.Unattested at hunattested
    push Not at hunattested
    obtain ⟨attestation, hin, hne⟩ := hunattested
    have hsigned := Option.isSome_iff_ne_none.mpr hne
    have hle := h.covered exhibit.silent (silent_variant exhibit) attestation hin hsigned
      (silent_signer ▸ hsigned) metric
    rw [silent_rank] at hle
    exact absurd hrank (not_lt.mpr hle)

theorem not_expired_iff : expired call.now exhibit.evidence = false ↔
    ∀ expiresAt ∈ exhibit.evidence.validity.expiresAt, call.now < expiresAt := by
  unfold expired
  simp only [decide_eq_false_iff_not, not_exists, not_and, not_le]

theorem kept_of_harmless (h : exhibit.Harmless env trust call) :
    exhibit.AuthorityKept env trust call := by
  -- what is ranked is an unattested prior in time
  have hranked : ∀ metric, 0 < exhibit.rank env trust call metric →
      exhibit.Unattested env trust call ∧
        ∀ notBefore ∈ exhibit.evidence.validity.notBefore, notBefore ≤ call.now := by
    intro metric hrank
    obtain ⟨hmetric, horder⟩ := rank_pos_iff.mp hrank
    rcases h with hexpired | hmatched | hmetrics | ⟨hunattested, hpriors⟩
    · rw [horder.current] at hexpired
      cases hexpired
    · rw [horder.matched] at hmatched
      cases hmatched
    · rw [hmetrics] at hmetric
      exact absurd hmetric List.not_mem_nil
    · refine ⟨hunattested, hpriors.resolve_left fun hnone => ?_⟩
      rcases horder.trusted with hstrong | hallowed
      · exact strong_iff.mp hstrong hunattested
      · rw [hnone] at hallowed
        cases hallowed
  refine ⟨fun metric hrank => exists_signer hrank,
    fun other _ attestation hin hsigned _ metric => ?_, fun metric hrank => ?_⟩
  · by_contra hlt
    have hunattested := (hranked metric (Nat.zero_lt_of_lt (not_le.mp hlt))).1
    rw [hunattested attestation hin] at hsigned
    cases hsigned
  · exact ⟨(hranked metric hrank).2, not_expired_iff.mp (rank_pos_iff.mp hrank).2.current⟩

/-- Whether what an ingest accepts rests on what was attested, and in time. -/
def AuthorityKept (env : Environment) (trust : TrustStore) (call : IngestCall) (s : PackageStore) :
    Prop :=
  ∀ facts, Publishable env trust call s facts → ∀ exhibit ∈ exhibits env call facts,
    exhibit.AuthorityKept env trust call

def labKey : Trust.TrustedProviderKey where
  providerId := "lab"
  keyId := "v"
  algorithm := .ed25519
  publicKey := "labkey"
  validFrom := 0
  validUntil := 100
  revokedAt := none
  status := .active
  allowedCapabilities := ["text.read"]
  rest := ""
  allowedQuoteHosts := []
  roles := [.independentVerifier]
  allowedPackageIds := []
  trust := .attested
  rotation := none

def labReport (authority : EvidenceAuthorityClass) (notBefore : Option Int)
    (attestations : List EvidenceAttestation) : EvidenceReference where
  evidenceId := "e"
  evidenceType := .compatibilityReport
  artifactId := "a"
  subject := ⟨"r", "text.read", "sha256:route", none, ""⟩
  producer := ⟨"lab", .independentVerifier, none⟩
  authorityClass := some authority
  cohort := some "cohort"
  trustClaim := .selfAsserted
  validity := ⟨0, notBefore, none⟩
  summary := none
  summaryDigest := none
  attestations := attestations

def labAttestation : EvidenceAttestation :=
  ⟨"t", "v", .independentVerifier, "sha256:esha256:a", "labkeysha256:esha256:a", 2⟩

def reportPackage (authority : EvidenceAuthorityClass) (notBefore : Option Int)
    (attestations : List EvidenceAttestation) : ProviderPackage :=
  { cardPackage with
    artifacts := [⟨"a", "sha256:a", "application/json", 6, .path "report.json", false, "report"⟩]
    evidence := [labReport authority notBefore attestations]
    artifacts_nodup := by decide
    evidence_nodup := List.nodup_singleton _
    subjects := by
      intro item hitem
      rw [List.mem_singleton.mp hitem]
      exact ⟨List.mem_cons_self, List.mem_cons_self⟩
    summarized := by
      intro item hitem hsome
      rw [List.mem_singleton.mp hitem] at hsome
      cases hsome
    windows := by
      intro item hitem start hstart stop hstop
      rw [List.mem_singleton.mp hitem] at hstop
      cases hstop
    classified := by
      intro _ item hitem
      rw [List.mem_singleton.mp hitem]
      exact ⟨rfl, rfl⟩ }

/-- What an ingest of the package finds out about its evidence. -/
def labExhibit (authority : EvidenceAuthorityClass) (notBefore : Option Int)
    (attestations : List EvidenceAttestation) : Exhibit where
  evidence := labReport authority notBefore attestations
  reference := ⟨"a", "sha256:a", "application/json", 6, .path "report.json", false, "report"⟩
  artifact := ⟨"report", "/cas/sha256:a", "local"⟩
  facts := ⟨⟨"r", "text.read", "sha256:route", "route"⟩, "sha256:route"⟩

theorem kept_labExhibit {authority : EvidenceAuthorityClass} {notBefore : Option Int}
    {attestations : List EvidenceAttestation} {trust : TrustStore} {now : Int}
    (hpublishable : Publishable exampleEnvironment trust
      (exampleCall (reportPackage authority notBefore attestations) now) .empty
      [(labExhibit authority notBefore attestations).facts])
    (h : AuthorityKept exampleEnvironment trust
      (exampleCall (reportPackage authority notBefore attestations) now) .empty) :
    (labExhibit authority notBefore attestations).AuthorityKept exampleEnvironment trust
      (exampleCall (reportPackage authority notBefore attestations) now) :=
  h _ hpublishable _ (mem_exhibits.mpr ⟨List.mem_cons_self, rfl, rfl⟩)

theorem publishable_of_isSome (hfacts : routeFacts env call = .ok facts)
    (h : (ingest env trust call s).published.isSome = true) : Publishable env trust call s facts := by
  rcases ingest_cases env trust call s with ⟨e, s', hrefused, -⟩ | ⟨facts', _, hpublishable, -⟩
  · rw [hrefused] at h
    cases h
  · rwa [Except.ok.inj (hfacts.symm.trans hpublishable.2.2.2.1)]

end AeepRouter.Package

import AeepRouter.Package.Ingest

/-!
# The rate cards an ingest saves

A rate card is collected from an artifact before the other checks of its evidence, and saved whatever
they find. So the saved cards are those of accepted evidence exactly when every collected card is also
that of a piece of evidence that is in order, and an ingest that raises saved nothing exactly when no
card collides with another (`faithfulCards_iff`).
-/

namespace AeepRouter.Package

open Lib
open Trust (TrustStore)

variable {env : Environment} {trust : TrustStore} {call : IngestCall} {s : PackageStore}
  {facts : List RouteFacts} {exhibit : Exhibit} {evaluation : Evaluation}

/-! ## Statements -/

structure Accepted (env : Environment) (call : IngestCall) (evaluation : Evaluation)
    (card : RateCardSnapshot) (evidence : EvidenceReference) (reference : ArtifactReference)
    (artifact : ResolvedArtifact) : Prop where
  published : evidence ∈ call.package.evidence
  verified : resolvedArtifact env call evidence.artifactId = some (reference, artifact)
  parsed : validateEvidencePayload env evidence artifact.payload = some (.rateCard card)
  summary : summaryMatchesArtifact evidence (.rateCard card) = true
  digest : summaryConsistent env evidence = true
  acceptance : ∃ item ∈ evaluation.acceptances, item.evidenceId = evidence.evidenceId ∧
    item.metric = "rate_card" ∧ (item.status = .accepted ∨ item.status = .acceptedAsPrior)

structure FaithfulCards (env : Environment) (call : IngestCall) (outcome : Outcome) : Prop where
  accepted : ∀ card ∈ outcome.savedCards, ∃ evaluation ∈ outcome.published,
    ∃ evidence reference artifact, Accepted env call evaluation card evidence reference artifact
  raised : ∀ e, outcome.ending = .error e → outcome.published = none ∧ outcome.savedCards = []

/-- Evidence about its route that holds together, has not expired and is trusted enough. -/
structure Exhibit.InOrder (env : Environment) (trust : TrustStore) (call : IngestCall)
    (exhibit : Exhibit) : Prop where
  matched : exhibit.matched env = true
  current : expired call.now exhibit.evidence = false
  trusted : (exhibit.trustLevel env trust call).strong = true ∨ call.allowSelfAssertedPriors = true

/-- What the collected cards are to meet before the first of them is saved. -/
structure CardsInOrder (env : Environment) (trust : TrustStore) (call : IngestCall)
    (facts : List RouteFacts) (stored : Table RateCardSnapshot (·.snapshotId)) : Prop where
  inOrder : ∀ exhibit ∈ exhibits env call facts, ∀ card, exhibit.card env = some card →
    ∃ other ∈ exhibits env call facts, other.card env = some card ∧ other.InOrder env trust call
  distinct : ∀ card ∈ (exhibits env call facts).filterMap (Exhibit.card env), ∀ other,
    other ∈ stored ∨ other ∈ (exhibits env call facts).filterMap (Exhibit.card env) →
      other.snapshotId = card.snapshotId → other = card

/-- Whether nothing refuses a package before its publication. -/
def Publishable (env : Environment) (trust : TrustStore) (call : IngestCall) (s : PackageStore)
    (facts : List RouteFacts) : Prop :=
  checkCompatibility call = .ok () ∧ verifyPackage env trust call.package call.now = none ∧
    call.package.routes.forM (checkCollision call s.candidates) = .ok () ∧
    routeFacts env call = .ok facts ∧
    ∃ published, saveProviderPackageIngest (publication env trust call facts) s = .ok published

/-! ## Ingests -/

theorem saveProviderPackageIngest_rateCards {published : PackageStore}
    (h : saveProviderPackageIngest evaluation s = .ok published) :
    published.rateCards = s.rateCards := by
  unfold saveProviderPackageIngest at h
  simp only [bind_ok, pure_ok] at h
  obtain ⟨_, -, _, -, _, -, _, -, _, -, _, -, rfl⟩ := h
  rfl

theorem evaluate_ok {candidates : Table RouteCandidate (·.executorId)} :
    evaluate env trust call candidates = .ok evaluation ↔
      call.package.routes.forM (checkCollision call candidates) = .ok () ∧
        ∃ facts, routeFacts env call = .ok facts ∧ publication env trust call facts = evaluation := by
  unfold evaluate
  simp only [bind_ok, pure_ok]
  exact ⟨fun ⟨_, hcollision, hfacts⟩ => ⟨hcollision, hfacts⟩,
    fun ⟨hcollision, hfacts⟩ => ⟨_, hcollision, hfacts⟩⟩

theorem Publishable.evaluate (h : Publishable env trust call s facts) :
    evaluate env trust call s.candidates = .ok (publication env trust call facts) :=
  evaluate_ok.mpr ⟨h.2.2.1, facts, h.2.2.2.1, rfl⟩

theorem audit_eq (s : PackageStore) (row : AuditRow) : ∃ t, s.audit row = { s with audits := t } := by
  unfold PackageStore.audit
  split
  · exact ⟨s.audits, rfl⟩
  · exact ⟨s.audits.insert row, rfl⟩

theorem ingest_cases (env : Environment) (trust : TrustStore) (call : IngestCall) (s : PackageStore) :
    (∃ e t, ingest env trust call s = .refused e { s with audits := t } ∧
      ∀ facts, ¬ Publishable env trust call s facts) ∨
    ∃ facts published, Publishable env trust call s facts ∧
      saveProviderPackageIngest (publication env trust call facts) s = .ok published ∧
      ingest env trust call s = saveRateCards (publication env trust call facts)
        (publication env trust call facts).rateCards [] published := by
  unfold ingest
  cases hcompatible : checkCompatibility call with
  | error e =>
    refine .inl ⟨e, s.audits, rfl, fun facts h => ?_⟩
    have := hcompatible.symm.trans h.1
    cases this
  | ok _ =>
    dsimp only
    cases hverified : verifyPackage env trust call.package call.now with
    | some code =>
      obtain ⟨t, ht⟩ := audit_eq s ⟨env.rejectionId (env.packageDigest call.package.toPackageContent),
        env.packageDigest call.package.toPackageContent, code, call.now⟩
      refine .inl ⟨_, t, congrArg (Outcome.refused _) ht, fun facts h => ?_⟩
      have := hverified.symm.trans h.2.1
      cases this
    | none =>
      dsimp only
      cases hevaluate : evaluate env trust call s.candidates with
      | error e =>
        refine .inl ⟨e, s.audits, rfl, fun facts h => ?_⟩
        have := hevaluate.symm.trans h.evaluate
        cases this
      | ok evaluation =>
        obtain ⟨hcollision, facts, hfacts, rfl⟩ := evaluate_ok.mp hevaluate
        dsimp only
        cases hsaved : saveProviderPackageIngest (publication env trust call facts) s with
        | error e =>
          refine .inl ⟨e, s.audits, rfl, fun facts' h => ?_⟩
          obtain ⟨published, hok⟩ := h.2.2.2.2
          rw [Except.ok.inj (h.2.2.2.1.symm.trans hfacts), hsaved] at hok
          cases hok
        | ok published =>
          exact .inr ⟨facts, published,
            ⟨hcompatible, hverified, hcollision, hfacts, published, hsaved⟩, hsaved, rfl⟩

theorem saveRateCards_cases (evaluation : Evaluation) (cards saved : List RateCardSnapshot)
    (s : PackageStore) :
    ((∃ t, s.rateCards.retainAll id cardCollision cards = .ok t) ∧
      (saveRateCards evaluation cards saved s).ending = .ok evaluation.candidates ∧
      (saveRateCards evaluation cards saved s).savedCards = saved ++ cards) ∨
    ((¬ ∃ t, s.rateCards.retainAll id cardCollision cards = .ok t) ∧
      ∃ e, (saveRateCards evaluation cards saved s).ending = .error e) := by
  induction cards generalizing saved s with
  | nil => exact .inl ⟨⟨_, rfl⟩, rfl, (List.append_nil _).symm⟩
  | cons card cards ih =>
    unfold saveRateCards
    cases hsave : saveRateCardSnapshot s card with
    | error e =>
      refine .inr ⟨fun ⟨t, ht⟩ => ?_, e, rfl⟩
      unfold Table.retainAll at ht
      rw [List.foldlM_cons, bind_ok] at ht
      obtain ⟨middle, hcard, -⟩ := ht
      unfold saveRateCardSnapshot at hsave
      rw [hcard] at hsave
      cases hsave
    | ok s' =>
      unfold saveRateCardSnapshot at hsave
      simp only [bind_ok, pure_ok] at hsave
      obtain ⟨middle, hcard, rfl⟩ := hsave
      have hrest : (∃ t, s.rateCards.retainAll id cardCollision (card :: cards) = .ok t) ↔
          ∃ t, middle.retainAll id cardCollision cards = .ok t := by
        unfold Table.retainAll
        simp only [List.foldlM_cons, bind_ok, hcard, Except.ok.injEq, exists_eq_left']
      rw [hrest]
      rcases ih (saved ++ [card]) { s with rateCards := middle } with
        ⟨hretained, hending, hcards⟩ | ⟨hnot, hraised⟩
      · exact .inl ⟨hretained, hending, by rw [hcards, List.append_assoc]; rfl⟩
      · exact .inr ⟨hnot, hraised⟩

theorem saveRateCards_published (evaluation : Evaluation) (cards saved : List RateCardSnapshot)
    (s : PackageStore) : (saveRateCards evaluation cards saved s).published = some evaluation := by
  induction cards generalizing saved s with
  | nil => rfl
  | cons card cards ih =>
    unfold saveRateCards
    split
    · rfl
    · exact ih _ _

/-! ## Evidence -/

theorem mem_exhibits : exhibit ∈ exhibits env call facts ↔
    exhibit.evidence ∈ call.package.evidence ∧
      resolvedArtifact env call exhibit.evidence.artifactId =
        some (exhibit.reference, exhibit.artifact) ∧
      facts.find? (·.route.routeId = exhibit.evidence.subject.routeId) = some exhibit.facts := by
  unfold exhibits
  rw [List.mem_filterMap]
  constructor
  · rintro ⟨evidence, hevidence, hsome⟩
    simp only [Option.bind_eq_bind, Option.bind_eq_some_iff, Option.pure_def, Option.some.injEq] at hsome
    obtain ⟨⟨reference, artifact⟩, hresolved, route, hroute, rfl⟩ := hsome
    exact ⟨hevidence, hresolved, hroute⟩
  · rintro ⟨hevidence, hresolved, hroute⟩
    refine ⟨exhibit.evidence, hevidence, ?_⟩
    simp only [hresolved, hroute, Option.bind_eq_bind, Option.bind_some, Option.pure_def]

theorem card_eq_some {card : RateCardSnapshot} : exhibit.card env = some card ↔
    validateEvidencePayload env exhibit.evidence exhibit.artifact.payload = some (.rateCard card) ∧
      summaryMatchesArtifact exhibit.evidence (.rateCard card) = true := by
  unfold Exhibit.card collectedCard
  split
  next parsed hparsed =>
    rw [Option.ite_none_right_eq_some, hparsed]
    constructor
    · rintro ⟨hmatch, hcard⟩
      cases hcard
      exact ⟨rfl, hmatch⟩
    · rintro ⟨hcard, hmatch⟩
      cases hcard
      exact ⟨hmatch, rfl⟩
  next hnot =>
    constructor
    · exact nofun
    · exact fun ⟨hparsed, _⟩ => absurd hparsed (hnot card)

theorem rate_card_mem_metrics {card : RateCardSnapshot} (h : exhibit.card env = some card) :
    "rate_card" ∈ evidenceMetrics exhibit.evidence := by
  have htype : exhibit.evidence.evidenceType = .rateCardSnapshot := by
    have hparsed := (card_eq_some.mp h).1
    unfold validateEvidencePayload at hparsed
    split at hparsed <;> first | assumption | (simp at hparsed)
  unfold evidenceMetrics
  rw [if_pos htype]
  exact List.mem_append_right _ List.mem_cons_self

theorem trustMax_strong {values : List TrustLevel}
    (h : .verified ∈ values ∨ .attested ∈ values) : (trustMax values).strong = true := by
  unfold trustMax
  split_ifs <;> simp_all [TrustLevel.strong]

/-- An attestation that counts makes evidence more than self-asserted. -/
theorem trustLevel_strong {attestation : EvidenceAttestation} {key : Trust.TrustedProviderKey}
    (h : attestation ∈ exhibit.evidence.attestations)
    (hkey : attestingKey env trust call.now exhibit.evidence exhibit.reference.digest attestation =
      some key) : (exhibit.trustLevel env trust call).strong = true := by
  have hlevel : TrustLevel.ofKey key.trust ∈ exhibit.evidence.attestations.filterMap fun attestation =>
      (attestingKey env trust call.now exhibit.evidence exhibit.reference.digest attestation).map
        (TrustLevel.ofKey ·.trust) :=
    List.mem_filterMap.mpr ⟨attestation, h, Option.map_eq_some_iff.mpr ⟨key, hkey, rfl⟩⟩
  unfold Exhibit.trustLevel evidenceTrust
  dsimp only
  rw [if_neg (List.ne_nil_of_mem hlevel)]
  refine trustMax_strong ?_
  cases htrust : key.trust <;> rw [htrust] at hlevel
  · exact .inl hlevel
  · exact .inr hlevel

theorem trustLevel_selfAsserted
    (h : ∀ attestation ∈ exhibit.evidence.attestations,
      attestingKey env trust call.now exhibit.evidence exhibit.reference.digest attestation = none) :
    exhibit.trustLevel env trust call = .selfAsserted := by
  unfold Exhibit.trustLevel evidenceTrust
  dsimp only
  rw [if_pos]
  exact List.filterMap_eq_nil_iff.mpr fun attestation hin => by rw [h attestation hin]; rfl

theorem trustLevel_cases (env : Environment) (trust : TrustStore) (call : IngestCall)
    (exhibit : Exhibit) : (exhibit.trustLevel env trust call).strong = true ∨
      exhibit.trustLevel env trust call = .selfAsserted := by
  by_cases h : ∀ attestation ∈ exhibit.evidence.attestations,
      attestingKey env trust call.now exhibit.evidence exhibit.reference.digest attestation = none
  · exact .inr (trustLevel_selfAsserted h)
  · push Not at h
    obtain ⟨attestation, hin, hne⟩ := h
    obtain ⟨key, hkey⟩ := Option.ne_none_iff_exists'.mp hne
    exact .inl (trustLevel_strong hin hkey)

theorem accept_iff (env : Environment) (trust : TrustStore) (call : IngestCall) (exhibit : Exhibit)
    (metric : String) : ((exhibit.accept env trust call metric).status = .accepted ∨
      (exhibit.accept env trust call metric).status = .acceptedAsPrior) ↔
      exhibit.InOrder env trust call := by
  have hlevel := trustLevel_cases env trust call exhibit
  change ((acceptanceVerdict call.package call.now exhibit.evidence metric
      (exhibit.trustLevel env trust call) (exhibit.matched env) call.allowSelfAssertedPriors).1 = _ ∨
    (acceptanceVerdict call.package call.now exhibit.evidence metric
      (exhibit.trustLevel env trust call) (exhibit.matched env) call.allowSelfAssertedPriors).1 = _) ↔ _
  generalize hl : exhibit.trustLevel env trust call = level at hlevel
  have horder : exhibit.InOrder env trust call ↔ exhibit.matched env = true ∧
      expired call.now exhibit.evidence = false ∧
      (level.strong = true ∨ call.allowSelfAssertedPriors = true) :=
    ⟨fun h => ⟨h.matched, h.current, hl ▸ h.trusted⟩,
      fun h => ⟨h.1, h.2.1, hl ▸ h.2.2⟩⟩
  rw [horder]
  unfold acceptanceVerdict
  split_ifs <;> simp_all

theorem mem_acceptances {item : EvidenceAcceptance} :
    item ∈ (publication env trust call facts).acceptances ↔
      ∃ exhibit ∈ exhibits env call facts, ∃ metric ∈ evidenceMetrics exhibit.evidence,
        exhibit.accept env trust call metric = item := by
  unfold publication Exhibit.acceptances
  simp only [List.mem_flatMap, List.mem_map]

theorem mem_rateCards {card : RateCardSnapshot} :
    card ∈ (publication env trust call facts).rateCards ↔
      ∃ exhibit ∈ exhibits env call facts, exhibit.card env = some card := List.mem_filterMap

theorem Exhibit.InOrder.accepted {card : RateCardSnapshot} (h : exhibit.InOrder env trust call)
    (hexhibit : exhibit ∈ exhibits env call facts) (hcard : exhibit.card env = some card) :
    Accepted env call (publication env trust call facts) card exhibit.evidence exhibit.reference
      exhibit.artifact := by
  obtain ⟨hevidence, hresolved, -⟩ := mem_exhibits.mp hexhibit
  obtain ⟨hparsed, hsummary⟩ := card_eq_some.mp hcard
  have hcontent : contentHolds env exhibit.evidence exhibit.artifact.payload = true :=
    (Bool.and_eq_true_iff.mp h.matched).2
  have hdigest : summaryConsistent env exhibit.evidence = true := by
    unfold contentHolds at hcontent
    rw [hparsed] at hcontent
    exact (Bool.and_eq_true_iff.mp hcontent).2
  exact ⟨hevidence, hresolved, hparsed, hsummary, hdigest, _,
    mem_acceptances.mpr ⟨exhibit, hexhibit, _, rate_card_mem_metrics hcard, rfl⟩, rfl, rfl,
    (accept_iff env trust call exhibit _).mpr h⟩

theorem Accepted.inOrder {card : RateCardSnapshot} {evidence : EvidenceReference}
    {reference : ArtifactReference} {artifact : ResolvedArtifact}
    (h : Accepted env call (publication env trust call facts) card evidence reference artifact) :
    ∃ exhibit ∈ exhibits env call facts, exhibit.card env = some card ∧
      exhibit.InOrder env trust call := by
  obtain ⟨item, hitem, hid, hmetric, hstatus⟩ := h.acceptance
  obtain ⟨exhibit, hexhibit, metric, -, rfl⟩ := mem_acceptances.mp hitem
  obtain ⟨hpublished, hresolved, -⟩ := mem_exhibits.mp hexhibit
  obtain rfl : exhibit.evidence = evidence :=
    List.inj_on_of_nodup_map call.package.evidence_nodup hpublished h.published hid
  have hsame := hresolved.symm.trans h.verified
  rw [Option.some_inj, Prod.mk.injEq] at hsame
  obtain rfl : metric = "rate_card" := hmetric
  refine ⟨exhibit, hexhibit, card_eq_some.mpr ⟨?_, h.summary⟩,
    (accept_iff env trust call exhibit _).mp hstatus⟩
  rw [hsame.2]
  exact h.parsed

/-! ## The rate cards of an ingest -/

def exampleCard : RateCardSnapshot := ⟨"rate_1", 0, none, some "USD", [], "card"⟩

/-- Digests that spell out what they are of, and artifacts whose payload is in their reference. -/
def exampleEnvironment : Environment where
  packageDigest content := "sha256:" ++ content.packageId ++ content.version
  attestationDigest fields := "sha256:" ++ fields.evidenceId ++ fields.artifactDigest
  summaryDigest summary := some ("sha256:" ++ String.join (summary.map (·.1)))
  routeFingerprint route _ := .ok ("sha256:" ++ route.definition)
  executorSpec route providerId := providerId ++ route.definition
  behaviorFingerprint spec := "sha256:" ++ spec
  verifiesPackage publicKey digest signature := signature = publicKey ++ digest
  verifiesEvidence publicKey digest signature := signature = publicKey ++ digest
  acceptanceId digest evidenceId metric := "accept_" ++ digest ++ evidenceId ++ metric
  snapshotId digest routeId := "verify_" ++ digest ++ routeId
  candidateId sourceId routeId := "candidate_" ++ sourceId ++ routeId
  rejectionId digest := "package_audit_" ++ digest
  qualificationReport payload := if payload = "report" then some (20, 20) else none
  benchmarkCampaign _ := none
  rateCardSnapshot payload := if payload = "card" then some exampleCard else none
  comparisonReport _ := none
  isObject payload := payload = "report"
  resolveLocal reference := .ok ⟨reference.rest, "/cas/" ++ reference.digest, "local"⟩
  resolveHttps _ := .error "artifact cannot be fetched"

/-- A rate card that was valid until the instant 5. -/
def expiredCard : EvidenceReference where
  evidenceId := "e"
  evidenceType := .rateCardSnapshot
  artifactId := "a"
  subject := ⟨"r", "text.read", "sha256:route", none, ""⟩
  producer := ⟨"p", .evidenceProducer, none⟩
  authorityClass := some .independentLab
  cohort := some "cohort"
  trustClaim := .selfAsserted
  validity := ⟨0, none, some 5⟩
  summary := none
  summaryDigest := none
  attestations := []

/-- A package of one route with its rate card, signed with a key it names itself. -/
def cardPackage : ProviderPackage where
  apiVersion := .v06
  packageId := "package"
  version := "1.0.0"
  issuedAt := 0
  expiresAt := none
  providerId := "p"
  keys := [⟨"k", "key", [.packagePublisher], none, none⟩]
  aeepMin := (0, 6, 0)
  aeepMaxExclusive := none
  routes := [⟨"r", "text.read", "sha256:route", "route"⟩]
  artifacts := [⟨"a", "sha256:a", "application/json", 4, .path "card.json", false, "card"⟩]
  evidence := [expiredCard]
  smokeTests := []
  rest := ""
  integrityDigest := "sha256:package1.0.0"
  signatures := [⟨"s", "k", "sha256:package1.0.0", "keysha256:package1.0.0", 1⟩]
  routes_ne := by decide
  routes_nodup := by decide
  artifacts_nodup := by decide
  evidence_nodup := by decide
  subjects := by decide
  signatures_nodup := by decide
  signed_digest := by decide
  signed_after := by decide
  summarized := by decide
  windows := by decide
  classified := by decide

def exampleCall (package : ProviderPackage) (now : Int) : IngestCall :=
  ⟨package, now, "package-file:/p", false, true, []⟩

end AeepRouter.Package

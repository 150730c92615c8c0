import AeepRouter.Package.RateCards

/-!
# Ingesting a package again

The identities of the rows an ingest publishes come from the content of the package, and their
payloads tell the time of the ingest (acceptances and snapshots) or all signatures (the package). A
later ingest of the same content therefore succeeds exactly when it reads the same time and finds the
same signatures (`ingest_again_iff`); then it leaves the store as it was.
-/

namespace AeepRouter.Package

open Lib
open Trust (TrustStore)

variable {env : Environment} {trust : TrustStore} {call : IngestCall} {s s' : PackageStore}
  {facts : List RouteFacts} {evaluation : Evaluation} {candidates : List RouteCandidate}

/-! ## Statements -/

/-- A candidate up to its times. -/
def RouteCandidate.timeless (candidate : RouteCandidate) : RouteCandidate :=
  { candidate with createdAt := 0, updatedAt := 0 }

/-- A store with one row for every identity of what an ingest published. -/
structure OneEach (evaluation : Evaluation) (s : PackageStore) : Prop where
  package : s.packages.rows.countP (·.packageDigest = evaluation.packageRow.packageDigest) = 1
  signature : ∀ row ∈ evaluation.signatureRows, s.signatures.rows.countP (·.key = row.key) = 1
  evidence : ∀ row ∈ evaluation.evidenceRows, s.evidence.rows.countP (·.key = row.key) = 1
  acceptance : ∀ row ∈ evaluation.acceptances,
    s.acceptances.rows.countP (·.acceptanceId = row.acceptanceId) = 1
  snapshot : ∀ row ∈ evaluation.snapshots, s.snapshots.rows.countP (·.snapshotId = row.snapshotId) = 1

/-- What a later ingest is to do after one that returned these candidates. -/
structure Repeats (candidates : List RouteCandidate) (outcome : Outcome) : Prop where
  returns : ∃ again, outcome.ending = .ok again ∧
    again.map RouteCandidate.timeless = candidates.map RouteCandidate.timeless
  once : ∀ evaluation ∈ outcome.published, OneEach evaluation outcome.store

/-! ## What a successful ingest leaves -/

/-- A store that has what an ingest publishes. -/
structure Holds (evaluation : Evaluation) (s : PackageStore) : Prop where
  package : s.packages.Retains (·.package) evaluation.packageRow
  signatures : ∀ row ∈ evaluation.signatureRows, s.signatures.Retains (·.result) row
  contents : ∀ row ∈ evaluation.contentRows, s.contents.Retains ContentArtifactRow.metadata row
  artifacts : ∀ row ∈ evaluation.artifactRows, s.artifacts.Retains (·.result) row
  evidence : ∀ row ∈ evaluation.evidenceRows, s.evidence.Retains (·.evidence) row
  acceptances : ∀ row ∈ evaluation.acceptances, s.acceptances.Retains id row
  snapshots : ∀ row ∈ evaluation.snapshots, s.snapshots.Retains id row
  candidates : ∀ row ∈ evaluation.candidates, row ∈ s.candidates
  rateCards : ∀ row ∈ evaluation.rateCards, s.rateCards.Retains id row

theorem find?_upsertArtifact (t : Table PackageArtifactRow PackageArtifactRow.key)
    (row : PackageArtifactRow) : (upsertArtifact t row).Retains (·.result) row ∧
      ∀ k, k ≠ row.key → (upsertArtifact t row).find? k = t.find? k := by
  unfold upsertArtifact
  split
  next hnone =>
    refine ⟨⟨row, Table.find?_insert_self hnone, rfl⟩, fun k hk => ?_⟩
    rw [Table.find?_insert hnone, if_neg hk]
  next stored hstored =>
    refine ⟨⟨_, (Table.find?_assign _ _ _).trans (if_pos rfl), rfl⟩, fun k hk => ?_⟩
    exact (Table.find?_assign _ _ _).trans (if_neg hk)

theorem retains_upsertAll {rows : List PackageArtifactRow}
    (hnodup : (rows.map PackageArtifactRow.key).Nodup)
    (t : Table PackageArtifactRow PackageArtifactRow.key) :
    (∀ row ∈ rows, (rows.foldl upsertArtifact t).Retains (·.result) row) ∧
      ∀ k, k ∉ rows.map PackageArtifactRow.key → (rows.foldl upsertArtifact t).find? k = t.find? k := by
  induction rows generalizing t with
  | nil => exact ⟨fun _ h => absurd h List.not_mem_nil, fun _ _ => rfl⟩
  | cons row rows ih =>
    rw [List.map_cons, List.nodup_cons] at hnodup
    obtain ⟨hretained, hothers⟩ := ih hnodup.2 (upsertArtifact t row)
    obtain ⟨hrow, hframe⟩ := find?_upsertArtifact t row
    refine ⟨List.forall_mem_cons.mpr ⟨?_, hretained⟩, fun k hk => ?_⟩
    · obtain ⟨stored, hstored, hresult⟩ := hrow
      exact ⟨stored, (hothers row.key hnodup.1).trans hstored, hresult⟩
    · rw [List.map_cons, List.mem_cons, not_or] at hk
      exact (hothers k hk.2).trans (hframe k hk.1)

theorem upsertAll_of_retains {rows : List PackageArtifactRow}
    {t : Table PackageArtifactRow PackageArtifactRow.key}
    (h : ∀ row ∈ rows, t.Retains (·.result) row) : rows.foldl upsertArtifact t = t := by
  induction rows with
  | nil => rfl
  | cons row rows ih =>
    obtain ⟨⟨stored, hstored, hresult⟩, hrest⟩ := List.forall_mem_cons.mp h
    have hsame : { row with artifactDigest := stored.artifactDigest, required := stored.required } =
        stored := by
      have hkey : stored.key = row.key := Table.key_of_find? hstored
      obtain ⟨digest, id, artifact, required, result⟩ := stored
      cases hkey
      cases hresult
      rfl
    have hfirst : upsertArtifact t row = t := by
      unfold upsertArtifact
      rw [hstored]
      dsimp only
      rw [hsame]
      exact Table.assign_of_mem (Table.mem_of_find? hstored)
    rw [List.foldl_cons, hfirst]
    exact ih hrest

theorem saveProviderPackageIngest_holds {published : PackageStore}
    (hartifacts : (evaluation.artifactRows.map PackageArtifactRow.key).Nodup)
    (hcandidates : (evaluation.candidates.map (·.executorId)).Nodup)
    {t : Table RateCardSnapshot (·.snapshotId)}
    (h : saveProviderPackageIngest evaluation s = .ok published)
    (hcards : ∀ row ∈ evaluation.rateCards, t.Retains id row) :
    Holds evaluation { published with rateCards := t } := by
  unfold saveProviderPackageIngest at h
  simp only [bind_ok, pure_ok] at h
  obtain ⟨packages, hpackages, signatures, hsignatures, contents, hcontents, evidence, hevidence,
    acceptances, hacceptances, snapshots, hsnapshots, rfl⟩ := h
  exact {
    package := (Table.retain_ok hpackages).2.1
    signatures := (Table.retainAll_ok hsignatures).2.1
    contents := (Table.retainAll_ok hcontents).2.1
    artifacts := (retains_upsertAll hartifacts s.artifacts).1
    evidence := (Table.retainAll_ok hevidence).2.1
    acceptances := (Table.retainAll_ok hacceptances).2.1
    snapshots := (Table.retainAll_ok hsnapshots).2.1
    candidates := fun _ hrow => Table.mem_assignAll hcandidates hrow
    rateCards := hcards }

/-- What is stored is published again without a change. -/
theorem Holds.save_again (h : Holds evaluation s) :
    saveProviderPackageIngest evaluation s = .ok s := by
  unfold saveProviderPackageIngest
  rw [h.package.retain_eq, Table.retainAll_again h.signatures, Table.retainAll_again h.contents,
    Table.retainAll_again h.evidence, Table.retainAll_again h.acceptances,
    Table.retainAll_again h.snapshots]
  simp only [bind, Except.bind, pure, Except.pure, upsertAll_of_retains h.artifacts,
    Table.assignAll_of_mem h.candidates]

theorem saveRateCards_again {cards saved : List RateCardSnapshot}
    (h : ∀ card ∈ cards, s.rateCards.Retains id card) : saveRateCards evaluation cards saved s =
      ⟨.ok evaluation.candidates, s, some evaluation, saved ++ cards⟩ := by
  induction cards generalizing saved with
  | nil => rw [List.append_nil]; rfl
  | cons card cards ih =>
    obtain ⟨hcard, hrest⟩ := List.forall_mem_cons.mp h
    have hsave : saveRateCardSnapshot s card = .ok s := by
      unfold saveRateCardSnapshot
      rw [hcard.retain_eq]
      rfl
    unfold saveRateCards
    rw [hsave]
    dsimp only
    rw [ih hrest, List.append_assoc]
    rfl

theorem saveRateCards_ok {cards saved : List RateCardSnapshot}
    (h : (saveRateCards evaluation cards saved s).ending = .ok candidates) :
    candidates = evaluation.candidates ∧ ∃ t : Table RateCardSnapshot (·.snapshotId),
      (saveRateCards evaluation cards saved s).store = { s with rateCards := t } ∧
        s.rateCards.Extends t ∧ ∀ card ∈ cards, t.Retains id card := by
  induction cards generalizing saved s with
  | nil =>
    cases h
    exact ⟨rfl, s.rateCards, rfl, .refl _, fun _ h => absurd h List.not_mem_nil⟩
  | cons card cards ih =>
    unfold saveRateCards at h ⊢
    cases hsave : saveRateCardSnapshot s card with
    | error e =>
      rw [hsave] at h
      cases h
    | ok next =>
      rw [hsave] at h
      unfold saveRateCardSnapshot at hsave
      simp only [bind_ok, pure_ok] at hsave
      obtain ⟨middle, hcard, rfl⟩ := hsave
      obtain ⟨hext, hretained, -⟩ := Table.retain_ok hcard
      obtain ⟨hcandidates, t, hstore, hext', hrest⟩ := ih h
      exact ⟨hcandidates, t, hstore, hext.trans hext',
        List.forall_mem_cons.mpr ⟨hretained.mono hext', hrest⟩⟩

/-! ## Successful ingests -/

theorem routeFacts_map (h : routeFacts env call = .ok facts) :
    facts.map (·.route) = call.package.routes := by
  unfold routeFacts at h
  generalize call.package.routes = routes at h
  induction routes generalizing facts with
  | nil =>
    cases h
    rfl
  | cons route routes ih =>
    simp only [List.mapM_cons, bind_ok, pure_ok] at h
    obtain ⟨first, ⟨fingerprint, -, rfl⟩, rest, hrest, rfl⟩ := h
    rw [List.map_cons, ih hrest]

theorem nodup_candidates (h : routeFacts env call = .ok facts) :
    ((publication env trust call facts).candidates.map (·.executorId)).Nodup := by
  have hids : (publication env trust call facts).candidates.map (·.executorId) =
      call.package.routes.map (·.routeId) := by
    rw [← routeFacts_map h, List.map_map]
    exact List.map_map
  rw [hids]
  exact call.package.routes_nodup

theorem nodup_artifactRows (env : Environment) (trust : TrustStore) (call : IngestCall)
    (facts : List RouteFacts) :
    ((publication env trust call facts).artifactRows.map PackageArtifactRow.key).Nodup := by
  have hids : (publication env trust call facts).artifactRows.map PackageArtifactRow.key =
      (call.package.artifacts.map (·.artifactId)).map
        fun id => (env.packageDigest call.package.toPackageContent, id) := by
    rw [List.map_map]
    exact List.map_map
  rw [hids]
  exact call.package.artifacts_nodup.map fun _ _ h => congrArg Prod.snd h

theorem ingest_ok (h : (ingest env trust call s).ending = .ok candidates) :
    ∃ facts, Publishable env trust call s facts ∧
      candidates = (publication env trust call facts).candidates ∧
      (ingest env trust call s).published = some (publication env trust call facts) ∧
      Holds (publication env trust call facts) (ingest env trust call s).store := by
  rcases ingest_cases env trust call s with ⟨e, s', hrefused, -⟩ |
    ⟨facts, published, hpublishable, hsaved, hingest⟩
  · rw [hrefused] at h
    cases h
  · rw [hingest] at h ⊢
    obtain ⟨hcandidates, t, hstore, -, hcards⟩ := saveRateCards_ok h
    refine ⟨facts, hpublishable, hcandidates, saveRateCards_published _ _ _ _, ?_⟩
    rw [hstore]
    exact saveProviderPackageIngest_holds
      (nodup_artifactRows env trust call facts) (nodup_candidates hpublishable.2.2.2.1) hsaved hcards

/-- The candidates of an ingest do not stand in the way of the next one from its source. -/
theorem Holds.checkCollision (h : Holds (publication env trust call facts) s)
    (hfacts : routeFacts env call = .ok facts) :
    call.package.routes.forM (checkCollision call s.candidates) = .ok () := by
  refine forM_ok.mpr fun route hroute => ?_
  rw [← routeFacts_map hfacts] at hroute
  obtain ⟨fact, hfact, rfl⟩ := List.mem_map.mp hroute
  have hstored : candidateOf env call (env.packageDigest call.package.toPackageContent) fact ∈
      s.candidates := h.candidates _ (List.mem_map_of_mem hfact)
  have hfound : s.candidates.find? fact.route.routeId =
      some (candidateOf env call (env.packageDigest call.package.toPackageContent) fact) :=
    Table.find?_of_mem hstored
  unfold Package.checkCollision
  rw [hfound]
  exact raiseIf_ok.mpr fun hne => hne rfl

theorem ingest_same (h : (ingest env trust call s).ending = .ok candidates) :
    (ingest env trust call (ingest env trust call s).store).ending = .ok candidates ∧
      (ingest env trust call (ingest env trust call s).store).published =
        (ingest env trust call s).published ∧
      (ingest env trust call (ingest env trust call s).store).store =
        (ingest env trust call s).store := by
  obtain ⟨facts, hpublishable, hcandidates, hpublished, hholds⟩ := ingest_ok h
  obtain ⟨hcompatible, hverified, -, hfacts, -⟩ := hpublishable
  have hevaluate : evaluate env trust call (ingest env trust call s).store.candidates =
      .ok (publication env trust call facts) :=
    evaluate_ok.mpr ⟨hholds.checkCollision hfacts, facts, hfacts, rfl⟩
  have hagain : ingest env trust call (ingest env trust call s).store =
      ⟨.ok (publication env trust call facts).candidates, (ingest env trust call s).store,
        some (publication env trust call facts), (publication env trust call facts).rateCards⟩ := by
    generalize (ingest env trust call s).store = left at hevaluate hholds
    unfold ingest
    rw [hcompatible, hverified]
    dsimp only
    rw [hevaluate]
    dsimp only
    rw [hholds.save_again]
    dsimp only
    rw [saveRateCards_again hholds.rateCards, List.nil_append]
  rw [hagain, hcandidates, hpublished]
  exact ⟨rfl, rfl, rfl⟩

/-! ## Once each -/

theorem countP_of_find? {α κ : Type} [DecidableEq κ] {key : α → κ} {t : Table α key} {k : κ} {x : α}
    (h : t.find? k = some x) : t.rows.countP (key · = k) = 1 := by
  obtain ⟨hmem, rfl⟩ := Table.find?_eq_some.mp h
  have hcount : t.rows.countP (fun y => key y = key x) = (t.rows.map key).count (key x) := by
    rw [List.count, List.countP_map]
    rfl
  rw [hcount]
  exact List.count_eq_one_of_mem t.nodup (List.mem_map_of_mem hmem)

theorem Holds.oneEach (h : Holds evaluation s) : OneEach evaluation s where
  package := by
    obtain ⟨stored, hstored, -⟩ := h.package
    exact countP_of_find? hstored
  signature row hrow := by
    obtain ⟨stored, hstored, -⟩ := h.signatures row hrow
    exact countP_of_find? hstored
  evidence row hrow := by
    obtain ⟨stored, hstored, -⟩ := h.evidence row hrow
    exact countP_of_find? hstored
  acceptance row hrow := by
    obtain ⟨stored, hstored, -⟩ := h.acceptances row hrow
    exact countP_of_find? hstored
  snapshot row hrow := by
    obtain ⟨stored, hstored, -⟩ := h.snapshots row hrow
    exact countP_of_find? hstored

/-! ## Ingesting again -/

theorem same_of_publishable {call' : IngestCall} {facts' : List RouteFacts}
    (hcontent : call'.package.toPackageContent = call.package.toPackageContent)
    (hfacts : routeFacts env call = .ok facts)
    (hholds : Holds (publication env trust call facts) s)
    (h : Publishable env trust call' s facts') :
    call'.package = call.package ∧ call'.now = call.now := by
  obtain ⟨-, -, -, hfacts', published, hsaved⟩ := h
  unfold saveProviderPackageIngest at hsaved
  simp only [bind_ok, pure_ok] at hsaved
  obtain ⟨_, hpackages, _, -, _, -, _, -, _, -, _, hsnapshots, -⟩ := hsaved
  have hdigest : (publication env trust call' facts').packageRow.packageDigest =
      (publication env trust call facts).packageRow.packageDigest :=
    congrArg env.packageDigest hcontent
  constructor
  · obtain ⟨stored, hstored, hpackage⟩ := hholds.package
    have hsame := Table.retain_payload hpackages
      (show s.packages.find? _ = some stored from hdigest ▸ hstored)
    exact hsame.symm.trans hpackage
  · -- the snapshot of the first route tells the time
    have hroutes : facts'.map (·.route) = facts.map (·.route) := by
      rw [routeFacts_map hfacts', routeFacts_map hfacts, hcontent]
    have hne : facts ≠ [] := by
      rintro rfl
      exact call.package.routes_ne (routeFacts_map hfacts).symm
    obtain ⟨fact, rest, rfl⟩ := List.exists_cons_of_ne_nil hne
    obtain ⟨fact', rest', rfl⟩ : ∃ fact' rest', facts' = fact' :: rest' := by
      cases facts' with
      | nil => cases hroutes
      | cons fact' rest' => exact ⟨fact', rest', rfl⟩
    have hroute : fact'.route = fact.route := (List.cons.inj hroutes).1
    obtain ⟨stored, hstored, hsnapshot⟩ := hholds.snapshots _ List.mem_cons_self
    have hid : (snapshotOf env trust call' (env.packageDigest call'.package.toPackageContent)
        (publication env trust call' (fact' :: rest')).acceptances fact').snapshotId =
        (snapshotOf env trust call (env.packageDigest call.package.toPackageContent)
          (publication env trust call (fact :: rest)).acceptances fact).snapshotId := by
      change env.snapshotId _ _ = env.snapshotId _ _
      rw [hcontent, hroute]
    have hsame := Table.retainAll_payload hsnapshots List.mem_cons_self
      (show s.snapshots.find? _ = some stored from hid ▸ hstored)
    exact congrArg CandidateVerificationSnapshot.createdAt (hsame.symm.trans hsnapshot)

/-- After a successful ingest, an ingest of the same content succeeds with the same candidates and one
row for every identity exactly when it reads the same time and finds the same signatures. -/
theorem ingest_again_iff (env : Environment) (trust : TrustStore) (call : IngestCall)
    (s : PackageStore) (candidates : List RouteCandidate) (package : ProviderPackage) (now : Int)
    (h : (ingest env trust call s).ending = .ok candidates)
    (hcontent : package.toPackageContent = call.package.toPackageContent) :
    Repeats candidates (ingest env trust { call with package := package, now := now }
      (ingest env trust call s).store) ↔ now = call.now ∧ package = call.package := by
  obtain ⟨facts, hpublishable, -, -, hholds⟩ := ingest_ok h
  constructor
  · rintro ⟨⟨again, hending, -⟩, -⟩
    obtain ⟨facts', hpublishable', -⟩ := ingest_ok hending
    obtain ⟨hpackage, hnow⟩ :=
      same_of_publishable hcontent hpublishable.2.2.2.1 hholds hpublishable'
    exact ⟨hnow, hpackage⟩
  · rintro ⟨rfl, rfl⟩
    obtain ⟨hending, hpublished, hstore⟩ := ingest_same h
    refine ⟨⟨candidates, hending, rfl⟩, fun evaluation hevaluation => ?_⟩
    obtain ⟨facts', -, -, hpublication, hholds'⟩ := ingest_ok hending
    obtain rfl := Option.some_inj.mp (hpublication.symm.trans hevaluation)
    exact hholds'.oneEach

/-! ## A package with a rate card, again -/

/-- The candidate of the package, ingested at the instant 3. -/
def exampleCandidate : RouteCandidate where
  candidateId := "candidate_package-file:/pr"
  executorId := "r"
  sourceId := "package-file:/p"
  providerId := "p"
  capability := "text.read"
  behaviorFingerprint := "sha256:proute"
  packageDigest := "sha256:package1.0.0"
  packageFingerprint := "sha256:route"
  verificationSnapshotId := "verify_sha256:package1.0.0r"
  qualificationReportId := none
  status := .candidate
  spec := "proute"
  reason := none
  createdAt := 3
  updatedAt := 3

theorem ingest_example : (ingest exampleEnvironment ∅ (exampleCall cardPackage 3) .empty).ending =
    .ok [exampleCandidate] := by decide +kernel

theorem ingest_again_iff_of_same_time :
    Repeats [exampleCandidate] (ingest exampleEnvironment ∅ (exampleCall cardPackage 3)
      (ingest exampleEnvironment ∅ (exampleCall cardPackage 3) .empty).store) :=
  (ingest_again_iff exampleEnvironment ∅ (exampleCall cardPackage 3) .empty [exampleCandidate]
    cardPackage 3 ingest_example rfl).mpr ⟨rfl, rfl⟩

def countersignedPackage : ProviderPackage :=
  { cardPackage with
    signatures := cardPackage.signatures ++
      [⟨"t", "k", "sha256:package1.0.0", "keysha256:package1.0.0", 2⟩]
    signatures_nodup := by decide
    signed_digest := by decide
    signed_after := by decide }

/-- An instant later the package is refused, and at the same instant with a second signature. -/
theorem later_ingest_refused :
    (ingest exampleEnvironment ∅ (exampleCall cardPackage 3) .empty).ending =
      .ok [exampleCandidate] ∧
    ¬ Repeats [exampleCandidate] (ingest exampleEnvironment ∅ (exampleCall cardPackage 4)
        (ingest exampleEnvironment ∅ (exampleCall cardPackage 3) .empty).store) ∧
    ¬ Repeats [exampleCandidate] (ingest exampleEnvironment ∅ (exampleCall countersignedPackage 3)
        (ingest exampleEnvironment ∅ (exampleCall cardPackage 3) .empty).store) := by
  have hlater : (ingest exampleEnvironment ∅ (exampleCall cardPackage 4)
      (ingest exampleEnvironment ∅ (exampleCall cardPackage 3) .empty).store).ending =
        .error (.configuration "evidence acceptance ID conflicts with prior content") := by
    decide +kernel
  have hcountersigned : (ingest exampleEnvironment ∅ (exampleCall countersignedPackage 3)
      (ingest exampleEnvironment ∅ (exampleCall cardPackage 3) .empty).store).ending =
        .error (.configuration "provider package digest collides with different content") := by
    decide +kernel
  refine ⟨ingest_example, fun h => ?_, fun h => ?_⟩ <;> obtain ⟨again, hending, -⟩ := h.returns
  · rw [hlater] at hending
    cases hending
  · rw [hcountersigned] at hending
    cases hending

end AeepRouter.Package

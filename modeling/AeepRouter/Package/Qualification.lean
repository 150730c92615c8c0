import AeepRouter.Package.Attestation
import AeepRouter.Package.Candidates

/-!
# What a qualification rests on

Acceptances and smoke reports of a route outlive the package they are about. A report of
`qualifyCandidateFromEvidence` rests on the package of its candidate exactly when every piece of
evidence that was ever accepted for the route was also accepted from that package and has not
expired, and a smoke run came after the package (`grounded_iff`). The fingerprints then agree by
`Linked`, which every call keeps.
-/

namespace AeepRouter.Package

open Lib
open Trust (TrustStore)

variable {env : Environment} {runtime : Runtime} {trust : TrustStore} {call : IngestCall}
  {facts : List RouteFacts} {evaluation : Evaluation} {s s' : PackageStore} {store : CandidateStore}
  {digest executorId fingerprint : String} {now : Int}

/-! ## Statements -/

def Publishes (env : Environment) (s : PackageStore) (digest executorId fingerprint : String) : Prop :=
  ∃ row, s.packages.find? digest = some row ∧ ∃ route ∈ row.package.routes,
    route.routeId = executorId ∧ env.routeFingerprint route row.package.providerId = .ok fingerprint

def AcceptedFrom (s : PackageStore) (digest executorId evidenceId : String) : Prop :=
  ∃ item ∈ s.acceptances, item.packageDigest = digest ∧ item.candidateId = executorId ∧
    item.evidenceId = evidenceId ∧ item.metric = "correctness" ∧ item.status = .accepted

structure RestsOn (env : Environment) (store : CandidateStore) (now : Int)
    (report : QualificationReport) (candidate : RouteCandidate) (row : PackageRow)
    (fingerprint : String) : Prop where
  package : store.packages.find? candidate.packageDigest = some row
  published : Publishes env store.toPackageStore candidate.packageDigest candidate.executorId
    fingerprint
  accepted : ∀ id ∈ report.sourceEvidenceIds,
    AcceptedFrom store.toPackageStore candidate.packageDigest candidate.executorId id
  subject : ∀ id ∈ report.sourceEvidenceIds,
    ∃ item, store.evidence.find? (candidate.packageDigest, id) = some item ∧
      item.evidence.subject.routeFingerprint = fingerprint ∧ expired now item.evidence = false
  smoked : ∀ id ∈ report.smokeReportIds, ∃ smoke, store.smokes.find? id = some smoke ∧
    smoke.status = .passed ∧ smoke.routeFingerprint = fingerprint ∧ row.importedAt ≤ smoke.finishedAt

def Grounded (env : Environment) (store : CandidateStore) (executorId : String) (now : Int)
    (report : QualificationReport) : Prop :=
  ∃ candidate row fingerprint, store.candidates.find? executorId = some candidate ∧
    RestsOn env store now report candidate row fingerprint

structure CurrentFor (store : CandidateStore) (now : Int) (candidate : RouteCandidate)
    (row : PackageRow) : Prop where
  package : store.packages.find? candidate.packageDigest = some row
  accepted : ∀ item ∈ store.acceptances, item.candidateId = candidate.executorId →
    item.qualifies = true →
      AcceptedFrom store.toPackageStore candidate.packageDigest candidate.executorId item.evidenceId
  unexpired : ∀ item ∈ store.acceptances, item.candidateId = candidate.executorId →
    item.qualifies = true → ∀ held ∈ store.evidence,
      held.key = (candidate.packageDigest, item.evidenceId) → expired now held.evidence = false
  smoked : ∃ smoke ∈ store.smokes, smoke.candidateId = candidate.executorId ∧
    row.importedAt ≤ smoke.finishedAt

def Current (store : CandidateStore) (executorId : String) (now : Int) : Prop :=
  ∃ candidate row, store.candidates.find? executorId = some candidate ∧
    CurrentFor store now candidate row

/-! ## Packages and their routes -/

structure Linked (env : Environment) (s : PackageStore) : Prop where
  candidates : ∀ candidate ∈ s.candidates,
    Publishes env s candidate.packageDigest candidate.executorId candidate.packageFingerprint
  acceptances : ∀ item ∈ s.acceptances, item.status = .accepted →
    ∃ held, s.evidence.find? (item.packageDigest, item.evidenceId) = some held ∧
      Publishes env s item.packageDigest item.candidateId held.evidence.subject.routeFingerprint

theorem Publishes.unique {other : String} (h : Publishes env s digest executorId fingerprint)
    (hother : Publishes env s digest executorId other) : fingerprint = other := by
  obtain ⟨row, hrow, route, hroute, hid, hfingerprint⟩ := h
  obtain ⟨row', hrow', route', hroute', hid', hfingerprint'⟩ := hother
  obtain rfl := Option.some_inj.mp (hrow.symm.trans hrow')
  obtain rfl := List.inj_on_of_nodup_map row.package.routes_nodup hroute hroute' (hid.trans hid'.symm)
  exact Except.ok.inj (hfingerprint.symm.trans hfingerprint')

theorem Publishes.mono (h : Publishes env s digest executorId fingerprint)
    (hext : s.packages.Extends s'.packages) : Publishes env s' digest executorId fingerprint := by
  obtain ⟨row, hrow, hroute⟩ := h
  exact ⟨row, hext.find? hrow, hroute⟩

theorem mem_routeFacts (h : routeFacts env call = .ok facts) {fact : RouteFacts} (hfact : fact ∈ facts) :
    fact.route ∈ call.package.routes ∧
      env.routeFingerprint fact.route call.package.providerId = .ok fact.fingerprint := by
  unfold routeFacts at h
  generalize call.package.routes = routes at h ⊢
  induction routes generalizing facts with
  | nil =>
    cases h
    exact absurd hfact List.not_mem_nil
  | cons route routes ih =>
    simp only [List.mapM_cons, bind_ok, pure_ok] at h
    obtain ⟨first, ⟨fingerprint, hfingerprint, rfl⟩, rest, hrest, rfl⟩ := h
    rcases List.mem_cons.mp hfact with rfl | hfact
    · exact ⟨List.mem_cons_self, hfingerprint⟩
    · obtain ⟨hroute, hfact⟩ := ih hfact hrest
      exact ⟨List.mem_cons_of_mem _ hroute, hfact⟩

theorem publishes_of_routeFacts (hfacts : routeFacts env call = .ok facts)
    (hrow : s.packages.Retains (·.package) (publication env trust call facts).packageRow)
    {fact : RouteFacts} (hfact : fact ∈ facts) :
    Publishes env s (env.packageDigest call.package.toPackageContent) fact.route.routeId
      fact.fingerprint := by
  obtain ⟨row, hfound, hsame⟩ := hrow
  have hpackage : row.package = call.package := hsame
  obtain ⟨hroute, hfingerprint⟩ := mem_routeFacts hfacts hfact
  exact ⟨row, hfound, fact.route, hpackage ▸ hroute, rfl, hpackage ▸ hfingerprint⟩

/-! ## Ingests -/

theorem saveRateCards_store (evaluation : Evaluation) (cards saved : List RateCardSnapshot)
    (s : PackageStore) :
    ∃ t, (saveRateCards evaluation cards saved s).store = { s with rateCards := t } := by
  induction cards generalizing saved s with
  | nil => exact ⟨s.rateCards, rfl⟩
  | cons card cards ih =>
    unfold saveRateCards
    cases hsave : saveRateCardSnapshot s card with
    | error e => exact ⟨s.rateCards, rfl⟩
    | ok next =>
      unfold saveRateCardSnapshot at hsave
      simp only [bind_ok, pure_ok] at hsave
      obtain ⟨middle, -, rfl⟩ := hsave
      exact ih (saved ++ [card]) { s with rateCards := middle }

theorem digest_of_verifyPackage {package : ProviderPackage}
    (h : verifyPackage env trust package now = none) :
    env.packageDigest package.toPackageContent = package.integrityDigest := by
  unfold verifyPackage at h
  by_contra hne
  rw [if_pos hne] at h
  cases h

theorem ingest_store_cases (env : Environment) (trust : TrustStore) (call : IngestCall)
    (s : PackageStore) :
    (∃ t, (ingest env trust call s).store = { s with audits := t }) ∨
    ∃ facts published t, routeFacts env call = .ok facts ∧
      env.packageDigest call.package.toPackageContent = call.package.integrityDigest ∧
      saveProviderPackageIngest (publication env trust call facts) s = .ok published ∧
      (ingest env trust call s).store = { published with rateCards := t } := by
  rcases ingest_cases env trust call s with ⟨e, t, hrefused, -⟩ |
    ⟨facts, published, hpublishable, hsaved, hingest⟩
  · exact .inl ⟨t, congrArg Outcome.store hrefused⟩
  · obtain ⟨t, ht⟩ := saveRateCards_store (publication env trust call facts)
      (publication env trust call facts).rateCards [] published
    rw [hingest]
    exact .inr ⟨facts, published, t, hpublishable.2.2.2.1, digest_of_verifyPackage hpublishable.2.1,
      hsaved, ht⟩

theorem accepted_subject {exhibit : Exhibit} (hexhibit : exhibit ∈ exhibits env call facts)
    {metric : String} (h : (exhibit.accept env trust call metric).status = .accepted) :
    exhibit.facts ∈ facts ∧ exhibit.facts.route.routeId = exhibit.evidence.subject.routeId ∧
      exhibit.evidence.subject.routeFingerprint = exhibit.facts.fingerprint := by
  have hmatched := ((accept_iff env trust call exhibit metric).mp (.inl h)).matched
  obtain ⟨-, -, hfact⟩ := mem_exhibits.mp hexhibit
  have hsubject := (Bool.and_eq_true_iff.mp hmatched).1
  have hid : exhibit.facts.route.routeId = exhibit.evidence.subject.routeId := by
    simpa using List.find?_some hfact
  refine ⟨List.mem_of_find?_eq_some hfact, hid, ?_⟩
  unfold RouteFacts.subjectMatches at hsubject
  rw [decide_eq_true_iff] at hsubject
  exact hsubject.2.1

theorem Linked.publish (h : Linked env s) (hfacts : routeFacts env call = .ok facts)
    (hdigest : env.packageDigest call.package.toPackageContent = call.package.integrityDigest)
    (hsaved : saveProviderPackageIngest (publication env trust call facts) s = .ok s') :
    Linked env s' := by
  unfold saveProviderPackageIngest at hsaved
  simp only [bind_ok, pure_ok] at hsaved
  obtain ⟨packages, hpackages, signatures, -, contents, -, evidence, hevidence, acceptances,
    hacceptances, snapshots, -, rfl⟩ := hsaved
  obtain ⟨hext, hrow, -⟩ := Table.retain_ok hpackages
  obtain ⟨hextEvidence, hrows, -⟩ := Table.retainAll_ok hevidence
  obtain ⟨-, -, hnew⟩ := Table.retainAll_ok hacceptances
  constructor
  · intro candidate hcandidate
    rcases Table.mem_or_mem_of_mem_assignAll hcandidate with hold | hin
    · exact (h.candidates candidate hold).mono hext
    · obtain ⟨fact, hfact, rfl⟩ := List.mem_map.mp hin
      exact publishes_of_routeFacts (s := { s with packages := packages }) hfacts hrow hfact
  · intro item hitem hstatus
    rcases hnew item hitem with hold | hin
    · obtain ⟨held, hheld, hpublishes⟩ := h.acceptances item hold hstatus
      exact ⟨held, hextEvidence.find? hheld, hpublishes.mono hext⟩
    · obtain ⟨exhibit, hexhibit, metric, -, rfl⟩ := mem_acceptances.mp hin
      obtain ⟨hfact, hid, hfingerprint⟩ := accepted_subject hexhibit hstatus
      obtain ⟨held, hheld, hsame⟩ := hrows _ (List.mem_map_of_mem hexhibit)
      have hevidence : held.evidence = exhibit.evidence := hsame
      refine ⟨held, ?_, ?_⟩
      · rw [← hheld, hdigest]
        rfl
      · rw [hevidence, hfingerprint]
        change Publishes env _ call.package.integrityDigest exhibit.evidence.subject.routeId _
        rw [← hdigest, ← hid]
        exact publishes_of_routeFacts (s := { s with packages := packages }) hfacts hrow hfact

theorem Linked.ingest (h : Linked env s) (trust : TrustStore) (call : IngestCall) :
    Linked env (ingest env trust call s).store := by
  rcases ingest_store_cases env trust call s with ⟨t, ht⟩ |
    ⟨facts, published, t, hfacts, hdigest, hsaved, ht⟩
  · rw [ht]
    exact ⟨h.candidates, h.acceptances⟩
  · rw [ht]
    have hpublished := h.publish hfacts hdigest hsaved
    exact ⟨hpublished.candidates, hpublished.acceptances⟩

/-! ## Candidates that change -/

theorem Linked.assign (h : Linked env s) {old new : RouteCandidate} (hold : old ∈ s.candidates)
    (hid : new.executorId = old.executorId) (hdigest : new.packageDigest = old.packageDigest)
    (hfingerprint : new.packageFingerprint = old.packageFingerprint)
    (t : Table CandidateVerificationSnapshot (·.snapshotId)) :
    Linked env { s with snapshots := t, candidates := s.candidates.assign new } where
  candidates := by
    intro candidate hcandidate
    rcases Table.mem_or_eq_of_mem_assign hcandidate with hin | rfl
    · exact h.candidates candidate hin
    · have hpublishes := h.candidates old hold
      rw [← hid, ← hdigest, ← hfingerprint] at hpublishes
      exact hpublishes
  acceptances := h.acceptances

theorem Linked.suspend (h : Linked env store.toPackageStore) (executorId reason : String) (now : Int) :
    Linked env (commit (suspendCandidate runtime executorId reason now store) store).toPackageStore := by
  refine commit_induction (P := fun store : CandidateStore => Linked env store.toPackageStore) h
    fun suspended after hok => ?_
  unfold suspendCandidate at hok
  simp only [bind_ok, pure_ok, require_ok, Prod.mk.injEq] at hok
  obtain ⟨candidate, hfound, rfl, rfl⟩ := hok
  refine h.assign (Table.mem_of_find? hfound) ?_ ?_ ?_ _ <;> rfl

theorem smokeSubject_candidate {subject : SmokeSubject}
    (h : smokeSubject runtime executorId store = .ok subject) :
    subject.candidate ∈ store.candidates := by
  unfold smokeSubject at h
  simp only [bind_ok, pure_ok, require_ok] at h
  obtain ⟨candidate, hfound, _, -, _, -, _, -, _, -, _, -, _, -, _, -, rfl⟩ := h
  exact Table.mem_of_find? hfound

theorem Linked.runSmoke (h : Linked env store.toPackageStore) {subject : SmokeSubject} {run : SmokeRun}
    (hsubject : subject.candidate ∈ store.candidates) {reports : List SmokeTestReport}
    {after : CandidateStore} (hok : runSmoke runtime subject run store = .ok (reports, after)) :
    Linked env after.toPackageStore := by
  unfold Package.runSmoke saveSmokeCandidateResult at hok
  simp only [bind_ok, pure_ok, Prod.mk.injEq] at hok
  obtain ⟨reports, -, _, ⟨smokes, -, rfl⟩, -, rfl⟩ := hok
  refine h.assign hsubject ?_ ?_ ?_ _ <;> rfl

theorem Linked.smoke (h : Linked env store.toPackageStore) (executorId : String) (run : SmokeRun) :
    Linked env (smokeCandidate env runtime executorId run store).2.toPackageStore := by
  unfold smokeCandidate
  cases hsubject : smokeSubject runtime executorId store with
  | error e => exact h
  | ok subject =>
    dsimp only
    cases env.routeFingerprint subject.route subject.package.providerId with
    | error e => exact h
    | ok fingerprint =>
      dsimp only
      split_ifs
      · exact h.suspend executorId _ run.now
      · exact h.suspend executorId _ run.now
      · cases hrun : Package.runSmoke runtime subject run store with
        | error e => exact h
        | ok result => exact h.runSmoke (smokeSubject_candidate hsubject) hrun

/-! ## Qualifications -/

theorem mem_latest {smoke : SmokeTestReport} (h : latestSmokeTestReport executorId store = some smoke) :
    smoke ∈ store.smokes ∧ smoke.candidateId = executorId := by
  have hmem := List.mem_of_mem_head? h
  rw [List.mem_insertionSort, List.mem_filter, decide_eq_true_iff] at hmem
  exact hmem

instance : Std.Total SmokeTestReport.Newer where
  total a b := by
    unfold SmokeTestReport.Newer
    rcases lt_trichotomy a.finishedAt b.finishedAt with hlt | heq | hlt
    · exact .inr (.inl hlt)
    · rcases le_total b.smokeReportId a.smokeReportId with hle | hle
      · exact .inl (.inr ⟨heq.symm, hle⟩)
      · exact .inr (.inr ⟨heq, hle⟩)
    · exact .inl (.inl hlt)

instance : IsTrans SmokeTestReport SmokeTestReport.Newer where
  trans a b c := by
    unfold SmokeTestReport.Newer
    rintro (hab | ⟨hab, hid⟩) (hbc | ⟨hbc, hid'⟩)
    · exact .inl (hbc.trans hab)
    · exact .inl (hbc ▸ hab)
    · exact .inl (hab ▸ hbc)
    · exact .inr ⟨hbc.trans hab, hid'.trans hid⟩

theorem le_latest {smoke other : SmokeTestReport}
    (h : latestSmokeTestReport executorId store = some smoke) (hother : other ∈ store.smokes)
    (hid : other.candidateId = executorId) : other.finishedAt ≤ smoke.finishedAt := by
  have hmem : other ∈ (store.smokes.rows.filter (·.candidateId = executorId)).insertionSort
      SmokeTestReport.Newer := by
    rw [List.mem_insertionSort, List.mem_filter, decide_eq_true_iff]
    exact ⟨hother, hid⟩
  have hsorted := (store.smokes.rows.filter (·.candidateId = executorId)).pairwise_insertionSort
    SmokeTestReport.Newer
  obtain ⟨rest, hrest⟩ := List.head?_eq_some_iff.mp h
  rw [hrest] at hmem hsorted
  rcases List.mem_cons.mp hmem with rfl | hin
  · exact le_refl _
  · rcases (List.pairwise_cons.mp hsorted).1 other hin with hlt | ⟨heq, -⟩
    · exact hlt.le
    · exact heq.le

structure Qualifies (store after : CandidateStore) (executorId : String) (report : QualificationReport)
    (candidate : RouteCandidate) (row : PackageRow) (smoke : SmokeTestReport) : Prop where
  found : store.candidates.find? executorId = some candidate
  package : store.packages.find? candidate.packageDigest = some row
  latest : latestSmokeTestReport executorId store = some smoke
  passed : smoke.status = .passed
  fingerprint : smoke.routeFingerprint = candidate.packageFingerprint
  smokes : report.smokeReportIds = [smoke.smokeReportId]
  sources : ∀ id, id ∈ report.sourceEvidenceIds ↔ ∃ item ∈ store.acceptances,
    item.candidateId = executorId ∧ item.qualifies = true ∧ item.evidenceId = id
  saved : ∃ new : RouteCandidate,
    after = { store with
      qualifications := store.qualifications.insert report
      candidates := store.candidates.assign new } ∧
    new.executorId = candidate.executorId ∧ new.packageDigest = candidate.packageDigest ∧
    new.packageFingerprint = candidate.packageFingerprint

theorem qualify_ok {reportId : String} {report : QualificationReport} {after : CandidateStore}
    (h : qualifyCandidateFromEvidence env runtime executorId reportId now store = .ok (report, after)) :
    ∃ candidate row smoke, Qualifies store after executorId report candidate row smoke := by
  unfold qualifyCandidateFromEvidence at h
  simp only [bind_ok, pure_ok, require_ok, raiseIf_ok, exists_const, Prod.mk.injEq] at h
  obtain ⟨candidate, hcandidate, -, row, hrow, snapshot, -, smoke, hsmoke, hpassed, route, -, -, checks,
    -, -, rfl, rfl⟩ := h
  push Not at hpassed
  obtain ⟨-, -, hstatus, hfingerprint, -⟩ := hpassed
  refine ⟨candidate, row, smoke, hcandidate, hrow, hsmoke, hstatus, hfingerprint, rfl, fun id => ?_,
    ⟨_, rfl, rfl, rfl, rfl⟩⟩
  simp only [List.mem_insertionSort, List.mem_dedup, List.mem_map, List.mem_filter,
    listEvidenceAcceptances, decide_eq_true_iff, and_assoc]
  rfl

theorem Linked.step (h : Linked env store.toPackageStore) (call : CandidateCall) :
    Linked env (step env runtime store call).toPackageStore := by
  cases call with
  | ingest around call =>
    have hthere : Linked (env.at around) store.toPackageStore := ⟨h.candidates, h.acceptances⟩
    have hnext := hthere.ingest around.trust call
    exact ⟨hnext.candidates, hnext.acceptances⟩
  | smoke executorId run => exact h.smoke executorId run
  | suspend executorId reason now => exact h.suspend executorId reason now
  | qualify executorId reportId now =>
    refine commit_induction (P := fun store : CandidateStore => Linked env store.toPackageStore) h
      fun report after hok => ?_
    obtain ⟨candidate, row, smoke, hqualifies⟩ := qualify_ok hok
    obtain ⟨new, rfl, hid, hdigest, hfingerprint⟩ := hqualifies.saved
    exact h.assign (Table.mem_of_find? hqualifies.found) hid hdigest hfingerprint _

theorem linked_run (env : Environment) (runtime : Runtime) (calls : List CandidateCall) :
    Linked env (run (step env runtime) .empty calls).toPackageStore := by
  refine @run_invariant _ _ _ (fun store : CandidateStore => Linked env store.toPackageStore)
    (fun _ call h => h.step call) _ calls ⟨?_, ?_⟩
  · exact fun _ h => absurd h Table.not_mem_empty
  · exact fun _ h => absurd h Table.not_mem_empty

/-- In every run, a report rests on the package of its candidate exactly when what the qualification
found about the candidate was current. -/
theorem grounded_iff (env : Environment) (runtime : Runtime) (calls : List CandidateCall)
    (executorId reportId : String) (now : Int) (report : QualificationReport) (after : CandidateStore)
    (h : qualifyCandidateFromEvidence env runtime executorId reportId now
      (run (step env runtime) .empty calls) = .ok (report, after)) :
    Grounded env (run (step env runtime) .empty calls) executorId now report ↔
      Current (run (step env runtime) .empty calls) executorId now := by
  have hlinked := linked_run env runtime calls
  generalize run (step env runtime) .empty calls = store at h hlinked ⊢
  obtain ⟨candidate, row, smoke, hqualifies⟩ := qualify_ok h
  obtain ⟨hsmoke, hsmokeId⟩ := mem_latest hqualifies.latest
  have hid : candidate.executorId = executorId := Table.key_of_find? hqualifies.found
  constructor
  · rintro ⟨candidate', row', fingerprint, hfound, hrests⟩
    obtain rfl := Option.some_inj.mp (hqualifies.found.symm.trans hfound)
    obtain rfl := Option.some_inj.mp (hqualifies.package.symm.trans hrests.package)
    have hnamed : ∀ item ∈ store.acceptances, item.candidateId = candidate.executorId →
        item.qualifies = true → item.evidenceId ∈ report.sourceEvidenceIds :=
      fun item hitem hcandidate hitem' =>
        (hqualifies.sources _).mpr ⟨item, hitem, hcandidate.trans hid, hitem', rfl⟩
    refine ⟨candidate, row, hfound, hqualifies.package, ?_, ?_, ?_⟩
    · exact fun item hitem hcandidate hitem' =>
        hrests.accepted _ (hnamed item hitem hcandidate hitem')
    · intro item hitem hcandidate hitem' held hheld hkey
      obtain ⟨held', hheld', -, hexpired⟩ := hrests.subject _ (hnamed item hitem hcandidate hitem')
      rw [← hkey, Table.find?_of_mem hheld, Option.some_inj] at hheld'
      exact hheld' ▸ hexpired
    · obtain ⟨smoke', hsmoke', -, -, hafter⟩ :=
        hrests.smoked _ (hqualifies.smokes ▸ List.mem_cons_self)
      have hsame := Option.some_inj.mp ((Table.find?_of_mem hsmoke).symm.trans hsmoke')
      exact ⟨smoke, hsmoke, hsmokeId.trans hid.symm, hsame ▸ hafter⟩
  · rintro ⟨candidate', row', hfound, hcurrent⟩
    obtain rfl := Option.some_inj.mp (hqualifies.found.symm.trans hfound)
    obtain rfl := Option.some_inj.mp (hqualifies.package.symm.trans hcurrent.package)
    have hpublishes := hlinked.candidates candidate (Table.mem_of_find? hfound)
    refine ⟨candidate, row, candidate.packageFingerprint, hfound, hqualifies.package, hpublishes,
      fun id hsource => ?_, fun id hsource => ?_, fun id hsmokes => ?_⟩
    · obtain ⟨item, hitem, hcandidate, hitem', rfl⟩ := (hqualifies.sources id).mp hsource
      exact hcurrent.accepted item hitem (hcandidate.trans hid.symm) hitem'
    · obtain ⟨item, hitem, hcandidate, hitem', rfl⟩ := (hqualifies.sources id).mp hsource
      obtain ⟨item', hin, hdigest, hroute, hevidence, -, hstatus⟩ :=
        hcurrent.accepted item hitem (hcandidate.trans hid.symm) hitem'
      obtain ⟨held, hheld, hsubject⟩ := hlinked.acceptances item' hin hstatus
      rw [hdigest, hevidence] at hheld
      rw [hdigest, hroute] at hsubject
      refine ⟨held, hheld, hsubject.unique hpublishes, ?_⟩
      exact hcurrent.unexpired item hitem (hcandidate.trans hid.symm) hitem' held
        (Table.mem_of_find? hheld) (Table.key_of_find? hheld)
    · rw [hqualifies.smokes, List.mem_singleton] at hsmokes
      obtain ⟨other, hother, hroute, hafter⟩ := hcurrent.smoked
      refine ⟨smoke, hsmokes ▸ Table.find?_of_mem hsmoke, hqualifies.passed, hqualifies.fingerprint, ?_⟩
      exact hafter.trans (le_latest hqualifies.latest hother (hroute.trans hid))

/-! ## Releases of a package -/

def exampleRuntime : Runtime where
  readOnly _ := true
  runtimeIdentityMatches _ _ := true
  automaticSpec route providerId := "auto" ++ providerId ++ route.definition
  disabledSpec spec := spec
  staticQualificationChecks _ := [("read_only", true)]
  smokeSettings _ := ⟨.cold, 1, none, none⟩
  smokeEnvironment _ := "sha256:environment"
  settlementCurrency := "USD"

def testedPackage : ProviderPackage :=
  { reportPackage .independentLab none [labAttestation] with
    evidence := [{ labReport .independentLab none [labAttestation] with
      validity := ⟨0, none, some 50⟩ }]
    smokeTests := [⟨"t", "r", ""⟩]
    evidence_nodup := by decide
    subjects := by decide
    summarized := by decide
    windows := by decide
    classified := by decide }

/-- Another release of the package, with no evidence. -/
def barePackage (version definition : String) : ProviderPackage :=
  { cardPackage with
    version := version
    routes := [⟨"r", "text.read", "sha256:" ++ definition, definition⟩]
    artifacts := []
    evidence := []
    smokeTests := [⟨"t", "r", ""⟩]
    integrityDigest := "sha256:package" ++ version
    signatures := [⟨"s", "k", "sha256:package" ++ version, "keysha256:package" ++ version, 1⟩]
    routes_ne := List.cons_ne_nil _ _
    routes_nodup := List.nodup_singleton _
    artifacts_nodup := List.nodup_nil
    evidence_nodup := List.nodup_nil
    subjects := fun _ h => absurd h List.not_mem_nil
    signatures_nodup := List.nodup_singleton _
    signed_digest := fun _ h => congrArg ProviderPackageSignature.digest (List.mem_singleton.mp h)
    signed_after := fun _ h => (List.mem_singleton.mp h).symm ▸ Int.one_nonneg
    summarized := fun _ h => absurd h List.not_mem_nil
    windows := fun _ h => absurd h List.not_mem_nil
    classified := fun _ _ h => absurd h List.not_mem_nil }

def ingestAt (package : ProviderPackage) (now : Int) : CandidateCall :=
  .ingest ⟨(∅ : TrustStore).insert labKey, exampleEnvironment.resolveLocal,
    exampleEnvironment.resolveHttps⟩ (exampleCall package now)

/-- A smoke run that passes. -/
def smokeAt (reportId : String) (now : Int) : CandidateCall :=
  .smoke "r" ⟨fun _ => .ok ⟨reportId, "receipt", now, now, true, some true, true, true, 0, none⟩,
    "verify_" ++ reportId, now⟩

def after (calls : List CandidateCall) : CandidateStore :=
  run (step exampleEnvironment exampleRuntime) .empty calls

/-- The report of a qualification after these calls. -/
def exampleReport (smokeId specText : String) (now : Int) : QualificationReport where
  reportId := "q"
  candidateId := "candidate_package-file:/pr"
  behaviorFingerprint := "sha256:" ++ specText
  staticChecks := [("read_only", true)]
  sourceEvidenceIds := ["e"]
  smokeReportIds := [smokeId]
  effectiveTrust := .attested
  environmentDigest := "sha256:environment"
  createdAt := now

def qualifyAt (calls : List CandidateCall) (now : Int) :
    Result (QualificationReport × CandidateStore) :=
  qualifyCandidateFromEvidence exampleEnvironment exampleRuntime "r" "q" now (after calls)

def tested : List CandidateCall := [ingestAt testedPackage 10, smokeAt "s" 20]

theorem grounded_iff_of_tested :
    Grounded exampleEnvironment (after tested) "r" 30 (exampleReport "s" "autoproute" 30) := by
  have hreport : (qualifyAt tested 30).map Prod.fst = .ok (exampleReport "s" "autoproute" 30) := by
    decide +kernel
  obtain ⟨⟨_, next⟩, hqualify, rfl⟩ := map_ok.mp hreport
  refine (grounded_iff exampleEnvironment exampleRuntime tested "r" "q" 30 _ next hqualify).mpr ?_
  obtain ⟨candidate, row, smoke, hqualifies⟩ := qualify_ok hqualify
  have hid : candidate.executorId = "r" := Table.key_of_find? hqualifies.found
  have hcandidate : ∀ candidate ∈ (after tested).candidates.rows,
      candidate.packageDigest = "sha256:package1.0.0" := by decide +kernel
  have haccepted : ∀ item ∈ (after tested).acceptances.rows,
      item.packageDigest = "sha256:package1.0.0" ∧ item.metric = "correctness" ∧
        item.status = .accepted := by decide +kernel
  have hevidence : ∀ held ∈ (after tested).evidence.rows, expired 30 held.evidence = false := by
    decide +kernel
  have hsmoke : ∃ smoke ∈ (after tested).smokes.rows, smoke.candidateId = "r" ∧
      ∀ row ∈ (after tested).packages.rows, row.importedAt ≤ smoke.finishedAt := by decide +kernel
  refine ⟨candidate, row, hqualifies.found, hqualifies.package, ?_, ?_, ?_⟩
  · intro item hitem hroute _
    obtain ⟨hdigest, hmetric, hstatus⟩ := haccepted item hitem
    rw [hcandidate candidate (Table.mem_of_find? hqualifies.found)]
    exact ⟨item, hitem, hdigest, hroute, rfl, hmetric, hstatus⟩
  · exact fun _ _ _ _ held hheld _ => hevidence held hheld
  · obtain ⟨smoke, hin, hroute, hafter⟩ := hsmoke
    exact ⟨smoke, hin, hroute.trans hid.symm, hafter row (Table.mem_of_find? hqualifies.package)⟩

/-- A route that changed after its evidence was accepted. -/
def changed : List CandidateCall :=
  tested ++ [ingestAt (barePackage "2.0.0" "other") 30, smokeAt "u" 40]

def smokedBefore : List CandidateCall :=
  [ingestAt (barePackage "0.9.0" "route") 10, smokeAt "s" 20, ingestAt testedPackage 30]

/-- Evidence about an earlier release qualifies a route that changed; so does evidence that has
expired, and a smoke run from before the release. -/
theorem older_evidence_qualifies :
    ((qualifyAt changed 45).map Prod.fst = .ok (exampleReport "u" "autopother" 45) ∧
      ¬ Grounded exampleEnvironment (after changed) "r" 45 (exampleReport "u" "autopother" 45)) ∧
    ((qualifyAt tested 60).map Prod.fst = .ok (exampleReport "s" "autoproute" 60) ∧
      ¬ Grounded exampleEnvironment (after tested) "r" 60 (exampleReport "s" "autoproute" 60)) ∧
    ((qualifyAt smokedBefore 45).map Prod.fst = .ok (exampleReport "s" "autoproute" 45) ∧
      ¬ Grounded exampleEnvironment (after smokedBefore) "r" 45
        (exampleReport "s" "autoproute" 45)) := by
  refine ⟨⟨by decide +kernel, ?_⟩, ⟨by decide +kernel, ?_⟩, ⟨by decide +kernel, ?_⟩⟩
  · rintro ⟨candidate, row, fingerprint, hfound, hrests⟩
    have hcandidate : ∀ candidate ∈ (after changed).candidates.rows,
        ∀ item ∈ (after changed).acceptances.rows, item.packageDigest ≠ candidate.packageDigest := by
      decide +kernel
    obtain ⟨item, hitem, hdigest, -⟩ := hrests.accepted "e" List.mem_cons_self
    exact hcandidate candidate (Table.mem_of_find? hfound) item hitem hdigest
  · rintro ⟨candidate, row, fingerprint, hfound, hrests⟩
    have hexpired : ∀ held ∈ (after tested).evidence.rows, expired 60 held.evidence = true := by
      decide +kernel
    obtain ⟨held, hheld, -, hcurrent⟩ := hrests.subject "e" List.mem_cons_self
    rw [hexpired held (Table.mem_of_find? hheld)] at hcurrent
    cases hcurrent
  · rintro ⟨candidate, row, fingerprint, hfound, hrests⟩
    have hbefore : ∀ candidate ∈ (after smokedBefore).candidates.rows,
        ∀ row ∈ (after smokedBefore).packages.rows, row.packageDigest = candidate.packageDigest →
          ∀ smoke ∈ (after smokedBefore).smokes.rows, smoke.finishedAt < row.importedAt := by
      decide +kernel
    obtain ⟨smoke, hsmoke, -, -, hafter⟩ := hrests.smoked "s" List.mem_cons_self
    have hlt := hbefore candidate (Table.mem_of_find? hfound) row (Table.mem_of_find? hrests.package)
      (Table.key_of_find? hrests.package) smoke (Table.mem_of_find? hsmoke)
    omega

end AeepRouter.Package

import AeepRouter.Attempt.Step

/-!
# The allowance of a task scope

A scope counts the attempts made under it and lets a new one start when the earlier ones have ended.
The count is taken from the attempt table when an attempt is created and nothing else checks it: it
holds because no update of an attempt changes its scope or opens it again, and because a stored scope
never changes.
-/

namespace AeepRouter

open Lib

structure AttemptStore.Grants (s : AttemptStore) (digest : String) (scope : TaskScope) : Prop where
  allowance : (s.scopeStates digest).length ≤ scope.maxAttempts
  single : ∀ a ∈ s.attempts, ∀ b ∈ s.attempts, a.taskScopeDigest = some digest →
    b.taskScopeDigest = some digest → ¬ a.state.terminal → ¬ b.state.terminal →
    a.attemptId = b.attemptId
  authority : ∀ a ∈ s.attempts, a.taskScopeDigest = some digest →
    scope.executorFingerprints.lookup a.executorId = some a.executorFingerprint ∧
      a.sideEffect.rank ≤ scope.approvalCeiling.rank

def AssessmentRecord.IsScope (record : AssessmentRecord) (scope : TaskScope) : Prop :=
  record.kind = "task_scope" ∧ record.value = .taskScope scope

structure AttemptStore.Scoped (s : AttemptStore) : Prop where
  unique : ∀ r ∈ s.definitions.records, ∀ r' ∈ s.definitions.records, r.clash r' → r = r'
  known : ∀ a ∈ s.attempts, ∀ digest, a.taskScopeDigest = some digest →
    ∃ r ∈ s.definitions.records, r.kind = "task_scope" ∧ r.digest = digest
  granted : ∀ r ∈ s.definitions.records, ∀ scope, r.IsScope scope → s.Grants r.digest scope

section Allowance

variable {contentDigest : AssessmentValue → String} {s s' : AttemptStore} {op : AttemptOp}
  {current updated attempt : ExecutionAttempt} {t : HoldTable} {digest : String}
  {scope : TaskScope}

theorem AttemptStore.length_scopeStates (s : AttemptStore) (digest : String) :
    (s.scopeStates digest).length =
      (s.attempts.select (fun a => a.taskScopeDigest = some digest) fun _ => ()).length := by
  simp [scopeStates, Table.select]

/-- The rows after an update: the new one, and the others as they were. -/
theorem AttemptStore.mem_setAttempt {a : ExecutionAttempt}
    (h : s.attempts.find? updated.attemptId = some current)
    (ha : a ∈ (s.setAttempt updated).attempts) :
    a = updated ∨ a ∈ s.attempts ∧ a.attemptId ≠ updated.attemptId := by
  have hfind := Table.find?_of_mem ha
  by_cases hself : a.attemptId = updated.attemptId
  · have hset := AttemptStore.find?_setAttempt_self h
    rw [← hself] at hset
    exact .inl (Option.some.inj (hfind.symm.trans hset))
  · have hset := AttemptStore.find?_setAttempt_ne (s := s) hself
    exact .inr ⟨Table.mem_of_find? (hset.symm.trans hfind), hself⟩

theorem AttemptStore.Admits.scope_eq {now : Int} {record : AssessmentRecord} {scope' : TaskScope}
    (h : s.Admits record.digest scope' attempt now)
    (hunique : ∀ r ∈ s.definitions.records, ∀ r' ∈ s.definitions.records, r.clash r' → r = r')
    (hrecord : record ∈ s.definitions.records) (his : record.IsScope scope) : scope' = scope := by
  obtain ⟨found, hfound, hvalue⟩ := h.record
  have hmem := List.mem_of_find?_eq_some hfound
  have hkey := List.find?_some hfound
  simp only [decide_eq_true_eq] at hkey
  obtain rfl := hunique found hmem record hrecord ⟨hkey.1.trans his.1.symm, hkey.2⟩
  exact AssessmentValue.taskScope.inj (hvalue.symm.trans his.2)

theorem AttemptStore.Moves.scope_eq (h : s.Moves current updated t) :
    updated.taskScopeDigest = current.taskScopeDigest :=
  congrArg AttemptAuthority.taskScopeDigest h.authority

theorem AttemptStore.Grants.moved (hs : s.Grants digest scope) (h : s.Moves current updated t)
    (hattempts : s'.attempts = (s.setAttempt updated).attempts) : s'.Grants digest scope where
  allowance := by
    have hsame : (s'.scopeStates digest).length = (s.scopeStates digest).length := by
      rw [length_scopeStates, length_scopeStates, hattempts]
      refine congrArg List.length (Table.select_modify (fun _ => rfl) fun a ha => ?_)
      by_cases hself : a.attemptId = updated.attemptId
      · have hfind := Table.find?_of_mem ha
        have hfound := h.found
        rw [← hself] at hfound
        obtain rfl := Option.some.inj (hfind.symm.trans hfound)
        simp only [hself, if_true, h.scope_eq]
      · simp only [hself, if_false]
    rw [hsame]
    exact hs.allowance
  single a ha b hb hascope hbscope haopen hbopen := by
    rw [hattempts] at ha hb
    have hcurrent := Table.mem_of_find? h.found
    have hscope := h.scope_eq
    rcases AttemptStore.mem_setAttempt h.found ha with rfl | ⟨ha', -⟩
    · rcases AttemptStore.mem_setAttempt h.found hb with rfl | ⟨hb', -⟩
      · rfl
      · rw [← h.attemptId]
        rw [hscope] at hascope
        exact hs.single current hcurrent b hb' hascope hbscope h.not_terminal hbopen
    · rcases AttemptStore.mem_setAttempt h.found hb with rfl | ⟨hb', -⟩
      · rw [← h.attemptId]
        rw [hscope] at hbscope
        exact hs.single a ha' current hcurrent hascope hbscope haopen h.not_terminal
      · exact hs.single a ha' b hb' hascope hbscope haopen hbopen
  authority a ha hascope := by
    rw [hattempts] at ha
    rcases AttemptStore.mem_setAttempt h.found ha with rfl | ⟨ha, -⟩
    · rw [h.scope_eq] at hascope
      have hgrant := hs.authority current (Table.mem_of_find? h.found) hascope
      have hexecutor := congrArg AttemptAuthority.executorId h.authority
      have hfingerprint := congrArg AttemptAuthority.executorFingerprint h.authority
      have heffect := congrArg AttemptAuthority.sideEffect h.authority
      simp only [AttemptFields.authority] at hexecutor hfingerprint heffect
      rw [hexecutor, hfingerprint, heffect]
      exact hgrant
    · exact hs.authority a ha hascope

theorem AttemptStore.Scoped.grants_created (hs : s.Scoped) {now : Int}
    (hfree : s.attempts.find? attempt.attemptId = none)
    (hscope : s.requireTaskScope attempt now = .ok ()) {record : AssessmentRecord}
    (hrecord : record ∈ s.definitions.records) (his : record.IsScope scope) :
    ({ s with attempts := s.attempts.insert attempt } : AttemptStore).Grants record.digest
      scope := by
  have hgrants := hs.granted record hrecord scope his
  by_cases hunder : attempt.taskScopeDigest = some record.digest
  · obtain ⟨scope', hadmits⟩ := AttemptStore.requireTaskScope_ok hscope hunder
    obtain rfl : scope' = scope := hadmits.scope_eq hs.unique hrecord his
    have hended : ∀ a ∈ s.attempts, a.taskScopeDigest = some record.digest → a.state.terminal := by
      intro a ha hascope
      exact hadmits.settled a.state (Table.mem_select.mpr ⟨a, ha, hascope, rfl⟩)
    refine ⟨?_, fun a ha b hb hascope hbscope haopen hbopen => ?_, fun a ha hascope => ?_⟩
    · show (Table.select _ _ _).length ≤ _
      rw [Table.select_insert hfree, if_pos hunder, List.length_append]
      exact hadmits.allowance
    · rcases (Table.mem_insert hfree).mp ha with ha | rfl
      · exact absurd (hended a ha hascope) haopen
      · rcases (Table.mem_insert hfree).mp hb with hb | rfl
        · exact absurd (hended b hb hbscope) hbopen
        · rfl
    · rcases (Table.mem_insert hfree).mp ha with ha | rfl
      · exact hgrants.authority a ha hascope
      · exact ⟨hadmits.fingerprint, hadmits.ceiling⟩
  · have hold : ∀ {a}, a ∈ s.attempts.insert attempt → a.taskScopeDigest = some record.digest →
        a ∈ s.attempts := by
      intro a ha hascope
      rcases (Table.mem_insert hfree).mp ha with ha | rfl
      · exact ha
      · exact absurd hascope hunder
    refine ⟨?_, fun a ha b hb hascope hbscope => ?_, fun a ha hascope => ?_⟩
    · show (Table.select _ _ _).length ≤ _
      rw [Table.select_insert hfree, if_neg hunder, List.append_nil]
      exact hgrants.allowance
    · exact hgrants.single a (hold ha hascope) b (hold hb hbscope) hascope hbscope
    · exact hgrants.authority a (hold ha hascope) hascope

/-- What a definition stored under an id leaves in the table: what was there, and the definition
when neither its id nor its digest was taken. -/
theorem Definitions.mem_insertOrIgnore {d : Definitions} {record r : AssessmentRecord}
    (hr : r ∈ (d.insertOrIgnore record).records) :
    r ∈ d.records ∨ r = record ∧ ∀ other ∈ d.records, ¬ other.clash record := by
  unfold insertOrIgnore at hr
  split at hr
  · exact .inl hr
  · next hfree =>
    rcases Table.mem_or_eq_of_mem_insert hr with hr | rfl
    · exact .inl hr
    · exact .inr ⟨rfl, fun other hother hclash => hfree ⟨other, hother, hclash⟩⟩

theorem Definitions.mem_insertOrIgnore_of_mem {d : Definitions} {record r : AssessmentRecord}
    (hr : r ∈ d.records) : r ∈ (d.insertOrIgnore record).records := by
  unfold insertOrIgnore
  split
  · exact hr
  · exact Table.mem_insert_of_mem hr

/-- Every transaction leaves every scope its guarantees. -/
theorem AttemptChange.scoped (h : AttemptChange contentDigest s op s') (hs : s.Scoped) :
    s'.Scoped := by
  cases h with
  | stay => exact hs
  | held | holdClaimed | holdReleased | review =>
    exact ⟨hs.unique, hs.known, fun r hr scope his =>
      ⟨(hs.granted r hr scope his).allowance, (hs.granted r hr scope his).single,
        (hs.granted r hr scope his).authority⟩⟩
  | created attempt now hfree hscope =>
    refine ⟨hs.unique, fun a ha digest hdigest => ?_,
      fun r hr scope his => hs.grants_created hfree hscope hr his⟩
    rcases (Table.mem_insert hfree).mp ha with ha | rfl
    · exact hs.known a ha digest hdigest
    · obtain ⟨scope, hadmits⟩ := AttemptStore.requireTaskScope_ok hscope hdigest
      obtain ⟨found, hfound, -⟩ := hadmits.record
      have hkey := List.find?_some hfound
      simp only [decide_eq_true_eq] at hkey
      exact ⟨found, List.mem_of_find?_eq_some hfound, hkey⟩
  | moved _ current updated t reason _ hmoves hlink =>
    refine ⟨hs.unique, fun a ha digest hdigest => ?_,
      fun r hr scope his => (hs.granted r hr scope his).moved hmoves rfl⟩
    rcases AttemptStore.mem_setAttempt hmoves.found ha with rfl | ⟨ha', -⟩
    · rw [hmoves.scope_eq] at hdigest
      exact hs.known current (Table.mem_of_find? hmoves.found) digest hdigest
    · exact hs.known a ha' digest hdigest
  | put kind identity value _ =>
    refine ⟨fun r hr r' hr' hclash => ?_, fun a ha digest hdigest => ?_, fun r hr scope his => ?_⟩
    · rcases Definitions.mem_insertOrIgnore hr with hr | ⟨rfl, hfree⟩
      · rcases Definitions.mem_insertOrIgnore hr' with hr' | ⟨rfl, hfree'⟩
        · exact hs.unique r hr r' hr' hclash
        · exact absurd hclash (hfree' r hr)
      · rcases Definitions.mem_insertOrIgnore hr' with hr' | ⟨rfl, -⟩
        · exact absurd ⟨hclash.1.symm, hclash.2.symm⟩ (hfree r' hr')
        · rfl
    · obtain ⟨r, hr, hkey⟩ := hs.known a ha digest hdigest
      exact ⟨r, Definitions.mem_insertOrIgnore_of_mem hr, hkey⟩
    · rcases Definitions.mem_insertOrIgnore hr with hr | ⟨rfl, hfree⟩
      · have hgrants := hs.granted r hr scope his
        exact ⟨hgrants.allowance, hgrants.single, hgrants.authority⟩
      · -- no attempt is under a scope that was not stored
        have hnone : ∀ a ∈ s.attempts, a.taskScopeDigest ≠ some (contentDigest value) := by
          intro a ha hdigest
          obtain ⟨r, hr, hkind, hdigest⟩ := hs.known a ha _ hdigest
          exact hfree r hr ⟨hkind.trans his.1.symm, hdigest⟩
        refine ⟨?_, fun a ha _ _ hdigest => absurd hdigest (hnone a ha),
          fun a ha hdigest => absurd hdigest (hnone a ha)⟩
        show (Table.select _ _ _).length ≤ _
        rw [Table.select_eq_nil hnone]
        exact Nat.zero_le _

end Allowance

/-! ## Runs -/

section Runs

variable {contentDigest : AssessmentValue → String}

theorem AttemptStore.Scoped.empty : AttemptStore.empty.Scoped where
  unique _ hr := absurd hr Table.not_mem_empty
  known _ ha := absurd ha Table.not_mem_empty
  granted _ hr := absurd hr Table.not_mem_empty

theorem AttemptChange.created_under {s s' : AttemptStore} {op : AttemptOp}
    (h : AttemptChange contentDigest s op s') {a : ExecutionAttempt} (ha : a ∈ s'.attempts)
    (hnew : s.attempts.find? a.attemptId = none) {digest : String}
    (hdigest : a.taskScopeDigest = some digest) :
    ∃ now scope, op = .create a now ∧ s.Admits digest scope a now := by
  have hno : a ∉ s.attempts := fun ha => by
    cases hnew.symm.trans (Table.find?_of_mem ha)
  cases h with
  | stay | held | holdClaimed | holdReleased | put | review => exact absurd ha hno
  | created attempt now hfree hscope =>
    rcases (Table.mem_insert hfree).mp ha with ha | rfl
    · exact absurd ha hno
    · obtain ⟨scope, hadmits⟩ := AttemptStore.requireTaskScope_ok hscope hdigest
      exact ⟨now, scope, rfl, hadmits⟩
  | moved _ current updated t reason _ hmoves hlink =>
    rcases AttemptStore.mem_setAttempt hmoves.found ha with rfl | ⟨ha', -⟩
    · cases hnew.symm.trans hmoves.found
    · exact absurd ha' hno

/-- Whatever the order of attempts, reviews and revocations: a task scope never has more attempts
than it allows, nor two that have not ended, nor one outside its authority; none is created under a
scope that is revoked or expired; and a retry of an attempt id changes nothing. -/
theorem task_scope_bounds_attempts (contentDigest : AssessmentValue → String)
    (ops : List AttemptOp) :
    let s := run (AttemptStore.apply contentDigest) .empty ops
    (∀ record ∈ s.definitions.records, ∀ scope, record.IsScope scope →
      s.Grants record.digest scope) ∧
    (∀ op, ∀ a ∈ (s.apply contentDigest op).attempts, s.attempts.find? a.attemptId = none →
      ∀ digest, a.taskScopeDigest = some digest →
        ∃ now scope, op = .create a now ∧ s.Admits digest scope a now) ∧
    ∀ attempt now, (s.attempts.find? attempt.attemptId).isSome →
      s.apply contentDigest (.create attempt now) = s := by
  intro s
  have hscoped : s.Scoped := run_invariant (fun s op hs =>
    AttemptStore.apply_induction contentDigest hs fun s' h => (AttemptOp.exec_change h).scoped hs)
    ops .empty
  refine ⟨hscoped.granted, fun op a ha hnew digest hdigest => ?_, fun attempt now hstored => ?_⟩
  · cases hexec : op.exec contentDigest s with
    | error e =>
      rw [AttemptStore.apply_error contentDigest hexec] at ha
      cases hnew.symm.trans (Table.find?_of_mem ha)
    | ok r =>
      obtain ⟨⟨⟩, s'⟩ := r
      rw [AttemptStore.apply_ok contentDigest hexec] at ha
      exact (AttemptOp.exec_change hexec).created_under ha hnew hdigest
  · refine AttemptStore.apply_induction contentDigest (P := fun t => t = s) rfl fun s' h => ?_
    obtain ⟨a, h⟩ := AttemptM.drop_ok.mp h
    obtain ⟨rfl, -⟩ | ⟨hfree, -⟩ := createExecutionAttempt_ok h
    · rfl
    · rw [hfree] at hstored
      cases hstored

end Runs

end AeepRouter

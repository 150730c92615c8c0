import AeepRouter.Assessment.Repository
import Mathlib.Logic.Relation

/-!
# The assessment repository as a machine

`AssessmentOp` lists the calls that change the repository. `AssessmentChange` lists what one write
can do, with what its code checked; a call that succeeds is a sequence of such writes
(`AssessmentOp.exec_changes`), since a bundle may bring a budget amendment with it.
-/

namespace AeepRouter

open Lib

/-- The kinds of records that only the calls below write. -/
def authorityKinds : List String :=
  ["authorization", "scope_amendment", "budget_amendment", "operation_start",
    "operation_measurement"]

inductive AssessmentOp where
  | grant (grant : AssessmentAuthorization)
  | approveBundle (grant : BundleGrant) (definitions : List (String × AssessmentValue))
      (budgetAmendment : Option AssessmentBudgetAmendment) (now : Int)
  | approveBudgetAmendment (amendment : AssessmentBudgetAmendment) (now : Int)
  | reserve (plan : AssessmentRequest) (operationId : String) (limits : AssessmentLimits)
      (stage : String) (now : Int)
  | finishOperation (operationId : String) (elapsedSeconds : ℚ)
      (accounting : Option ResourceAccounting) (resources : Option String)
  | revoke (authorizationId : String)
  | put (kind : { kind : String // kind ∉ authorityKinds }) (identity : String)
      (value : AssessmentValue)
  | review (digest : String) (revoke : Bool) (now : Int)
  | writeJobs (jobs : List AssessmentJob)
  deriving DecidableEq

section Machine

variable (fetch : Fetch) (contentDigest : AssessmentValue → String)

/-- Runs a call. -/
def AssessmentOp.exec : AssessmentOp → AssessmentM Unit
  | grant authorization => AeepRouter.grant contentDigest authorization
  | approveBundle bundle definitions budgetAmendment now =>
    AeepRouter.approveBundle fetch contentDigest bundle definitions budgetAmendment now
  | approveBudgetAmendment amendment now =>
    AeepRouter.approveBudgetAmendment fetch contentDigest amendment now
  | reserve plan operationId limits stage now =>
    AeepRouter.reserve fetch contentDigest plan operationId limits stage now
  | finishOperation operationId elapsedSeconds accounting resources =>
    AeepRouter.finishOperation fetch contentDigest operationId elapsedSeconds accounting resources
  | revoke authorizationId => AeepRouter.revoke authorizationId
  | put kind identity value => fun s =>
    (s.definitions.put contentDigest kind identity value).map fun p =>
      ((), { s with definitions := p.2 })
  | review digest revoked now => fun s =>
    (s.definitions.review digest revoked now).map fun d => ((), { s with definitions := d })
  | writeJobs jobs => fun s => pure ((), { s with jobs := jobs })

/-- The repository after a call, which a failure leaves as it was. -/
def AssessmentStore.apply (s : AssessmentStore) (op : AssessmentOp) : AssessmentStore :=
  commit (op.exec fetch contentDigest s) s

def AssessmentBudgetAmendment.NamesRoot (s : AssessmentStore)
    (amendment : AssessmentBudgetAmendment) : Prop :=
  ∀ record ∈ fetch.one (s.definitions.records.rows.filter fun record =>
    record.kind = "authorization" ∧ (record.id = amendment.authorizationId ∨
      record.digest = amendment.authorizationId)), record.id = amendment.authorizationId

instance (s : AssessmentStore) (amendment : AssessmentBudgetAmendment) :
    Decidable (amendment.NamesRoot fetch s) := by
  unfold AssessmentBudgetAmendment.NamesRoot
  infer_instance

/-- Budget amendments name their authorization by its id. -/
def AssessmentOp.NamesRoot (s : AssessmentStore) : AssessmentOp → Prop
  | approveBundle _ _ (some amendment) _ | approveBudgetAmendment amendment _ =>
    amendment.NamesRoot fetch s
  | _ => True

instance (s : AssessmentStore) (op : AssessmentOp) : Decidable (op.NamesRoot fetch s) := by
  unfold AssessmentOp.NamesRoot
  split <;> infer_instance

end Machine

/-! ## Writes -/

/-- The records with one more when its id and its digest were free. -/
def Definitions.Adds (record : AssessmentRecord) (d d' : Definitions) : Prop :=
  d'.records = d.records ∨ d.records.find? record.key = none ∧
    (∀ other ∈ d.records, ¬ other.clash record) ∧ d'.records = d.records.insert record

section Changes

variable (fetch : Fetch) (contentDigest : AssessmentValue → String)

def digested (kind id : String) (value : AssessmentValue) : AssessmentRecord :=
  ⟨kind, id, contentDigest value, value⟩

inductive AssessmentChange (s : AssessmentStore) : AssessmentStore → Prop where
  | defined (kind id : String) (value : AssessmentValue) (d : Definitions)
      (jobs : List AssessmentJob) :
      kind ∉ authorityKinds ∨ kind = "scope_amendment" →
      s.definitions.Adds (digested contentDigest kind id value) d →
      AssessmentChange s { s with definitions := d, jobs := jobs }
  | granted (root : AssessmentAuthorization) (d : Definitions) :
      s.definitions.Adds (digested contentDigest "authorization" root.authorizationId
        (.authorization root)) d →
      AssessmentChange s ({ s with definitions := d }.addGrant root.authorizationId)
  | budgeted (amendment : AssessmentBudgetAmendment) (root effective : AssessmentAuthorization)
      (d : Definitions) :
      s.definitions.get fetch "authorization" amendment.authorizationId =
        .ok (.authorization root) →
      root.authorizationId = amendment.authorizationId →
      contentDigest (.authorization root) = amendment.authorizationDigest →
      amendment.previousAmendmentDigest =
        (s.definitions.budgets amendment.authorizationId).getLast?.map (·.1) →
      effectiveGrant fetch contentDigest s.definitions amendment.authorizationId = .ok effective →
      effective.limits ≤ amendment.limits ∧ effective.expiresAt ≤ amendment.expiresAt →
      s.definitions.Adds (digested contentDigest "budget_amendment" amendment.amendmentId
        (.budgetAmendment amendment)) d →
      AssessmentChange s { s with definitions := d }
  | reserved (authorizationId : String) (grant : AssessmentAuthorization) (row : AssessmentGrant)
      (operation : AssessmentOperation) (d : Definitions) :
      effectiveGrant fetch contentDigest s.definitions authorizationId = .ok grant →
      s.grants.find? grant.authorizationId = some row → row.revoked = false →
      s.operations.find? operation.operationId = none →
      (AssessmentGrant.debit operation.reserved row).Within grant.limits →
      s.definitions.Adds (digested contentDigest "operation_start" operation.operationId
        (.operation operation)) d →
      AssessmentChange s { s with
        definitions := d
        grants := s.grants.modify grant.authorizationId (AssessmentGrant.debit operation.reserved)
        operations := s.operations.insert
          ⟨operation.operationId, grant.authorizationId, .reserved, operation.reserved⟩ }
  | finished (row : OperationRow) (measured : AssessmentOperation) (elapsedSeconds : ℚ)
      (accounting : Option ResourceAccounting) :
      s.operations.find? row.id = some row → row.state = .reserved →
      measured.elapsedSeconds = some elapsedSeconds → measured.accounting = accounting →
      s.definitions.records.find? ("operation_measurement", row.id) = none →
      (∀ other ∈ s.definitions.records, ¬ other.clash
        (digested contentDigest "operation_measurement" row.id (.operation measured))) →
      AssessmentChange s { s with
        definitions := ⟨s.definitions.records.insert
          (digested contentDigest "operation_measurement" row.id (.operation measured)),
          s.definitions.reviews⟩
        grants := s.grants.modify row.grantId
          (AssessmentGrant.settle row.reserved elapsedSeconds accounting)
        operations := s.operations.modify row.id OperationRow.complete }
  | revoked (authorizationId : String) :
      AssessmentChange s
        { s with grants := s.grants.modify authorizationId AssessmentGrant.revoke }

end Changes

/-! ## What the calls write -/

section Definitions

variable {contentDigest : AssessmentValue → String} {d d' : Definitions} {record : AssessmentRecord}

theorem Definitions.insertOrIgnore_adds (d : Definitions) (record : AssessmentRecord) :
    d.Adds record (d.insertOrIgnore record) := by
  unfold Adds insertOrIgnore
  split
  · exact .inl rfl
  · next hfree =>
    cases hkey : d.records.find? record.key with
    | some other =>
      refine .inl (Table.ext ?_)
      have htaken : record.key ∈ d.records.rows.map AssessmentRecord.key := by
        rw [← Table.key_of_find? hkey]
        exact List.mem_map_of_mem (Table.mem_of_find? hkey)
      simp [Table.insert, htaken]
    | none => exact .inr ⟨rfl, fun other hother hclash => hfree ⟨other, hother, hclash⟩, rfl⟩

theorem Definitions.insertNew_ok (h : d.insertNew record = .ok d') :
    d.records.find? record.key = none ∧ (∀ other ∈ d.records, ¬ other.clash record) ∧
      d' = { d with records := d.records.insert record } := by
  simp only [insertNew, bind_ok, raiseIf_ok, exists_const, pure_ok, not_or, not_exists,
    not_and] at h
  obtain ⟨⟨hkey, hfree⟩, rfl⟩ := h
  exact ⟨by simpa using hkey, hfree, rfl⟩

theorem Definitions.foldl_setReview_records (now : Int) (digests : List String) (d : Definitions) :
    (digests.foldl (fun d digest => d.setReview ⟨digest, now, false⟩) d).records = d.records := by
  induction digests generalizing d with
  | nil => rfl
  | cons digest digests ih => exact ih _

theorem Definitions.Adds.of_records {e : Definitions} (h : d.Adds record d')
    (hrecords : d.records = e.records) : e.Adds record d' := by
  unfold Adds at h ⊢
  rwa [hrecords] at h

theorem asAuthorization_ok {value : AssessmentValue} {root : AssessmentAuthorization}
    (h : value.asAuthorization = .ok root) : value = .authorization root := by
  cases value with
  | authorization grant => exact congrArg _ (Except.ok.inj h)
  | _ => cases h

/-- A definition whose record a call stored under an id. -/
theorem Definitions.put_adds {kind identity digest : String} {value : AssessmentValue}
    (h : d.put contentDigest kind identity value = .ok (digest, d')) :
    d.Adds (digested contentDigest kind identity value) d' := by
  obtain ⟨rfl, -, rfl⟩ := put_ok h
  exact d.insertOrIgnore_adds _

theorem Definitions.get_ok {fetch : Fetch} {kind identity : String} {value : AssessmentValue}
    (h : d.get fetch kind identity = .ok value) :
    ∃ record ∈ d.records, fetch.one (d.records.rows.filter fun record =>
        record.kind = kind ∧ (record.id = identity ∨ record.digest = identity)) = some record ∧
      record.kind = kind ∧ (record.id = identity ∨ record.digest = identity) ∧
      record.value = value := by
  simp only [get, bind_ok, require_ok, pure_ok] at h
  obtain ⟨record, hone, rfl⟩ := h
  have hmem := fetch.mem _ _ hone
  rw [List.mem_filter, decide_eq_true_eq] at hmem
  exact ⟨record, hmem.1, hone, hmem.2.1, hmem.2.2, rfl⟩

end Definitions

section Calls

variable {fetch : Fetch} {contentDigest : AssessmentValue → String} {s s' : AssessmentStore}

/-- A write, or none. -/
abbrev AssessmentChanges (fetch : Fetch) (contentDigest : AssessmentValue → String) :
    AssessmentStore → AssessmentStore → Prop :=
  Relation.ReflTransGen (AssessmentChange fetch contentDigest)

theorem AssessmentStore.unrevoked_iff {authorizationId : String} :
    s.unrevoked authorizationId = true ↔
      ∃ row, s.grants.find? authorizationId = some row ∧ row.revoked = false := by
  unfold unrevoked
  cases s.grants.find? authorizationId <;> simp

theorem grant_changes {root : AssessmentAuthorization} {u : Unit}
    (h : grant contentDigest root s = .ok (u, s')) : AssessmentChanges fetch contentDigest s s' := by
  simp only [grant, bind_ok, pure_ok, Prod.mk.injEq, true_and] at h
  obtain ⟨⟨digest, d⟩, hput, rfl⟩ := h
  exact .single (.granted root d (Definitions.put_adds hput))

theorem approveBudgetAmendment_changes {amendment : AssessmentBudgetAmendment} {now : Int}
    {u : Unit} (hnamed : amendment.NamesRoot fetch s)
    (h : approveBudgetAmendment fetch contentDigest amendment now s = .ok (u, s'))
    (hd : ∀ record ∈ s.definitions.records, record.kind = "authorization" →
      ∃ root, record.value = .authorization root ∧ root.authorizationId = record.id) :
    AssessmentChanges fetch contentDigest s s' := by
  simp only [approveBudgetAmendment, bind_ok, raiseIf_ok, exists_const] at h
  obtain ⟨value, hget, root, hvalue, hcurrent, h⟩ := h
  obtain rfl := asAuthorization_ok hvalue
  rw [not_or, not_not, not_not] at hcurrent
  -- the root `get` finds is the one the amendment names
  have hroot : root.authorizationId = amendment.authorizationId := by
    obtain ⟨record, hmem, hone, hkind, -, hvalue⟩ := Definitions.get_ok hget
    obtain ⟨root', hvalue', hid⟩ := hd record hmem hkind
    rw [hvalue] at hvalue'
    cases hvalue'
    exact hid.trans (hnamed record hone)
  split at h
  · simp only [bind_ok, raiseIf_ok, exists_const, pure_ok, Prod.mk.injEq, true_and] at h
    obtain ⟨-, rfl⟩ := h
    exact .refl
  · simp only [bind_ok, raiseIf_ok, exists_const, pure_ok, Prod.mk.injEq, true_and, not_or,
      not_not, not_lt, ne_eq] at h
    obtain ⟨hprevious, effective, heffective, ⟨-, -, hexpiry, hlimits⟩, ⟨digest, d⟩, hput, rfl⟩ := h
    rw [hroot] at hprevious heffective
    exact .single (.budgeted amendment root effective d hget hroot hcurrent.2 hprevious
      heffective ⟨hlimits, hexpiry⟩ (Definitions.put_adds hput))

theorem approveDefinitions_changes {bundle : BundleGrant}
    {definitions : List (String × AssessmentValue)} {now : Int} {u : Unit}
    (h : approveDefinitions fetch contentDigest bundle definitions now s = .ok (u, s')) :
    AssessmentChanges fetch contentDigest s s' := by
  simp only [approveDefinitions, bind_ok, raiseIf_ok, exists_const, pure_ok, Prod.mk.injEq,
    true_and] at h
  obtain ⟨-, -, -, -, rfl⟩ := h
  have hrecords := Definitions.foldl_setReview_records now (definitions.map (·.1)) s.definitions
  cases bundle with
  | authorization root =>
    exact .single (.granted root _ ((Definitions.insertOrIgnore_adds _ _).of_records hrecords))
  | scopeAmendment amendment =>
    exact .single (.defined "scope_amendment" amendment.amendmentId (.scopeAmendment amendment) _
      s.jobs (.inr rfl) ((Definitions.insertOrIgnore_adds _ _).of_records hrecords))

theorem reserve_changes {plan : AssessmentRequest} {operationId : String}
    {limits : AssessmentLimits} {stage : String} {now : Int} {u : Unit}
    (h : reserve fetch contentDigest plan operationId limits stage now s = .ok (u, s')) :
    AssessmentChanges fetch contentDigest s s' := by
  simp only [reserve, authorize, currentGrant, bind_ok, raiseIf_ok, require_ok, exists_const,
    pure_ok, Prod.mk.injEq, true_and, not_or, not_not] at h
  obtain ⟨grant, ⟨grant, ⟨grant, heffective, ⟨hunrevoked, -⟩, rfl⟩, -, -, rfl⟩, -, hfree, row, hrow,
    hwithin, d, hnew, rfl⟩ := h
  obtain ⟨hkey, hclash, rfl⟩ := Definitions.insertNew_ok hnew
  obtain ⟨row', hrow', hrevoked⟩ := AssessmentStore.unrevoked_iff.mp hunrevoked
  obtain rfl : row' = row := Option.some.inj (hrow'.symm.trans hrow)
  exact .single (.reserved plan.authorizationId grant row'
    ⟨operationId, plan.planId, stage, limits, now, none, none, none, _⟩ _ heffective hrow
    hrevoked (by simpa using hfree) hwithin (.inr ⟨hkey, hclash, rfl⟩))

theorem finishOperation_changes {operationId : String} {elapsedSeconds : ℚ}
    {accounting : Option ResourceAccounting} {resources : Option String} {u : Unit}
    (h : finishOperation fetch contentDigest operationId elapsedSeconds accounting resources s =
      .ok (u, s')) :
    AssessmentChanges fetch contentDigest s s' := by
  unfold finishOperation at h
  split at h
  · next helapsed =>
    simp only [bind_ok, require_ok, pure_ok, Prod.mk.injEq, true_and] at h
    obtain ⟨row, hrow, value, -, started, -, d, hnew, rfl⟩ := h
    obtain ⟨hkey, hclash, rfl⟩ := Definitions.insertNew_ok hnew
    rw [Option.filter_eq_some_iff, decide_eq_true_eq] at hrow
    obtain rfl : row.id = operationId := Table.key_of_find? hrow.1
    exact .single (.finished row (started.measure elapsedSeconds accounting resources helapsed) _ _
      hrow.1 hrow.2 rfl rfl hkey hclash)
  · cases h

/-- A call that succeeds is a sequence of writes. -/
theorem AssessmentOp.exec_changes {op : AssessmentOp} {u : Unit} (hnamed : op.NamesRoot fetch s)
    (hd : ∀ record ∈ s.definitions.records, record.kind = "authorization" →
      ∃ root, record.value = .authorization root ∧ root.authorizationId = record.id)
    (h : op.exec fetch contentDigest s = .ok (u, s')) :
    AssessmentChanges fetch contentDigest s s' := by
  cases op with
  | grant root => exact grant_changes h
  | approveBudgetAmendment amendment now => exact approveBudgetAmendment_changes hnamed h hd
  | approveBundle bundle definitions budgetAmendment now =>
    cases budgetAmendment with
    | none => exact approveDefinitions_changes h
    | some amendment =>
      change (refuseIf _ _ >>= fun _ =>
        AeepRouter.approveBudgetAmendment fetch contentDigest amendment now s >>=
          fun p => approveDefinitions fetch contentDigest bundle definitions now p.2) = _ at h
      simp only [bind_ok, raiseIf_ok, exists_const] at h
      obtain ⟨-, ⟨⟨⟩, amended⟩, hamended, h⟩ := h
      exact (approveBudgetAmendment_changes hnamed hamended hd).trans
        (approveDefinitions_changes h)
  | reserve plan operationId limits stage now => exact reserve_changes h
  | finishOperation operationId elapsedSeconds accounting resources =>
    exact finishOperation_changes h
  | revoke authorizationId =>
    simp only [exec, AeepRouter.revoke, pure_ok, Prod.mk.injEq, true_and] at h
    exact h ▸ .single (.revoked authorizationId)
  | put kind identity value =>
    simp only [exec, map_ok, Prod.mk.injEq, true_and] at h
    obtain ⟨⟨digest, d⟩, hput, rfl⟩ := h
    exact .single (.defined kind identity value d s.jobs (.inl kind.2) (Definitions.put_adds hput))
  | review digest revoked now =>
    simp only [exec, Definitions.review, map_ok, bind_ok, raiseIf_ok, exists_const, pure_ok,
      Prod.mk.injEq, true_and] at h
    obtain ⟨d, ⟨-, rfl⟩, rfl⟩ := h
    exact .single (.defined "" "" (.other "") _ s.jobs (.inl (by decide)) (.inl rfl))
  | writeJobs jobs =>
    simp only [exec, pure_ok, Prod.mk.injEq, true_and] at h
    exact h ▸ .single (.defined "" "" (.other "") s.definitions jobs (.inl (by decide)) (.inl rfl))

end Calls

end AeepRouter

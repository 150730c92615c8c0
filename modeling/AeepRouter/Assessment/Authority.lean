import AeepRouter.Assessment.Step
import AeepRouter.Lib.Lineage

/-!
# Authorizations and their amendments

The records of a reachable repository are the stored authorizations and, for each of them, one
lineage of budget amendments (`Definitions.Authoritative`). `effectiveGrant` returns the terms in
force at the end of it (`effectiveGrant_ok`).
-/

namespace AeepRouter

open Lib

/-- What a budget amendment may raise: the limits and the expiry. -/
abbrev AssessmentTerms := AssessmentLimits × Int

def AssessmentAuthorization.terms (grant : AssessmentAuthorization) : AssessmentTerms :=
  (grant.limits, grant.expiresAt)

def AssessmentBudgetAmendment.terms (amendment : AssessmentBudgetAmendment) : AssessmentTerms :=
  (amendment.limits, amendment.expiresAt)

/-- One chain of budget amendments of a root, each with its digest, whose terms never fall. -/
abbrev BudgetLineage (root : AssessmentAuthorization)
    (budgets : List (String × AssessmentBudgetAmendment)) : Prop :=
  Lineage (·.1) (·.2.previousAmendmentDigest) (·.2.terms) root.terms budgets

/-- The terms of a root that its last budget amendment left. -/
def Definitions.termsInForce (d : Definitions) (root : AssessmentAuthorization) : AssessmentTerms :=
  current (·.2.terms) root.terms (d.budgets root.authorizationId)

/-! ## The effective grant -/

section Effective

variable {fetch : Fetch} {contentDigest : AssessmentValue → String} {d : Definitions}

theorem addScope_foldlM {rootDigest : String} {amendments : List AssessmentScopeAmendment}
    {grant grant' : AssessmentAuthorization}
    (h : amendments.foldlM (addScope rootDigest) grant = .ok grant') :
    grant'.authorizationId = grant.authorizationId ∧ grant'.terms = grant.terms := by
  refine foldlM_invariant (P := fun g => g.authorizationId = grant.authorizationId ∧
    g.terms = grant.terms) ?_ ⟨rfl, rfl⟩ h
  intro g amendment g' hg hstep
  simp only [addScope, bind_ok, raiseIf_ok, exists_const, pure_ok] at hstep
  obtain ⟨-, rfl⟩ := hstep
  exact hg

theorem addBudget_foldlM {rootDigest : String} {budgets : List (String × AssessmentBudgetAmendment)}
    {state state' : AssessmentAuthorization × Option String}
    (h : (budgets.map (·.2)).foldlM (addBudget contentDigest rootDigest) state = .ok state') :
    state'.1.authorizationId = state.1.authorizationId ∧
      state'.1.terms = current (·.2.terms) state.1.terms budgets ∧
      ∀ p ∈ budgets, p.2.authorizationDigest = rootDigest := by
  induction budgets generalizing state with
  | nil =>
    rw [List.map_nil, List.foldlM_nil, pure_ok] at h
    exact h ▸ ⟨rfl, rfl, nofun⟩
  | cons p budgets ih =>
    rw [List.map_cons, List.foldlM_cons, bind_ok] at h
    obtain ⟨next, hnext, h⟩ := h
    simp only [addBudget, bind_ok, raiseIf_ok, exists_const, pure_ok, not_or, not_not] at hnext
    obtain ⟨⟨hdigest, -⟩, grant, hraise, rfl⟩ := hnext
    unfold AssessmentAuthorization.raise at hraise
    split at hraise
    · obtain ⟨hid, hterms, hall⟩ := ih h
      obtain rfl := pure_ok.mp hraise
      refine ⟨hid, hterms.trans (current_cons p).symm, ?_⟩
      rw [List.forall_mem_cons]
      exact ⟨hdigest, hall⟩
    · cases hraise

theorem effectiveGrant_ok {authorizationId : String} {grant : AssessmentAuthorization}
    (h : effectiveGrant fetch contentDigest d authorizationId = .ok grant) :
    ∃ root, d.get fetch "authorization" authorizationId = .ok (.authorization root) ∧
      grant.authorizationId = root.authorizationId ∧
      grant.terms = current (·.2.terms) root.terms (d.budgets authorizationId) ∧
      ∀ p ∈ d.budgets authorizationId,
        p.2.authorizationDigest = contentDigest (.authorization root) := by
  simp only [effectiveGrant, bind_ok, pure_ok] at h
  obtain ⟨value, hget, root, hvalue, widened, hwidened, amended, hamended, rfl⟩ := h
  obtain rfl := asAuthorization_ok hvalue
  obtain ⟨hid, hterms⟩ := addScope_foldlM hwidened
  obtain ⟨hid', hterms', hall⟩ := addBudget_foldlM hamended
  exact ⟨root, hget, hid'.trans hid, hterms ▸ hterms', hall⟩

end Effective

/-! ## The records of a repository -/

def Definitions.IsRoot (contentDigest : AssessmentValue → String) (d : Definitions)
    (root : AssessmentAuthorization) : Prop :=
  digested contentDigest "authorization" root.authorizationId (.authorization root) ∈ d.records

/-- Every record is one of its digest, authorizations stand under their ids, and the budget
amendments of each are one lineage. -/
structure Definitions.Authoritative (contentDigest : AssessmentValue → String) (d : Definitions) :
    Prop where
  stored : ∀ record ∈ d.records, record.digest = contentDigest record.value
  unique : ∀ a ∈ d.records, ∀ b ∈ d.records, a.clash b → a = b
  named : ∀ record ∈ d.records, record.kind = "authorization" →
    ∃ root, record.value = .authorization root ∧ root.authorizationId = record.id
  rooted : ∀ authorizationId, ∀ p ∈ d.budgets authorizationId, ∃ root,
    d.IsRoot contentDigest root ∧ root.authorizationId = authorizationId ∧
      p.2.authorizationDigest = contentDigest (.authorization root)
  lineage : ∀ root, d.IsRoot contentDigest root →
    BudgetLineage root (d.budgets root.authorizationId)

section Authoritative

variable {contentDigest : AssessmentValue → String} {d d' : Definitions} {record : AssessmentRecord}

theorem Definitions.authoritative_empty : Definitions.empty.Authoritative contentDigest where
  stored _ h := absurd h Table.not_mem_empty
  unique _ h := absurd h Table.not_mem_empty
  named _ h := absurd h Table.not_mem_empty
  rooted _ _ h := absurd h List.not_mem_nil
  lineage _ h := absurd h Table.not_mem_empty

/-- A record of the new ones is an old one, or the one whose id was free. -/
theorem Definitions.Adds.mem (h : d.Adds record d') {r : AssessmentRecord} (hr : r ∈ d'.records) :
    r ∈ d.records ∨ r = record ∧ d.records.find? record.key = none := by
  rcases h with hsame | ⟨hkey, -, hadded⟩
  · exact .inl (hsame ▸ hr)
  · exact (Table.mem_or_eq_of_mem_insert (hadded ▸ hr)).imp_right fun hr => ⟨hr, hkey⟩

theorem Definitions.Adds.mem_of_mem (h : d.Adds record d') {r : AssessmentRecord}
    (hr : r ∈ d.records) : r ∈ d'.records := by
  rcases h with hsame | ⟨-, -, hadded⟩
  · exact hsame ▸ hr
  · exact hadded ▸ Table.mem_insert_of_mem hr

theorem Definitions.Adds.budgets (h : d.Adds record d') (authorizationId : String) :
    d'.budgets authorizationId = d.budgets authorizationId ∨
      d'.records = d.records.insert record ∧ d'.budgets authorizationId =
        d.budgets authorizationId ++ (budgetOf authorizationId record).toList := by
  rcases h with hsame | ⟨hkey, -, hadded⟩
  · left
    unfold Definitions.budgets
    rw [hsame]
  · right
    refine ⟨hadded, ?_⟩
    unfold Definitions.budgets
    rw [hadded, Table.insert_rows hkey, List.filterMap_append]
    cases hbudget : budgetOf authorizationId record <;> simp [hbudget]

theorem Definitions.budgetOf_of_kind_ne {authorizationId : String}
    (h : record.kind ≠ "budget_amendment") : budgetOf authorizationId record = none := by
  unfold budgetOf
  split
  · rw [if_neg fun hc => h hc.1]
  · rfl

theorem Definitions.budgets_of_adds (h : d.Adds record d') (hkind : record.kind ≠ "budget_amendment")
    (authorizationId : String) : d'.budgets authorizationId = d.budgets authorizationId := by
  rcases h.budgets authorizationId with hsame | ⟨-, hmore⟩
  · exact hsame
  · rw [hmore, budgetOf_of_kind_ne hkind, Option.toList_none, List.append_nil]

theorem Definitions.root_eq {a b : AssessmentAuthorization} (ha : d.IsRoot contentDigest a)
    (hb : d.IsRoot contentDigest b) (h : a.authorizationId = b.authorizationId) : a = b := by
  have heq := Table.eq_of_key_eq ha hb (by simp [digested, AssessmentRecord.key, h])
  exact AssessmentValue.authorization.inj (congrArg AssessmentRecord.value heq)

theorem Definitions.Adds.isRoot (h : d.Adds record d') {root : AssessmentAuthorization}
    (hroot : d.IsRoot contentDigest root) : d'.IsRoot contentDigest root := h.mem_of_mem hroot

namespace Definitions.Authoritative

variable (hd : d.Authoritative contentDigest)
include hd

theorem get_root {fetch : Fetch} {identity : String} {root : AssessmentAuthorization}
    (h : d.get fetch "authorization" identity = .ok (.authorization root)) :
    d.IsRoot contentDigest root := by
  obtain ⟨record, hmem, -, hkind, -, hvalue⟩ := get_ok h
  obtain ⟨root', hvalue', hid⟩ := hd.named record hmem hkind
  obtain rfl := AssessmentValue.authorization.inj (hvalue'.symm.trans hvalue)
  have hdigest := hd.stored record hmem
  rw [hvalue] at hdigest
  have hrecord : record = digested contentDigest "authorization" root'.authorizationId
      (.authorization root') := by
    cases record
    simp_all [digested]
  rw [hrecord] at hmem
  exact hmem

theorem effective_le {fetch : Fetch} {identity : String} {grant : AssessmentAuthorization}
    (h : effectiveGrant fetch contentDigest d identity = .ok grant) :
    ∃ root, d.IsRoot contentDigest root ∧ grant.authorizationId = root.authorizationId ∧
      grant.terms ≤ d.termsInForce root := by
  obtain ⟨root, hget, hid, hterms, hall⟩ := effectiveGrant_ok h
  have hroot := hd.get_root hget
  refine ⟨root, hroot, hid, ?_⟩
  cases hbudgets : d.budgets identity with
  | nil =>
    -- no amendment goes by this id
    rw [hterms, hbudgets, current_nil]
    exact (hd.lineage root hroot).root_le_current
  | cons p budgets =>
    have hp : p ∈ d.budgets identity := hbudgets ▸ List.mem_cons_self
    obtain ⟨other, hother, hotherId, hdigest⟩ := hd.rooted identity p hp
    have hclash : (digested contentDigest "authorization" root.authorizationId
        (.authorization root)).clash
        (digested contentDigest "authorization" other.authorizationId (.authorization other)) :=
      ⟨rfl, (hall p hp).symm.trans hdigest⟩
    have heq := congrArg AssessmentRecord.value (hd.unique _ hroot _ hother hclash)
    obtain rfl := AssessmentValue.authorization.inj heq
    rw [hterms, ← hotherId]
    exact le_rfl

theorem effective_eq {fetch : Fetch} {identity : String} {grant : AssessmentAuthorization}
    (h : effectiveGrant fetch contentDigest d identity = .ok grant)
    (hid : grant.authorizationId = identity) :
    ∃ root, d.IsRoot contentDigest root ∧ root.authorizationId = identity ∧
      grant.terms = d.termsInForce root := by
  obtain ⟨root, hget, hroot, hterms, -⟩ := effectiveGrant_ok h
  have hrootId := hroot.symm.trans hid
  refine ⟨root, hd.get_root hget, hrootId, ?_⟩
  rw [hterms, ← hrootId]
  rfl

/-! ### More records -/

section Adds

variable {kind id : String} {value : AssessmentValue}
  (hadds : d.Adds (digested contentDigest kind id value) d')
include hadds

theorem adds_stored {r : AssessmentRecord} (hr : r ∈ d'.records) :
    r.digest = contentDigest r.value := by
  rcases hadds.mem hr with hr | ⟨rfl, -⟩
  · exact hd.stored r hr
  · rfl

theorem adds_unique {a b : AssessmentRecord} (ha : a ∈ d'.records) (hb : b ∈ d'.records)
    (h : a.clash b) : a = b := by
  rcases hadds with hsame | ⟨-, hfree, hadded⟩
  · exact hd.unique a (hsame ▸ ha) b (hsame ▸ hb) h
  · rcases Table.mem_or_eq_of_mem_insert (hadded ▸ ha) with ha | rfl <;>
      rcases Table.mem_or_eq_of_mem_insert (hadded ▸ hb) with hb | rfl
    · exact hd.unique a ha b hb h
    · exact absurd h (hfree a ha)
    · exact absurd ⟨h.1.symm, h.2.symm⟩ (hfree b hb)
    · rfl

/-- A definition of another kind, an amendment of a scope or a new authorization. -/
theorem adds (hkind : kind ≠ "budget_amendment")
    (hroot : kind = "authorization" →
      ∃ root, value = .authorization root ∧ root.authorizationId = id) :
    d'.Authoritative contentDigest := by
  have hbudgets := budgets_of_adds hadds hkind
  refine ⟨fun r hr => hd.adds_stored hadds hr, fun a ha b hb h => hd.adds_unique hadds ha hb h,
    ?_, ?_, ?_⟩
  · intro r hr hauthorization
    rcases hadds.mem hr with hr | ⟨rfl, -⟩
    · exact hd.named r hr hauthorization
    · exact hroot hauthorization
  · intro authorizationId p hp
    obtain ⟨root, hstored, hid, hdigest⟩ := hd.rooted authorizationId p (hbudgets _ ▸ hp)
    exact ⟨root, hadds.isRoot hstored, hid, hdigest⟩
  · intro root hstored
    rw [hbudgets]
    rcases hadds.mem hstored with hstored | ⟨hnew, hfree⟩
    · exact hd.lineage root hstored
    · -- an authorization just stored has no amendment yet
      have hnone : d.budgets root.authorizationId = [] := by
        rw [List.eq_nil_iff_forall_not_mem]
        intro p hp
        obtain ⟨other, hother, hid, -⟩ := hd.rooted _ p hp
        refine Table.find?_eq_none.mp hfree _ hother ?_
        rw [← hnew]
        simp [digested, AssessmentRecord.key, hid]
      rw [hnone]
      exact .nil

end Adds

theorem budgeted {fetch : Fetch} {amendment : AssessmentBudgetAmendment}
    {root effective : AssessmentAuthorization}
    (hget : d.get fetch "authorization" amendment.authorizationId = .ok (.authorization root))
    (hid : root.authorizationId = amendment.authorizationId)
    (hdigest : contentDigest (.authorization root) = amendment.authorizationDigest)
    (hprevious : amendment.previousAmendmentDigest =
      (d.budgets amendment.authorizationId).getLast?.map (·.1))
    (heffective : effectiveGrant fetch contentDigest d amendment.authorizationId = .ok effective)
    (hterms : effective.terms ≤ amendment.terms)
    (hadds : d.Adds (digested contentDigest "budget_amendment" amendment.amendmentId
      (.budgetAmendment amendment)) d') :
    d'.Authoritative contentDigest := by
  have hroot := hd.get_root hget
  have hnotRoot : ∀ other : AssessmentAuthorization, d'.IsRoot contentDigest other →
      d.IsRoot contentDigest other := by
    intro other hother
    rcases hadds.mem hother with hother | ⟨heq, -⟩
    · exact hother
    · exact absurd (congrArg AssessmentRecord.kind heq) (by simp [digested])
  have hbudgets : ∀ authorizationId, d'.budgets authorizationId = d.budgets authorizationId ∨
      authorizationId = amendment.authorizationId ∧ d'.budgets authorizationId =
        d.budgets authorizationId ++ [(contentDigest (.budgetAmendment amendment), amendment)] := by
    intro authorizationId
    rcases hadds.budgets authorizationId with hsame | ⟨-, hmore⟩
    · exact .inl hsame
    · by_cases hown : amendment.authorizationId = authorizationId
      · exact .inr ⟨hown.symm, by simpa [digested, budgetOf, hown] using hmore⟩
      · exact .inl (by simpa [digested, budgetOf, hown] using hmore)
  refine ⟨fun r hr => hd.adds_stored hadds hr, fun a ha b hb h => hd.adds_unique hadds ha hb h,
    ?_, ?_, ?_⟩
  · intro r hr hauthorization
    rcases hadds.mem hr with hr | ⟨rfl, -⟩
    · exact hd.named r hr hauthorization
    · exact absurd hauthorization (by simp [digested])
  · intro authorizationId p hp
    have hold : p ∈ d.budgets authorizationId → ∃ root, d'.IsRoot contentDigest root ∧
        root.authorizationId = authorizationId ∧
        p.2.authorizationDigest = contentDigest (.authorization root) := by
      intro hp
      obtain ⟨other, hstored, hother, hpd⟩ := hd.rooted authorizationId p hp
      exact ⟨other, hadds.isRoot hstored, hother, hpd⟩
    rcases hbudgets authorizationId with hsame | ⟨rfl, hmore⟩
    · exact hold (hsame ▸ hp)
    · rw [hmore, List.mem_append, List.mem_singleton] at hp
      rcases hp with hp | rfl
      · exact hold hp
      · exact ⟨root, hadds.isRoot hroot, hid, hdigest.symm⟩
  · intro other hother
    have hlineage := hd.lineage other (hnotRoot other hother)
    rcases hbudgets other.authorizationId with hsame | ⟨hown, hmore⟩
    · rwa [hsame]
    · -- the lineage of the root the amendment names
      obtain rfl := root_eq (hnotRoot other hother) hroot (hown.trans hid.symm)
      rw [hmore]
      refine hlineage.append ?_ ?_
      · rw [hown]
        exact hprevious
      · obtain ⟨found, hfound, -, hcurrent, -⟩ := effectiveGrant_ok heffective
        obtain rfl : other = found :=
          AssessmentValue.authorization.inj (Except.ok.inj (hget.symm.trans hfound))
        rw [hown, ← hcurrent]
        exact hterms

end Definitions.Authoritative

end Authoritative

end AeepRouter

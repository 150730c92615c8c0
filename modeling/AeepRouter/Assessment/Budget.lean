import AeepRouter.Assessment.Authority
import Mathlib.Algebra.Order.Monoid.Prod

/-!
# Assessment budgets

The totals of a grant are the sums over its operations of what they are charged: what was reserved,
or, once finished, the seconds measured and the larger of the cash reserved and the cash known. The
totals of an unrevoked grant are within the limits in force (`assessment_budget_kept`).
-/

namespace AeepRouter

open Lib

/-- Operations, model turns, seconds and cash. -/
abbrev Amounts := ℕ × ℕ × ℚ × ℚ

def AssessmentLimits.amounts (limits : AssessmentLimits) : Amounts :=
  (limits.maxOperations, limits.maxModelTurns, limits.maxElapsedSeconds, limits.maxCashUsd)

def AssessmentGrant.totals (grant : AssessmentGrant) : Amounts :=
  (grant.operations, grant.modelTurns, grant.elapsedSeconds, grant.cashUsd)

def Definitions.measurement? (d : Definitions) (operationId : String) :
    Option AssessmentOperation :=
  (d.records.find? ("operation_measurement", operationId)).bind fun record =>
    match record.value with
    | .operation operation => some operation
    | _ => none

def AssessmentOperation.actualCash (operation : AssessmentOperation) : Option ℚ :=
  operation.accounting.bind (·.cash.actualCashCost "USD")

/-- What a finished operation is charged for its measurement. -/
def AssessmentLimits.measured (reserved : AssessmentLimits)
    (measurement : Option AssessmentOperation) : Amounts :=
  (reserved.maxOperations, reserved.maxModelTurns,
    (measurement.bind (·.elapsedSeconds)).getD 0,
    max reserved.maxCashUsd ((measurement.bind (·.actualCash)).getD 0))

def OperationRow.charge (d : Definitions) (row : OperationRow) : Amounts :=
  match row.state with
  | .reserved => row.reserved.amounts
  | .complete => row.reserved.measured (d.measurement? row.id)

def Definitions.charged (d : Definitions) (operations : Table OperationRow (·.id))
    (grantId : String) : Amounts :=
  (operations.select (fun row => row.grantId = grantId) (OperationRow.charge d)).sum

section Amounts

variable {d d' : Definitions} {reserved limits : AssessmentLimits} {g : AssessmentGrant}

theorem AssessmentLimits.amounts_nonneg (limits : AssessmentLimits) : 0 ≤ limits.amounts :=
  ⟨Nat.zero_le _, Nat.zero_le _, limits.elapsed.1.le, limits.cash⟩

theorem AssessmentGrant.within_iff : g.Within limits ↔ g.totals ≤ limits.amounts := Iff.rfl

theorem AssessmentLimits.amounts_mono {a b : AssessmentLimits} (h : a ≤ b) :
    a.amounts ≤ b.amounts := h

theorem OperationRow.charge_nonneg (row : OperationRow) : 0 ≤ row.charge d := by
  unfold charge
  split
  · exact row.reserved.amounts_nonneg
  · refine ⟨Nat.zero_le _, Nat.zero_le _, ?_, le_max_of_le_left row.reserved.cash⟩
    show (0 : ℚ) ≤ ((d.measurement? row.id).bind (·.elapsedSeconds)).getD 0
    cases hseconds : (d.measurement? row.id).bind (·.elapsedSeconds) with
    | none => exact le_rfl
    | some seconds =>
      obtain ⟨operation, -, hop⟩ := Option.bind_eq_some_iff.mp hseconds
      exact operation.elapsed seconds hop

theorem AssessmentGrant.settle_totals {measured : AssessmentOperation} {elapsedSeconds : ℚ}
    {accounting : Option ResourceAccounting} (hseconds : measured.elapsedSeconds = some elapsedSeconds)
    (haccounting : measured.accounting = accounting)
    (hreserved : reserved.maxElapsedSeconds ≤ g.elapsedSeconds) :
    (AssessmentGrant.settle reserved elapsedSeconds accounting g).totals + reserved.amounts =
      g.totals + reserved.measured (some measured) := by
  have h0 : 0 ≤ elapsedSeconds := measured.elapsed _ hseconds
  have hmax : max 0 (g.elapsedSeconds - (reserved.maxElapsedSeconds - elapsedSeconds)) +
      reserved.maxElapsedSeconds = g.elapsedSeconds + elapsedSeconds := by
    rw [max_eq_right (by linarith)]
    ring
  subst haccounting
  unfold AssessmentLimits.measured AssessmentOperation.actualCash
  simp only [Option.bind_some, hseconds, Option.getD_some]
  unfold AssessmentGrant.settle AssessmentGrant.settleCash
  dsimp only
  cases measured.accounting with
  | none => simp [totals, settleTime, AssessmentLimits.amounts, hmax, max_eq_left reserved.cash]
  | some accounting =>
    simp only [Option.bind_some]
    cases accounting.cash.actualCashCost "USD" with
    | none =>
      dsimp only
      split <;> simp [totals, settleTime, AssessmentLimits.amounts, hmax, max_eq_left reserved.cash]
    | some actual =>
      dsimp only
      split
      · next hover =>
        simp [totals, settleTime, AssessmentLimits.amounts, hmax, max_eq_right hover.le]
      · next hwithin =>
        simp [totals, settleTime, AssessmentLimits.amounts, hmax, max_eq_left (not_lt.mp hwithin)]

/-- The cash moves only together with a revocation. -/
theorem AssessmentGrant.settleCash_eq {accounting : Option ResourceAccounting}
    (h : (g.settleCash reserved accounting).revoked = false) :
    g.settleCash reserved accounting = g := by
  revert h
  unfold settleCash
  split
  · exact fun _ => rfl
  · split <;> split <;> intro h <;> first | rfl | cases h

theorem AssessmentGrant.settle_unrevoked {elapsedSeconds : ℚ}
    {accounting : Option ResourceAccounting} (h0 : 0 ≤ g.elapsedSeconds)
    (h : (AssessmentGrant.settle reserved elapsedSeconds accounting g).revoked = false) :
    g.revoked = false ∧ (AssessmentGrant.settle reserved elapsedSeconds accounting g).totals ≤
      g.totals := by
  change ((g.settleCash reserved accounting).settleTime reserved elapsedSeconds).revoked = _ at h
  change _ ∧ ((g.settleCash reserved accounting).settleTime reserved elapsedSeconds).totals ≤ _
  unfold settleTime at h ⊢
  simp only [Bool.or_eq_false_iff, decide_eq_false_iff_not, not_lt] at h
  obtain ⟨hrevoked, helapsed⟩ := h
  have hcash := settleCash_eq hrevoked
  rw [hcash] at hrevoked ⊢
  have hseconds : g.elapsedSeconds - (reserved.maxElapsedSeconds - elapsedSeconds) ≤
      g.elapsedSeconds := by linarith
  exact ⟨hrevoked, le_rfl, le_rfl, max_le h0 hseconds, le_rfl⟩

end Amounts

/-! ## What the writes charge -/

section Charges

variable {d d' : Definitions} {record : AssessmentRecord} {row : OperationRow}
  {operations : Table OperationRow (·.id)}

theorem Definitions.Adds.measurement? (h : d.Adds record d')
    (hkind : record.kind ≠ "operation_measurement") (operationId : String) :
    d'.measurement? operationId = d.measurement? operationId := by
  unfold Definitions.measurement?
  rcases h with hsame | ⟨hkey, -, hadded⟩
  · rw [hsame]
  · rw [hadded, Table.find?_insert hkey, if_neg]
    rintro hc
    exact hkind (congrArg Prod.fst hc).symm

theorem Definitions.charged_congr (h : ∀ row ∈ operations, row.charge d' = row.charge d)
    (grantId : String) : d'.charged operations grantId = d.charged operations grantId := by
  unfold charged
  rw [Table.sum_select, Table.sum_select]
  refine Table.sumBy_congr fun row hrow => ?_
  rw [h row hrow]

theorem Definitions.Adds.charged (h : d.Adds record d')
    (hkind : record.kind ≠ "operation_measurement") (operations : Table OperationRow (·.id))
    (grantId : String) : d'.charged operations grantId = d.charged operations grantId := by
  refine charged_congr (fun row _ => ?_) grantId
  unfold OperationRow.charge
  rw [h.measurement? hkind]

theorem Definitions.charged_insert (hfree : operations.find? row.id = none)
    (hreserved : row.state = .reserved) (grantId : String) :
    d.charged (operations.insert row) grantId = d.charged operations grantId +
      if row.grantId = grantId then row.reserved.amounts else 0 := by
  unfold charged
  rw [Table.sum_select, Table.sum_select, Table.sumBy_insert hfree]
  unfold OperationRow.charge
  rw [hreserved]

theorem Definitions.charged_complete {measured : AssessmentOperation}
    (hrow : operations.find? row.id = some row) (hreserved : row.state = .reserved)
    (hmeasured : ∀ operationId, d'.measurement? operationId =
      if operationId = row.id then some measured else d.measurement? operationId)
    (grantId : String) :
    d'.charged (operations.modify row.id OperationRow.complete) grantId +
        (if row.grantId = grantId then row.reserved.amounts else 0) =
      d.charged operations grantId +
        if row.grantId = grantId then row.reserved.measured (some measured) else 0 := by
  have hbefore : row.charge d' = row.reserved.amounts := by
    unfold OperationRow.charge
    rw [hreserved]
  have hafter : (OperationRow.complete row).charge d' = row.reserved.measured (some measured) := by
    show row.reserved.measured (d'.measurement? row.id) = _
    rw [hmeasured, if_pos rfl]
  have hothers : ∀ other ∈ operations, other.charge d' = other.charge d := by
    intro other hother
    unfold OperationRow.charge
    split
    · rfl
    · next hcomplete =>
      rw [hmeasured, if_neg]
      intro hid
      -- the operation measured was still open
      obtain rfl := Table.eq_of_key_eq hother (Table.mem_of_find? hrow) hid
      rw [hreserved] at hcomplete
      cases hcomplete
  rw [← charged_congr hothers]
  unfold charged
  rw [Table.sum_select, Table.sum_select]
  have hmove := Table.sumBy_modify hrow OperationRow.complete
    (fun row => if row.grantId = grantId then row.charge d' else 0)
  rw [hbefore] at hmove
  rw [hmove]
  show _ + (if row.grantId = grantId then (OperationRow.complete row).charge d' else 0) = _
  rw [hafter]

theorem Definitions.charge_le_charged (hrow : row ∈ operations) :
    row.charge d ≤ d.charged operations row.grantId := by
  refine List.single_le_sum (fun amounts hamounts => ?_) _ (Table.mem_select.mpr ⟨row, hrow, rfl, rfl⟩)
  obtain ⟨other, -, -, rfl⟩ := Table.mem_select.mp hamounts
  exact other.charge_nonneg

end Charges

/-! ## The repository in order -/

/-- The totals of every grant are what its operations are charged, and those of an unrevoked one are
within the limits in force of its authorization. -/
structure AssessmentStore.InOrder (contentDigest : AssessmentValue → String) (s : AssessmentStore) :
    Prop where
  authority : s.definitions.Authoritative contentDigest
  known : ∀ row ∈ s.operations, (∃ g ∈ s.grants, g.id = row.grantId) ∧
    ∃ root, s.definitions.IsRoot contentDigest root ∧ root.authorizationId = row.grantId
  balances : ∀ g ∈ s.grants, g.totals = s.definitions.charged s.operations g.id
  within : ∀ g ∈ s.grants, g.revoked = false → ∀ root, s.definitions.IsRoot contentDigest root →
    root.authorizationId = g.id → g.totals ≤ (s.definitions.termsInForce root).1.amounts

section InOrder

variable {fetch : Fetch} {contentDigest : AssessmentValue → String} {s s' : AssessmentStore}
  {d : Definitions}

theorem AssessmentStore.inOrder_empty : AssessmentStore.empty.InOrder contentDigest where
  authority := Definitions.authoritative_empty
  known _ h := absurd h Table.not_mem_empty
  balances _ h := absurd h Table.not_mem_empty
  within _ h := absurd h Table.not_mem_empty

theorem Definitions.Adds.isRoot_of_kind_ne {record : AssessmentRecord} {e e' : Definitions}
    (h : e.Adds record e') (hkind : record.kind ≠ "authorization") {root : AssessmentAuthorization}
    (hroot : e'.IsRoot contentDigest root) : e.IsRoot contentDigest root := by
  rcases h.mem hroot with hroot | ⟨heq, -⟩
  · exact hroot
  · exact absurd (congrArg AssessmentRecord.kind heq).symm hkind

theorem Definitions.Adds.termsInForce {record : AssessmentRecord} {e e' : Definitions}
    (h : e.Adds record e') (hkind : record.kind ≠ "budget_amendment")
    (root : AssessmentAuthorization) : e'.termsInForce root = e.termsInForce root := by
  unfold Definitions.termsInForce
  rw [budgets_of_adds h hkind]

theorem Definitions.Adds.termsInForce_le {record : AssessmentRecord} {e e' : Definitions}
    (h : e.Adds record e') {root : AssessmentAuthorization}
    (hlineage : BudgetLineage root (e'.budgets root.authorizationId)) :
    e.termsInForce root ≤ e'.termsInForce root := by
  unfold Definitions.termsInForce
  rcases h.budgets root.authorizationId with hsame | ⟨-, hmore⟩
  · rw [hsame]
  · rw [hmore] at hlineage ⊢
    exact hlineage.current_le_append

theorem Definitions.charged_eq_zero {e : Definitions} {operations : Table OperationRow (·.id)}
    {grantId : String} (h : ∀ row ∈ operations, row.grantId ≠ grantId) :
    e.charged operations grantId = 0 := by
  unfold Definitions.charged
  rw [Table.select_eq_nil h]
  rfl

namespace AssessmentStore.InOrder

variable (hs : s.InOrder contentDigest)
include hs

theorem defined {record : AssessmentRecord} (hadds : s.definitions.Adds record d)
    (hd : d.Authoritative contentDigest) (hroot : record.kind ≠ "authorization")
    (hmeasured : record.kind ≠ "operation_measurement") (jobs : List AssessmentJob) :
    InOrder contentDigest { s with definitions := d, jobs := jobs } where
  authority := hd
  known row hrow := by
    obtain ⟨hgrant, root, hstored, hid⟩ := hs.known row hrow
    exact ⟨hgrant, root, hadds.isRoot hstored, hid⟩
  balances g hg := by
    show g.totals = d.charged s.operations g.id
    rw [hadds.charged hmeasured]
    exact hs.balances g hg
  within g hg hrevoked root hstored hid := by
    have hbefore := hadds.isRoot_of_kind_ne hroot hstored
    refine (hs.within g hg hrevoked root hbefore hid).trans ?_
    exact AssessmentLimits.amounts_mono (hadds.termsInForce_le (hd.lineage root hstored)).1

theorem granted {root : AssessmentAuthorization}
    (hadds : s.definitions.Adds (digested contentDigest "authorization" root.authorizationId
      (.authorization root)) d) :
    InOrder contentDigest ({ s with definitions := d }.addGrant root.authorizationId) := by
  have hbudget : (digested contentDigest "authorization" root.authorizationId
      (.authorization root)).kind ≠ "budget_amendment" := by simp [digested]
  have hmeasured : (digested contentDigest "authorization" root.authorizationId
      (.authorization root)).kind ≠ "operation_measurement" := by simp [digested]
  -- a row just inserted has no operation
  have hbalances : ∀ g ∈ s.grants.insert ⟨root.authorizationId, false, 0, 0, 0, 0⟩,
      g.totals = d.charged s.operations g.id := by
    intro g hg
    rw [hadds.charged hmeasured]
    rcases Table.mem_or_new_of_mem_insert hg with hg | ⟨rfl, hfree⟩
    · exact hs.balances g hg
    · refine (Definitions.charged_eq_zero fun row hrow heq => ?_).symm
      obtain ⟨⟨g, hg, hgid⟩, -⟩ := hs.known row hrow
      exact Table.find?_eq_none.mp hfree g hg (hgid.trans heq)
  refine ⟨hs.authority.adds hadds (by decide) fun _ => ⟨root, rfl, rfl⟩, ?_, hbalances, ?_⟩
  · intro row hrow
    obtain ⟨⟨g, hg, hgid⟩, other, hstored, hid⟩ := hs.known row hrow
    exact ⟨⟨g, Table.mem_insert_of_mem hg, hgid⟩, other, hadds.isRoot hstored, hid⟩
  · intro g hg hrevoked other hstored hid
    have hzero : g.totals = 0 → g.totals ≤ (d.termsInForce other).1.amounts :=
      fun h => h ▸ AssessmentLimits.amounts_nonneg _
    rcases Table.mem_or_new_of_mem_insert hg with hold | ⟨rfl, -⟩
    · rcases hadds.mem hstored with hstored | ⟨hnew, hfree⟩
      · show g.totals ≤ (d.termsInForce other).1.amounts
        rw [hadds.termsInForce hbudget]
        exact hs.within g hold hrevoked other hstored hid
      · -- nothing was reserved before the authorization was stored
        refine hzero ((hbalances g hg).trans (Definitions.charged_eq_zero fun row hrow heq => ?_))
        obtain ⟨-, stored, hstored, hrowId⟩ := hs.known row hrow
        refine Table.find?_eq_none.mp hfree _ hstored ?_
        rw [← hnew]
        simp [digested, AssessmentRecord.key, hrowId, heq, hid]
    · exact hzero rfl

theorem reserved {root : AssessmentAuthorization} {limits : AssessmentLimits}
    {row : AssessmentGrant} (operation : OperationRow)
    (hroot : s.definitions.IsRoot contentDigest root)
    (hlimits : limits ≤ (s.definitions.termsInForce root).1)
    (hrow : s.grants.find? root.authorizationId = some row)
    (hfree : s.operations.find? operation.id = none) (hopen : operation.state = .reserved)
    (hgrant : operation.grantId = root.authorizationId)
    (hwithin : (AssessmentGrant.debit operation.reserved row).Within limits) :
    InOrder contentDigest { s with
      grants := s.grants.modify root.authorizationId (AssessmentGrant.debit operation.reserved)
      operations := s.operations.insert operation } := by
  have hmem := Table.mem_of_find? hrow
  have hrowId : row.id = root.authorizationId := Table.key_of_find? hrow
  refine ⟨hs.authority, ?_, ?_, ?_⟩
  · intro other hother
    have hkept : ∀ grantId, (∃ g ∈ s.grants, g.id = grantId) →
        ∃ g ∈ s.grants.modify root.authorizationId (AssessmentGrant.debit operation.reserved),
          g.id = grantId := by
      rintro grantId ⟨g, hg, rfl⟩
      refine ⟨_, Table.mem_modify.mpr ⟨g, hg, rfl⟩, ?_⟩
      split <;> rfl
    rcases (Table.mem_insert hfree).mp hother with hother | rfl
    · exact (hs.known other hother).imp_left (hkept _)
    · exact ⟨hkept _ ⟨row, hmem, hrowId.trans hgrant.symm⟩, root, hroot, hgrant.symm⟩
  · intro after hafter
    obtain ⟨g, hg, rfl⟩ := Table.mem_modify.mp hafter
    show _ = s.definitions.charged (s.operations.insert operation) _
    rw [Definitions.charged_insert hfree hopen, hgrant]
    split
    · next hown =>
      show g.totals + operation.reserved.amounts = s.definitions.charged s.operations g.id +
        if root.authorizationId = g.id then operation.reserved.amounts else 0
      rw [hs.balances g hg, if_pos hown.symm]
    · next hother => rw [if_neg (Ne.symm hother), add_zero, hs.balances g hg]
  · intro after hafter hrevoked other hstored hotherId
    obtain ⟨g, hg, rfl⟩ := Table.mem_modify.mp hafter
    by_cases hown : g.id = root.authorizationId
    · -- the debit was checked against limits that are at most those in force
      obtain rfl := Table.eq_of_key_eq hg hmem (hown.trans hrowId.symm)
      rw [if_pos hown] at hotherId ⊢
      obtain rfl := Definitions.root_eq hstored hroot (hotherId.trans hown)
      exact (AssessmentGrant.within_iff.mp hwithin).trans (AssessmentLimits.amounts_mono hlimits)
    · rw [if_neg hown] at hrevoked hotherId ⊢
      exact hs.within g hg hrevoked other hstored hotherId

theorem finished {row : OperationRow} {measured : AssessmentOperation} {elapsedSeconds : ℚ}
    {accounting : Option ResourceAccounting}
    (hrow : s.operations.find? row.id = some row) (hopen : row.state = .reserved)
    (hseconds : measured.elapsedSeconds = some elapsedSeconds)
    (haccounting : measured.accounting = accounting)
    (hfree : s.definitions.records.find? ("operation_measurement", row.id) = none)
    (hclash : ∀ other ∈ s.definitions.records, ¬ other.clash
      (digested contentDigest "operation_measurement" row.id (.operation measured))) :
    InOrder contentDigest { s with
      definitions := ⟨s.definitions.records.insert
        (digested contentDigest "operation_measurement" row.id (.operation measured)),
        s.definitions.reviews⟩
      grants := s.grants.modify row.grantId
        (AssessmentGrant.settle row.reserved elapsedSeconds accounting)
      operations := s.operations.modify row.id OperationRow.complete } := by
  set d' : Definitions := ⟨s.definitions.records.insert
    (digested contentDigest "operation_measurement" row.id (.operation measured)),
    s.definitions.reviews⟩ with hd'
  have hadds : s.definitions.Adds
      (digested contentDigest "operation_measurement" row.id (.operation measured)) d' :=
    .inr ⟨hfree, hclash, rfl⟩
  have hroot : (digested contentDigest "operation_measurement" row.id
      (.operation measured)).kind ≠ "authorization" := by simp [digested]
  have hbudget : (digested contentDigest "operation_measurement" row.id
      (.operation measured)).kind ≠ "budget_amendment" := by simp [digested]
  have hmeasured : ∀ operationId, d'.measurement? operationId =
      if operationId = row.id then some measured else s.definitions.measurement? operationId := by
    intro operationId
    unfold Definitions.measurement?
    rw [hd', Table.find?_insert hfree]
    by_cases hid : operationId = row.id <;> simp [hid, digested, AssessmentRecord.key]
  have hcharged := Definitions.charged_complete hrow hopen hmeasured
  -- the reserved seconds are part of what the grant is charged
  have hreserved : ∀ g ∈ s.grants, g.id = row.grantId →
      row.reserved.maxElapsedSeconds ≤ g.elapsedSeconds := by
    intro g hg hown
    have hle := Definitions.charge_le_charged (d := s.definitions) (Table.mem_of_find? hrow)
    rw [← hown, ← hs.balances g hg] at hle
    unfold OperationRow.charge at hle
    rw [hopen] at hle
    exact hle.2.2.1
  refine ⟨hs.authority.adds hadds (by decide) (by simp), ?_, ?_, ?_⟩
  · intro after hafter
    obtain ⟨other, hother, rfl⟩ := Table.mem_modify.mp hafter
    obtain ⟨⟨g, hg, hgid⟩, root, hstored, hid⟩ := hs.known other hother
    have hsame : (if other.id = row.id then OperationRow.complete other else other).grantId =
        other.grantId := by split <;> rfl
    rw [hsame]
    refine ⟨⟨_, Table.mem_modify.mpr ⟨g, hg, rfl⟩, ?_⟩, root, hadds.isRoot hstored, hid⟩
    split
    · exact (AssessmentGrant.settle row.reserved elapsedSeconds accounting).keeps g |>.trans hgid
    · exact hgid
  · intro after hafter
    obtain ⟨g, hg, rfl⟩ := Table.mem_modify.mp hafter
    show _ = d'.charged (s.operations.modify row.id OperationRow.complete) _
    by_cases hown : g.id = row.grantId
    · rw [if_pos hown]
      have htotals := AssessmentGrant.settle_totals hseconds haccounting (hreserved g hg hown)
      have hmove := hcharged g.id
      rw [if_pos hown.symm, if_pos hown.symm, ← hs.balances g hg] at hmove
      rw [(AssessmentGrant.settle row.reserved elapsedSeconds accounting).keeps g]
      exact add_right_cancel (htotals.trans hmove.symm)
    · rw [if_neg hown]
      have hmove := hcharged g.id
      rw [if_neg (Ne.symm hown), if_neg (Ne.symm hown), add_zero, add_zero] at hmove
      rw [hmove, hs.balances g hg]
  · intro after hafter hrevoked root hstored hid
    obtain ⟨g, hg, rfl⟩ := Table.mem_modify.mp hafter
    show _ ≤ (d'.termsInForce root).1.amounts
    rw [hadds.termsInForce hbudget]
    have hbefore := hadds.isRoot_of_kind_ne hroot hstored
    by_cases hown : g.id = row.grantId
    · rw [if_pos hown] at hrevoked hid ⊢
      rw [(AssessmentGrant.settle row.reserved elapsedSeconds accounting).keeps g] at hid
      have h0 : 0 ≤ g.elapsedSeconds := row.reserved.elapsed.1.le.trans (hreserved g hg hown)
      obtain ⟨hunrevoked, hle⟩ := AssessmentGrant.settle_unrevoked h0 hrevoked
      exact hle.trans (hs.within g hg hunrevoked root hbefore hid)
    · rw [if_neg hown] at hrevoked hid ⊢
      exact hs.within g hg hrevoked root hbefore hid

theorem revoked (authorizationId : String) :
    InOrder contentDigest
      { s with grants := s.grants.modify authorizationId AssessmentGrant.revoke } := by
  refine ⟨hs.authority, ?_, ?_, ?_⟩
  · intro row hrow
    obtain ⟨⟨g, hg, hgid⟩, hroot⟩ := hs.known row hrow
    refine ⟨⟨_, Table.mem_modify.mpr ⟨g, hg, rfl⟩, ?_⟩, hroot⟩
    split <;> exact hgid
  · intro after hafter
    obtain ⟨g, hg, rfl⟩ := Table.mem_modify.mp hafter
    have hsame := hs.balances g hg
    split <;> exact hsame
  · intro after hafter hrevoked root hstored hid
    obtain ⟨g, hg, rfl⟩ := Table.mem_modify.mp hafter
    by_cases hown : g.id = authorizationId
    · rw [if_pos hown] at hrevoked
      cases hrevoked
    · rw [if_neg hown] at hrevoked hid ⊢
      exact hs.within g hg hrevoked root hstored hid

end AssessmentStore.InOrder

/-- Every write keeps the repository in order. -/
theorem AssessmentChange.inOrder (h : AssessmentChange fetch contentDigest s s')
    (hs : s.InOrder contentDigest) : s'.InOrder contentDigest := by
  cases h with
  | defined kind id value d jobs hkind hadds =>
    have hroot : kind ≠ "authorization" := by
      rintro rfl
      simp [authorityKinds] at hkind
    have hbudget : kind ≠ "budget_amendment" := by
      rintro rfl
      simp [authorityKinds] at hkind
    have hmeasured : kind ≠ "operation_measurement" := by
      rintro rfl
      simp [authorityKinds] at hkind
    exact hs.defined hadds (hs.authority.adds hadds hbudget fun h => absurd h hroot) hroot hmeasured
      jobs
  | granted root d hadds => exact hs.granted hadds
  | budgeted amendment root effective d hget hid hdigest hprevious heffective hterms hadds =>
    exact hs.defined hadds (hs.authority.budgeted hget hid hdigest hprevious heffective hterms hadds)
      (by simp [digested]) (by simp [digested]) s.jobs
  | reserved authorizationId grant row operation d heffective hrow hrevoked hfree hwithin hadds =>
    obtain ⟨root, hroot, hid, hterms⟩ := hs.authority.effective_le heffective
    have hstarted : (digested contentDigest "operation_start" operation.operationId
        (.operation operation)).kind ≠ "budget_amendment" := by simp [digested]
    have hdefined := hs.defined hadds (hs.authority.adds hadds (by decide) (by simp))
      (by simp [digested]) (by simp [digested]) s.jobs
    rw [hid] at hrow ⊢
    have hlimits : grant.limits ≤ (d.termsInForce root).1 := by
      rw [hadds.termsInForce hstarted]
      exact hterms.1
    exact hdefined.reserved
      ⟨operation.operationId, root.authorizationId, .reserved, operation.reserved⟩
      (hadds.isRoot hroot) hlimits hrow hfree rfl rfl hwithin
  | finished row measured elapsedSeconds accounting hrow hopen hseconds haccounting hfree hclash =>
    exact hs.finished hrow hopen hseconds haccounting hfree hclash
  | revoked authorizationId => exact hs.revoked authorizationId

/-- Every call keeps the repository in order. -/
theorem AssessmentStore.InOrder.apply (hs : s.InOrder contentDigest) {op : AssessmentOp}
    (hnamed : op.NamesRoot fetch s) :
    (s.apply fetch contentDigest op).InOrder contentDigest := by
  refine commit_induction (P := fun t : AssessmentStore => t.InOrder contentDigest) hs fun u s' h => ?_
  have hchanges := AssessmentOp.exec_changes hnamed hs.authority.named h
  clear h
  induction hchanges with
  | refl => exact hs
  | tail _ hchange ih => exact hchange.inOrder ih

end InOrder

/-! ## Revocation -/

section Revocation

variable {fetch : Fetch} {contentDigest : AssessmentValue → String} {s s' : AssessmentStore}
  {grantId : String}

def AssessmentStore.Revoked (s : AssessmentStore) (grantId : String) : Prop :=
  ∃ g ∈ s.grants, g.id = grantId ∧ g.revoked = true

theorem AssessmentStore.Revoked.modify {k : String} {f : Table.Rewrite (α := AssessmentGrant) (·.id)}
    (hs : s.Revoked grantId) (hf : ∀ g : AssessmentGrant, g.revoked = true → (f g).revoked = true) :
    ∃ g ∈ s.grants.modify k f, g.id = grantId ∧ g.revoked = true := by
  obtain ⟨g, hg, hid, hrevoked⟩ := hs
  refine ⟨_, Table.mem_modify.mpr ⟨g, hg, rfl⟩, ?_⟩
  split
  · exact ⟨(f.keeps g).trans hid, hf g hrevoked⟩
  · exact ⟨hid, hrevoked⟩

theorem AssessmentGrant.settle_revoked {reserved : AssessmentLimits} {elapsedSeconds : ℚ}
    {accounting : Option ResourceAccounting} {g : AssessmentGrant} (h : g.revoked = true) :
    (AssessmentGrant.settle reserved elapsedSeconds accounting g).revoked = true := by
  show ((g.settleCash reserved accounting).revoked || _) = true
  cases hcash : (g.settleCash reserved accounting).revoked with
  | true => rfl
  | false =>
    rw [settleCash_eq hcash, h] at hcash
    cases hcash

/-- No write clears a revocation. -/
theorem AssessmentChange.revoked_stays (h : AssessmentChange fetch contentDigest s s')
    (hs : s.Revoked grantId) : s'.Revoked grantId := by
  cases h with
  | defined => exact hs
  | budgeted => exact hs
  | granted root d hadds =>
    obtain ⟨g, hg, hrevoked⟩ := hs
    exact ⟨g, Table.mem_insert_of_mem hg, hrevoked⟩
  | reserved => exact hs.modify fun g hg => hg
  | finished => exact hs.modify fun g hg => AssessmentGrant.settle_revoked hg
  | revoked authorizationId => exact hs.modify fun g _ => rfl

theorem AssessmentStore.Revoked.apply (hs : s.Revoked grantId) {op : AssessmentOp}
    (horder : s.InOrder contentDigest) (hnamed : op.NamesRoot fetch s) :
    (s.apply fetch contentDigest op).Revoked grantId := by
  refine commit_induction (P := fun t : AssessmentStore => t.Revoked grantId) hs fun u s' h => ?_
  have hchanges := AssessmentOp.exec_changes hnamed horder.authority.named h
  clear h
  induction hchanges with
  | refl => exact hs
  | tail _ hchange ih => exact hchange.revoked_stays ih

theorem reserve_unrevoked {plan : AssessmentRequest} {operationId : String}
    {limits : AssessmentLimits} {stage : String} {now : Int} {u : Unit} {row : OperationRow}
    (h : reserve fetch contentDigest plan operationId limits stage now s = .ok (u, s'))
    (hrow : s'.operations.find? operationId = some row) : ¬ s.Revoked row.grantId := by
  simp only [reserve, authorize, currentGrant, bind_ok, raiseIf_ok, require_ok, exists_const,
    pure_ok, Prod.mk.injEq, true_and, not_or, not_not] at h
  obtain ⟨grant, ⟨grant, ⟨grant, -, ⟨hunrevoked, -⟩, rfl⟩, -, -, rfl⟩, -, hfree, g, hg, -, d, -,
    rfl⟩ := h
  rw [Option.not_isSome_iff_eq_none] at hfree
  have hself := Table.find?_insert_self (t := s.operations)
    (x := ⟨operationId, grant.authorizationId, .reserved, limits⟩) hfree
  obtain rfl := Option.some.inj (hrow.symm.trans hself)
  obtain ⟨g', hg', hrevoked⟩ := AssessmentStore.unrevoked_iff.mp hunrevoked
  rintro ⟨other, hother, hid, htrue⟩
  obtain rfl := Table.eq_of_key_eq hother (Table.mem_of_find? hg')
    (hid.trans (Table.key_of_find? hg').symm)
  rw [htrue] at hrevoked
  cases hrevoked

end Revocation

/-! ## The repository over its runs -/

section Runs

/-- In every run whose budget amendments name their authorization by its id, totals are what the
operations are charged, unrevoked grants are within their effective limits, the amendments of an
authorization are one lineage, and a revocation is final. -/
theorem assessment_budget_kept (fetch : Fetch) (contentDigest : AssessmentValue → String)
    (ops : List AssessmentOp)
    (hnamed : Admissible (AssessmentStore.apply fetch contentDigest)
      (fun s op => op.NamesRoot fetch s) .empty ops) :
    let s := run (AssessmentStore.apply fetch contentDigest) .empty ops
    (∀ g ∈ s.grants, g.revoked = false → ∀ grant,
      effectiveGrant fetch contentDigest s.definitions g.id = .ok grant →
        grant.authorizationId = g.id → g.Within grant.limits) ∧
      (∀ g ∈ s.grants, g.totals = s.definitions.charged s.operations g.id) ∧
      (∀ root, s.definitions.IsRoot contentDigest root →
        BudgetLineage root (s.definitions.budgets root.authorizationId)) ∧
      ∀ before after, ops = before ++ after → ∀ grantId,
        (run (AssessmentStore.apply fetch contentDigest) .empty before).Revoked grantId →
          s.Revoked grantId ∧ ∀ plan operationId limits stage now s',
            reserve fetch contentDigest plan operationId limits stage now s = .ok ((), s') →
              ∀ row ∈ s'.operations.find? operationId, row.grantId ≠ grantId := by
  have horder : ∀ is, Admissible (AssessmentStore.apply fetch contentDigest)
      (fun s op => op.NamesRoot fetch s) .empty is →
        (run (AssessmentStore.apply fetch contentDigest) .empty is).InOrder contentDigest :=
    fun is his => run_invariant_of_admissible (fun _ _ hs hop => hs.apply hop)
      AssessmentStore.inOrder_empty his
  have hs := horder ops hnamed
  refine ⟨fun g hg hrevoked grant heffective hid => ?_, hs.balances, hs.authority.lineage, ?_⟩
  · obtain ⟨root, hroot, hrootId, hterms⟩ := hs.authority.effective_eq heffective hid
    have hwithin := hs.within g hg hrevoked root hroot hrootId
    rw [← hterms] at hwithin
    exact hwithin
  · rintro before after rfl grantId hrevoked
    obtain ⟨hbefore, hafter⟩ := admissible_append.mp hnamed
    have hstill : (run (AssessmentStore.apply fetch contentDigest) .empty
        (before ++ after)).Revoked grantId := by
      rw [run_append]
      have hboth := @run_invariant_of_admissible _ _ (AssessmentStore.apply fetch contentDigest) _
        (fun s : AssessmentStore => s.InOrder contentDigest ∧ s.Revoked grantId)
        (fun _ _ hs hop => ⟨hs.1.apply hop, hs.2.apply hs.1 hop⟩) _ _
        ⟨horder before hbefore, hrevoked⟩ hafter
      exact hboth.2
    refine ⟨hstill, fun plan operationId limits stage now s' hreserve row hrow heq => ?_⟩
    exact reserve_unrevoked hreserve hrow (heq ▸ hstill)

/-- Digests that tell the definitions of the example apart. -/
def namedDigest : AssessmentValue → String
  | .taskScope scope => "scope:" ++ scope.scopeId
  | .authorization root => "authorization:" ++ root.authorizationId
  | .scopeAmendment amendment => "widened:" ++ amendment.amendmentId
  | .budgetAmendment amendment => "budget:" ++ amendment.amendmentId
  | .operation operation =>
    (if operation.elapsedSeconds.isSome then "measured:" else "started:") ++ operation.operationId
  | .other json => json

/-- So many operations of ten seconds each. -/
def operationLimits (operations : ℕ) (h : 1 ≤ operations ∧ operations ≤ 100) : AssessmentLimits where
  maxOperations := operations
  maxModelTurns := 0
  maxElapsedSeconds := 10 * operations
  maxCashUsd := 0
  operations := ⟨h.1, h.2.trans (by norm_num)⟩
  turns := by norm_num
  elapsed := by
    have h1 : (1 : ℚ) ≤ operations := by exact_mod_cast h.1
    have h2 : (operations : ℚ) ≤ 100 := by exact_mod_cast h.2
    constructor <;> linarith
  cash := le_rfl

/-- One operation may be run. -/
def oneOperation : AssessmentAuthorization where
  authorizationId := "grant"
  subjectDigests := ["subject"]
  recipeDigests := ["recipe"]
  environmentDigests := ["environment"]
  limits := operationLimits 1 (by norm_num)
  issuedAt := 0
  expiresAt := 1000
  rest := ""
  validExpiry := by norm_num

def twoOperations (authorizationId : String) : AssessmentBudgetAmendment where
  amendmentId := "amendment"
  authorizationId := authorizationId
  authorizationDigest := "authorization:grant"
  previousAmendmentDigest := none
  limits := operationLimits 2 (by norm_num)
  expiresAt := 1000
  issuedAt := 0
  validExpiry := by norm_num

def sampleRequest (authorizationId : String) : AssessmentRequest where
  planId := "plan"
  subjectDigest := "subject"
  recipeDigest := "recipe"
  mappingDigest := "mapping"
  environmentDigest := "environment"
  authorizationId := authorizationId
  definitionDigests := []

def amendedUnder (name : String) : List AssessmentOp :=
  [.put ⟨"subject", by decide⟩ "subject" (.other "subject"),
    .put ⟨"recipe", by decide⟩ "recipe" (.other "recipe"),
    .put ⟨"mapping", by decide⟩ "mapping" (.other "mapping"),
    .put ⟨"environment", by decide⟩ "environment" (.other "environment"),
    .approveBundle (.authorization oneOperation) [("subject", .other "subject"),
      ("recipe", .other "recipe"), ("mapping", .other "mapping"),
      ("environment", .other "environment")] none 0,
    .approveBudgetAmendment (twoOperations name) 0,
    .reserve (sampleRequest name) "operation" (operationLimits 2 (by norm_num)) "operation" 0]

theorem assessment_budget_kept_of_two :
    let s := run (AssessmentStore.apply Fetch.first namedDigest) .empty
      (amendedUnder "grant" ++ [.finishOperation "operation" 7 none none, .revoke "grant"])
    ∀ g ∈ s.grants, g.totals = s.definitions.charged s.operations g.id :=
  (assessment_budget_kept Fetch.first namedDigest _ (by decide +kernel)).2.1

/-- An amendment approved under the digest of its authorization escapes the lineage of its id, and
what is reserved under the digest exceeds the effective limits. -/
theorem digest_escapes_limits :
    let s := run (AssessmentStore.apply Fetch.first namedDigest) .empty
      (amendedUnder "authorization:grant")
    (s.grants.find? "grant").map (fun g => (g.revoked, g.operations)) = some (false, 2) ∧
      (effectiveGrant Fetch.first namedDigest s.definitions "grant").map
        (fun grant => (grant.authorizationId, grant.limits.maxOperations)) = .ok ("grant", 1) := by
  decide +kernel

end Runs

end AeepRouter

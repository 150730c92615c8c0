import AeepRouter.Assessment.Records

/-!
# The assessment repository

An authorization is granted with limits, which budget amendments raise (`effectiveGrant`); `reserve`
debits an operation to the row of its grant and `finishOperation` settles it. A query that orders
nothing returns any of its rows (`Fetch`). Amounts and times are exact.
-/

namespace AeepRouter

open Lib

/-! ## Tables -/

/-- A row of `assessment_grants`. -/
structure AssessmentGrant where
  id : String
  revoked : Bool
  operations : ℕ
  modelTurns : ℕ
  elapsedSeconds : ℚ
  cashUsd : ℚ
  deriving DecidableEq

inductive OperationState where
  | reserved
  | complete
  deriving DecidableEq, Repr

structure OperationRow where
  id : String
  grantId : String
  state : OperationState
  reserved : AssessmentLimits
  deriving DecidableEq

inductive JobState where
  | queued
  | running
  | cancelled
  | indeterminate
  | complete
  deriving DecidableEq, Repr

/-- A row of `assessment_jobs`. -/
structure AssessmentJob where
  id : String
  planId : String
  state : JobState
  deriving DecidableEq

structure AssessmentStore where
  definitions : Definitions
  grants : Table AssessmentGrant (·.id)
  operations : Table OperationRow (·.id)
  /-- In the order of their row ids. -/
  jobs : List AssessmentJob

def AssessmentStore.empty : AssessmentStore := ⟨.empty, ∅, ∅, []⟩

abbrev AssessmentM (α : Type) := AssessmentStore → Result (α × AssessmentStore)

/-- What `fetchone` returns of the rows of a query. -/
structure Fetch where
  one : List AssessmentRecord → Option AssessmentRecord
  mem : ∀ rows record, one rows = some record → record ∈ rows
  isSome : ∀ rows, rows ≠ [] → (one rows).isSome

def Fetch.first : Fetch where
  one := List.head?
  mem _ _ h := List.mem_of_head? h
  isSome rows h := by
    cases rows with
    | nil => exact absurd rfl h
    | cons record rows => rfl

/-! ## Definitions -/

/-- `sorted(set(a) | set(b))`. -/
def sortedUnion (a b : List String) : List String := (a ++ b).dedup.insertionSort (· ≤ ·)

namespace AssessmentValue

/-- `AssessmentAuthorization.model_validate`. -/
def asAuthorization : AssessmentValue → Result AssessmentAuthorization
  | authorization grant => pure grant
  | _ => .error (.value "validation error for AssessmentAuthorization")

/-- `AssessmentOperation.model_validate`. -/
def asOperation : AssessmentValue → Result AssessmentOperation
  | operation op => pure op
  | _ => .error (.value "validation error for AssessmentOperation")

end AssessmentValue

namespace AssessmentAuthorization

def widen (grant : AssessmentAuthorization) (amendment : AssessmentScopeAmendment) :
    AssessmentAuthorization :=
  { grant with
    subjectDigests := sortedUnion grant.subjectDigests amendment.subjectDigests
    recipeDigests := sortedUnion grant.recipeDigests amendment.recipeDigests
    environmentDigests := sortedUnion grant.environmentDigests amendment.environmentDigests }

/-- The grant with the ceilings of an amendment; an assignment validates the model again. -/
def raise (grant : AssessmentAuthorization) (budget : AssessmentBudgetAmendment) :
    Result AssessmentAuthorization :=
  if h : grant.issuedAt < budget.expiresAt then
    pure { grant with limits := budget.limits, expiresAt := budget.expiresAt, validExpiry := h }
  else .error (.value "authorization expiry must follow issuance")

end AssessmentAuthorization

namespace Definitions

/-- `AssessmentRepository.get`. -/
def get (fetch : Fetch) (kind identity : String) (d : Definitions) : Result AssessmentValue := do
  let record ← demand (fetch.one (d.records.rows.filter fun record =>
    record.kind = kind ∧ (record.id = identity ∨ record.digest = identity)))
    ("unknown assessment " ++ kind)
  pure record.value

def scopeAmendments (d : Definitions) (authorizationId : String) : List AssessmentScopeAmendment :=
  (d.records.rows.insertionSort (·.id ≤ ·.id)).filterMap fun record =>
    match record.value with
    | .scopeAmendment amendment =>
      if record.kind = "scope_amendment" ∧ amendment.authorizationId = authorizationId then
        some amendment
      else none
    | _ => none

def budgetOf (authorizationId : String) (record : AssessmentRecord) :
    Option (String × AssessmentBudgetAmendment) :=
  match record.value with
  | .budgetAmendment amendment =>
    if record.kind = "budget_amendment" ∧ amendment.authorizationId = authorizationId then
      some (record.digest, amendment)
    else none
  | _ => none

def budgets (d : Definitions) (authorizationId : String) :
    List (String × AssessmentBudgetAmendment) :=
  d.records.rows.filterMap (budgetOf authorizationId)

def insertNew (d : Definitions) (record : AssessmentRecord) : Result Definitions := do
  raiseIf ((d.records.find? record.key).isSome ∨ ∃ other ∈ d.records.rows, other.clash record)
    .integrity
  pure { d with records := d.records.insert record }

end Definitions

section Repository

variable (fetch : Fetch) (contentDigest : AssessmentValue → String)

/-- One step of the loop over the scope amendments. -/
def addScope (rootDigest : String) (grant : AssessmentAuthorization)
    (amendment : AssessmentScopeAmendment) : Result AssessmentAuthorization := do
  refuseIf (amendment.authorizationDigest ≠ rootDigest) "amendment root authorization changed"
  pure (grant.widen amendment)

/-- One step of the loop over the budget amendments, which carries the digest of the last one. -/
def addBudget (rootDigest : String) (state : AssessmentAuthorization × Option String)
    (budget : AssessmentBudgetAmendment) : Result (AssessmentAuthorization × Option String) := do
  refuseIf (budget.authorizationDigest ≠ rootDigest ∨ budget.previousAmendmentDigest ≠ state.2)
    "budget amendment lineage changed"
  let grant ← state.1.raise budget
  pure (grant, some (contentDigest (.budgetAmendment budget)))

def effectiveGrant (d : Definitions) (authorizationId : String) :
    Result AssessmentAuthorization := do
  let root ← (← d.get fetch "authorization" authorizationId).asAuthorization
  let rootDigest := contentDigest (.authorization root)
  let widened ← (d.scopeAmendments authorizationId).foldlM (addScope rootDigest) root
  let amended ← ((d.budgets authorizationId).map (·.2)).foldlM (addBudget contentDigest rootDigest)
    (widened, none)
  pure amended.1

def AssessmentStore.unrevoked (s : AssessmentStore) (authorizationId : String) : Bool :=
  (s.grants.find? authorizationId).any (!·.revoked)

/-- `INSERT OR IGNORE INTO assessment_grants(id)`. -/
def AssessmentStore.addGrant (s : AssessmentStore) (authorizationId : String) : AssessmentStore :=
  { s with grants := s.grants.insert ⟨authorizationId, false, 0, 0, 0, 0⟩ }

def grant (grant : AssessmentAuthorization) : AssessmentM Unit := fun s => do
  let (_, definitions) ← s.definitions.put contentDigest "authorization" grant.authorizationId
    (.authorization grant)
  pure ((), { s with definitions := definitions }.addGrant grant.authorizationId)

/-! ## Amendments -/

def approveBudgetAmendment (amendment : AssessmentBudgetAmendment) (now : Int) :
    AssessmentM Unit := fun s => do
  let root ← (← s.definitions.get fetch "authorization" amendment.authorizationId).asAuthorization
  refuseIf (¬ s.unrevoked root.authorizationId ∨
      contentDigest (.authorization root) ≠ amendment.authorizationDigest)
    "budget amendment requires its unrevoked root authorization"
  match s.definitions.records.find? ("budget_amendment", amendment.amendmentId) with
  | some existing =>
    refuseIf (existing.digest ≠ contentDigest (.budgetAmendment amendment))
      "budget amendment identity is immutable"
    pure ((), s)
  | none =>
    refuseIf (amendment.previousAmendmentDigest ≠
        (s.definitions.budgets root.authorizationId).getLast?.map (·.1))
      "budget amendment predecessor is stale"
    let effective ← effectiveGrant fetch contentDigest s.definitions root.authorizationId
    refuseIf (now < amendment.issuedAt ∨ amendment.expiresAt ≤ now ∨
        amendment.expiresAt < effective.expiresAt ∨ ¬ effective.limits ≤ amendment.limits)
      "budget amendment must preserve existing ceilings and expiry"
    let (_, definitions) ← s.definitions.put contentDigest "budget_amendment" amendment.amendmentId
      (.budgetAmendment amendment)
    pure ((), { s with definitions := definitions })

inductive BundleGrant where
  | authorization (grant : AssessmentAuthorization)
  | scopeAmendment (amendment : AssessmentScopeAmendment)
  deriving DecidableEq

namespace BundleGrant

def authorizationId : BundleGrant → String
  | authorization grant => grant.authorizationId
  | scopeAmendment amendment => amendment.authorizationId

def record : BundleGrant → AssessmentRecord
  | authorization grant =>
    ⟨"authorization", grant.authorizationId, contentDigest (.authorization grant),
      .authorization grant⟩
  | scopeAmendment amendment =>
    ⟨"scope_amendment", amendment.amendmentId, contentDigest (.scopeAmendment amendment),
      .scopeAmendment amendment⟩

/-- The definitions a bundle has to bring. -/
def required : BundleGrant → List String
  | authorization grant => grant.subjectDigests ++ grant.recipeDigests ++ grant.environmentDigests
  | scopeAmendment amendment =>
    amendment.subjectDigests ++ amendment.recipeDigests ++ amendment.environmentDigests ++
      amendment.reviewedDigests

def checkAuthority (s : AssessmentStore) (digests : List String) (now : Int) :
    BundleGrant → Result Unit
  | grant@(authorization _) =>
    refuseIf (¬ grant.required ⊆ digests) "authorization bundle omits a scoped definition"
  | grant@(scopeAmendment amendment) => do
    let original ←
      (← s.definitions.get fetch "authorization" amendment.authorizationId).asAuthorization
    let effective ← effectiveGrant fetch contentDigest s.definitions amendment.authorizationId
    refuseIf (¬ s.unrevoked amendment.authorizationId ∨
        ¬ (effective.issuedAt ≤ now ∧ now < effective.expiresAt) ∨
        contentDigest (.authorization original) ≠ amendment.authorizationDigest)
      "amendment requires its current unrevoked root authorization"
    refuseIf (¬ grant.required ⊆ digests)
      "amendment requires all scoped and reviewed definitions"

end BundleGrant

def Definitions.holds (d : Definitions) (digest : String) (definition : AssessmentValue) : Prop :=
  contentDigest definition = digest ∧
    ∃ record ∈ fetch.one (d.records.rows.filter (·.digest = digest)),
      contentDigest record.value = digest

instance (d : Definitions) (digest : String) (definition : AssessmentValue) :
    Decidable (d.holds fetch contentDigest digest definition) := by
  unfold Definitions.holds
  infer_instance

def AssessmentStore.storeBundle (s : AssessmentStore) (grant : BundleGrant) (digests : List String)
    (now : Int) : AssessmentStore :=
  let reviewed := digests.foldl (fun d digest => d.setReview ⟨digest, now, false⟩) s.definitions
  let stored := { s with definitions := reviewed.insertOrIgnore (grant.record contentDigest) }
  match grant with
  | .authorization grant => stored.addGrant grant.authorizationId
  | .scopeAmendment _ => stored

/-- The part of `approve_bundle` after the budget amendment. -/
def approveDefinitions (grant : BundleGrant) (definitions : List (String × AssessmentValue))
    (now : Int) : AssessmentM Unit := fun s => do
  refuseIf (∃ entry ∈ definitions, ¬ s.definitions.holds fetch contentDigest entry.1 entry.2)
    "review bundle definition is changed or unavailable"
  grant.checkAuthority fetch contentDigest s (definitions.map (·.1)) now
  let record := grant.record contentDigest
  refuseIf (∃ previous ∈ s.definitions.records.rows,
      previous.key = record.key ∧ previous.digest ≠ record.digest)
    "assessment authority identity is immutable"
  pure ((), s.storeBundle contentDigest grant (definitions.map (·.1)) now)

def approveBundle (grant : BundleGrant) (definitions : List (String × AssessmentValue))
    (budgetAmendment : Option AssessmentBudgetAmendment) (now : Int) : AssessmentM Unit :=
  match budgetAmendment with
  | none => approveDefinitions fetch contentDigest grant definitions now
  | some amendment => fun s => do
    refuseIf (amendment.authorizationId ≠ grant.authorizationId)
      "budget amendment must use the bundle's root authorization"
    let (_, amended) ← approveBudgetAmendment fetch contentDigest amendment now s
    approveDefinitions fetch contentDigest grant definitions now amended

/-! ## Operations -/

/-- The fields of a plan or of a request that an authorization covers. -/
structure AssessmentRequest where
  planId : String
  subjectDigest : String
  recipeDigest : String
  mappingDigest : String
  environmentDigest : String
  authorizationId : String
  definitionDigests : List String
  deriving DecidableEq

def AssessmentRequest.reviewed (plan : AssessmentRequest) : List String :=
  plan.definitionDigests ++ [plan.recipeDigest, plan.mappingDigest, plan.environmentDigest]

def currentGrant (s : AssessmentStore) (authorizationId : String) (now : Int) :
    Result AssessmentAuthorization := do
  let grant ← effectiveGrant fetch contentDigest s.definitions authorizationId
  refuseIf (¬ s.unrevoked grant.authorizationId ∨
      ¬ (grant.issuedAt ≤ now ∧ now < grant.expiresAt))
    "assessment authorization is absent, revoked or expired"
  pure grant

def authorize (s : AssessmentStore) (plan : AssessmentRequest) (now : Int) :
    Result AssessmentAuthorization := do
  let grant ← currentGrant fetch contentDigest s plan.authorizationId now
  refuseIf (plan.subjectDigest ∉ grant.subjectDigests ∨ plan.recipeDigest ∉ grant.recipeDigests ∨
      plan.environmentDigest ∉ grant.environmentDigests)
    "assessment exceeds authorization scope"
  refuseIf (∃ digest ∈ plan.reviewed, ¬ s.definitions.reviewed digest)
    "assessment definition requires current operator review"
  pure grant

def AssessmentStore.stopped (s : AssessmentStore) (planId : String) : Bool :=
  (s.jobs.filter (·.planId = planId)).getLast?.any (·.state ∈ [.cancelled, .indeterminate])

namespace AssessmentGrant

/-- The totals with the limits of an operation added. -/
def debit (limits : AssessmentLimits) : Table.Rewrite (α := AssessmentGrant) (·.id) where
  toFun grant :=
    { grant with
      operations := grant.operations + limits.maxOperations
      modelTurns := grant.modelTurns + limits.maxModelTurns
      elapsedSeconds := grant.elapsedSeconds + limits.maxElapsedSeconds
      cashUsd := grant.cashUsd + limits.maxCashUsd }
  keeps _ := rfl

/-- No total is above its limit. -/
def Within (grant : AssessmentGrant) (limits : AssessmentLimits) : Prop :=
  grant.operations ≤ limits.maxOperations ∧ grant.modelTurns ≤ limits.maxModelTurns ∧
    grant.elapsedSeconds ≤ limits.maxElapsedSeconds ∧ grant.cashUsd ≤ limits.maxCashUsd

instance (grant : AssessmentGrant) (limits : AssessmentLimits) : Decidable (grant.Within limits) := by
  unfold Within
  infer_instance

def revoke : Table.Rewrite (α := AssessmentGrant) (·.id) where
  toFun grant := { grant with revoked := true }
  keeps _ := rfl

/-- The cash of a measured operation against what was reserved for it. -/
def settleCash (reserved : AssessmentLimits) (accounting : Option ResourceAccounting)
    (grant : AssessmentGrant) : AssessmentGrant :=
  match accounting with
  | none => grant
  | some accounting =>
    match accounting.cash.actualCashCost "USD" with
    | some actual =>
      if reserved.maxCashUsd < actual then
        { grant with revoked := true, cashUsd := grant.cashUsd + actual - reserved.maxCashUsd }
      else grant
    | none => if 0 < reserved.maxCashUsd then { grant with revoked := true } else grant

/-- The time of a measured operation against what was reserved for it. -/
def settleTime (reserved : AssessmentLimits) (elapsedSeconds : ℚ) (grant : AssessmentGrant) :
    AssessmentGrant :=
  { grant with
    revoked := grant.revoked || decide (reserved.maxElapsedSeconds < elapsedSeconds)
    elapsedSeconds := max 0 (grant.elapsedSeconds - (reserved.maxElapsedSeconds - elapsedSeconds)) }

@[simp] theorem settleCash_id (reserved : AssessmentLimits) (accounting : Option ResourceAccounting)
    (grant : AssessmentGrant) : (grant.settleCash reserved accounting).id = grant.id := by
  unfold settleCash
  split
  · rfl
  · split <;> split <;> rfl

/-- The row of a grant after one of its operations was measured. -/
def settle (reserved : AssessmentLimits) (elapsedSeconds : ℚ)
    (accounting : Option ResourceAccounting) : Table.Rewrite (α := AssessmentGrant) (·.id) where
  toFun grant := (grant.settleCash reserved accounting).settleTime reserved elapsedSeconds
  keeps grant := settleCash_id reserved accounting grant

end AssessmentGrant

def OperationRow.complete : Table.Rewrite (α := OperationRow) (·.id) where
  toFun row := { row with state := .complete }
  keeps _ := rfl

def reserve (plan : AssessmentRequest) (operationId : String) (limits : AssessmentLimits)
    (stage : String) (now : Int) : AssessmentM Unit := fun s => do
  let grant ← authorize fetch contentDigest s plan now
  refuseIf (s.stopped plan.planId) "assessment stopped; no further operations permitted"
  refuseIf (s.operations.find? operationId).isSome
    "assessment operation already reserved; blind retry denied"
  -- `assert row is not None`
  let row ← require (s.grants.find? grant.authorizationId) .fault
  refuseIf (¬ (AssessmentGrant.debit limits row).Within grant.limits) "assessment budget exhausted"
  let operation : AssessmentOperation :=
    ⟨operationId, plan.planId, stage, limits, now, none, none, none, nofun⟩
  let definitions ← s.definitions.insertNew
    ⟨"operation_start", operationId, contentDigest (.operation operation), .operation operation⟩
  pure ((), { s with
    definitions := definitions
    grants := s.grants.modify grant.authorizationId (AssessmentGrant.debit limits)
    operations := s.operations.insert ⟨operationId, grant.authorizationId, .reserved, limits⟩ })

def AssessmentOperation.measure (started : AssessmentOperation) (elapsedSeconds : ℚ)
    (accounting : Option ResourceAccounting) (resources : Option String)
    (helapsed : 0 ≤ elapsedSeconds) : AssessmentOperation :=
  { started with
    elapsedSeconds := some elapsedSeconds
    accounting := accounting
    resources := resources
    elapsed _ h := Option.mem_some.mp h ▸ helapsed }

def finishOperation (operationId : String) (elapsedSeconds : ℚ)
    (accounting : Option ResourceAccounting) (resources : Option String) : AssessmentM Unit :=
  fun s =>
    if helapsed : 0 ≤ elapsedSeconds then do
      let row ← demand ((s.operations.find? operationId).filter (·.state = .reserved))
        "operation is absent or already terminal"
      let started ← (← s.definitions.get fetch "operation_start" operationId).asOperation
      let measured := started.measure elapsedSeconds accounting resources helapsed
      let definitions ← s.definitions.insertNew ⟨"operation_measurement", operationId,
        contentDigest (.operation measured), .operation measured⟩
      pure ((), { s with
        definitions := definitions
        grants := s.grants.modify row.grantId
          (AssessmentGrant.settle row.reserved elapsedSeconds accounting)
        operations := s.operations.modify operationId OperationRow.complete })
    else .error (.configuration "invalid operation measurement")

def revoke (authorizationId : String) : AssessmentM Unit := fun s =>
  pure ((), { s with grants := s.grants.modify authorizationId AssessmentGrant.revoke })

end Repository

end AeepRouter

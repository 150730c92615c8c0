import AeepRouter.Economic.Accounting

/-!
# Records of the assessment repository

`assessment_records` keeps immutable definitions by kind and id, at most one of a kind for a digest;
`assessment_reviews` keeps the operator's last word on a digest. The digest of a definition is that
of its canonical text, computed outside (`contentDigest`).
-/

namespace AeepRouter

open Lib

/-- `TaskScope`; `rest` is the text of the fields no transaction reads. -/
structure TaskScope where
  scopeId : String
  executorFingerprints : List (String × String)
  approvalCeiling : SideEffect
  maxAttempts : ℕ
  expiresAt : Int
  rest : String
  delegable : approvalCeiling.rank ≤ SideEffect.write.rank
  deriving DecidableEq

@[ext] structure AssessmentLimits where
  maxOperations : ℕ
  maxModelTurns : ℕ
  maxElapsedSeconds : ℚ
  maxCashUsd : ℚ
  operations : 1 ≤ maxOperations ∧ maxOperations ≤ 100000
  turns : maxModelTurns ≤ 10000
  elapsed : 0 < maxElapsedSeconds ∧ maxElapsedSeconds ≤ 604800
  cash : 0 ≤ maxCashUsd

instance : DecidableEq AssessmentLimits := fun _ _ =>
  decidable_of_iff _ AssessmentLimits.ext_iff.symm

/-- No field of the one is above that of the other. -/
instance : Preorder AssessmentLimits where
  le a b := a.maxOperations ≤ b.maxOperations ∧ a.maxModelTurns ≤ b.maxModelTurns ∧
    a.maxElapsedSeconds ≤ b.maxElapsedSeconds ∧ a.maxCashUsd ≤ b.maxCashUsd
  le_refl _ := ⟨le_rfl, le_rfl, le_rfl, le_rfl⟩
  le_trans _ _ _ hab hbc := ⟨hab.1.trans hbc.1, hab.2.1.trans hbc.2.1,
    hab.2.2.1.trans hbc.2.2.1, hab.2.2.2.trans hbc.2.2.2⟩

theorem AssessmentLimits.le_def {a b : AssessmentLimits} : a ≤ b ↔
    a.maxOperations ≤ b.maxOperations ∧ a.maxModelTurns ≤ b.maxModelTurns ∧
      a.maxElapsedSeconds ≤ b.maxElapsedSeconds ∧ a.maxCashUsd ≤ b.maxCashUsd := Iff.rfl

instance : DecidableLE AssessmentLimits := fun _ _ => decidable_of_iff _ AssessmentLimits.le_def.symm

/-- `AssessmentAuthorization`; `rest` is the text of the fields no transaction reads. -/
structure AssessmentAuthorization where
  authorizationId : String
  subjectDigests : List String
  recipeDigests : List String
  environmentDigests : List String
  limits : AssessmentLimits
  issuedAt : Int
  expiresAt : Int
  rest : String
  validExpiry : issuedAt < expiresAt
  deriving DecidableEq

structure AssessmentScopeAmendment where
  amendmentId : String
  authorizationId : String
  authorizationDigest : String
  subjectDigests : List String
  recipeDigests : List String
  environmentDigests : List String
  reviewedDigests : List String
  issuedAt : Int
  deriving DecidableEq

structure AssessmentBudgetAmendment where
  amendmentId : String
  authorizationId : String
  authorizationDigest : String
  previousAmendmentDigest : Option String
  limits : AssessmentLimits
  expiresAt : Int
  issuedAt : Int
  validExpiry : issuedAt < expiresAt
  deriving DecidableEq

/-- `ResourceAccounting`; `rest` is the text of the fields no transaction reads. -/
structure ResourceAccounting where
  cash : CashAccounting
  rest : String
  deriving DecidableEq

structure AssessmentOperation where
  operationId : String
  planId : String
  stage : String
  reserved : AssessmentLimits
  startedAt : Int
  elapsedSeconds : Option ℚ
  accounting : Option ResourceAccounting
  resources : Option String
  elapsed : ∀ seconds ∈ elapsedSeconds, 0 ≤ seconds
  deriving DecidableEq

/-- A definition a record holds. -/
inductive AssessmentValue where
  | taskScope (scope : TaskScope)
  | authorization (grant : AssessmentAuthorization)
  | scopeAmendment (amendment : AssessmentScopeAmendment)
  | budgetAmendment (amendment : AssessmentBudgetAmendment)
  | operation (operation : AssessmentOperation)
  /-- Any other model, as its text. -/
  | other (json : String)
  deriving DecidableEq

/-- A row of `assessment_records`. -/
structure AssessmentRecord where
  kind : String
  id : String
  digest : String
  value : AssessmentValue
  deriving DecidableEq

namespace AssessmentRecord

def key (record : AssessmentRecord) : String × String := (record.kind, record.id)

/-- The rows `UNIQUE(kind, digest)` forbids side by side. -/
def clash (a b : AssessmentRecord) : Prop := a.kind = b.kind ∧ a.digest = b.digest

instance : DecidableRel clash := fun _ _ => by unfold clash; infer_instance

end AssessmentRecord

/-- A row of `assessment_reviews`. -/
structure AssessmentReview where
  digest : String
  approvedAt : Int
  revoked : Bool
  deriving DecidableEq, Repr

structure Definitions where
  records : Table AssessmentRecord AssessmentRecord.key
  reviews : Table AssessmentReview (·.digest)

namespace Definitions

def empty : Definitions := ⟨∅, ∅⟩

variable (contentDigest : AssessmentValue → String)

def insertOrIgnore (d : Definitions) (record : AssessmentRecord) : Definitions :=
  if ∃ other ∈ d.records.rows, other.clash record then d
  else { d with records := d.records.insert record }

/-- `AssessmentRepository._put`. -/
def put (kind identity : String) (value : AssessmentValue) (d : Definitions) :
    Result (String × Definitions) := do
  let digest := contentDigest value
  refuseIf (∃ record ∈ d.records.rows, record.key = (kind, identity) ∧ record.digest ≠ digest)
    "assessment record identity is immutable"
  pure (digest, d.insertOrIgnore ⟨kind, identity, digest, value⟩)

theorem put_ok {contentDigest : AssessmentValue → String} {kind identity digest : String}
    {value : AssessmentValue} {d d' : Definitions}
    (h : d.put contentDigest kind identity value = .ok (digest, d')) :
    digest = contentDigest value ∧
      (∀ record ∈ d.records, record.key = (kind, identity) → record.digest = digest) ∧
      d' = d.insertOrIgnore ⟨kind, identity, digest, value⟩ := by
  simp only [put, bind_ok, raiseIf_ok, exists_const, pure_ok, Prod.mk.injEq, not_exists, not_and,
    not_not] at h
  obtain ⟨hsame, rfl, rfl⟩ := h
  exact ⟨rfl, fun record hrecord hkey => hsame record hrecord hkey, rfl⟩

/-- `ON CONFLICT(digest) DO UPDATE` of a review. -/
def setReview (d : Definitions) (review : AssessmentReview) : Definitions :=
  { d with reviews :=
      if (d.reviews.find? review.digest).isSome then
        d.reviews.modify review.digest ⟨fun row =>
          { row with approvedAt := review.approvedAt, revoked := review.revoked }, fun _ => rfl⟩
      else d.reviews.insert review }

/-- `AssessmentRepository.review`, at the instant the clock reads. -/
def review (digest : String) (revoke : Bool) (now : Int) (d : Definitions) : Result Definitions := do
  refuseIf (¬ ∃ record ∈ d.records.rows, record.digest = digest)
    "review requires a stored exact definition"
  pure (d.setReview ⟨digest, now, revoke⟩)

/-- Whether the last review of a digest approves it. -/
def reviewed (d : Definitions) (digest : String) : Bool :=
  (d.reviews.find? digest).any (!·.revoked)

def ofDigest? (d : Definitions) (kind digest : String) : Option AssessmentRecord :=
  d.records.rows.find? fun record => record.kind = kind ∧ record.digest = digest

def approved? (d : Definitions) (kind digest : String) : Option AssessmentRecord :=
  if d.reviewed digest then d.ofDigest? kind digest else none

end Definitions

end AeepRouter

import AeepRouter.Store.Records

/-!
# The tables of the store

One record for every table the payment operations read or write. `Evidence` groups the tables they
only read: quotes, offers, rate cards, signing keys, imported routes, execution receipts and usage
statements. A row keeps the immutable payload of its record beside the columns an operation updates.
-/

namespace AeepRouter

open Lib

/-! ## Rows -/

structure PreparedRow where
  payload : PreparedRouteDecision
  state : PreparedDecisionState
  claimToken : Option String
  claimedAt : Option Int
  deriving DecidableEq

namespace PreparedRow

def preparedId (row : PreparedRow) : String := row.payload.preparedId

def decision (row : PreparedRow) : PreparedRouteDecision := { row.payload with state := row.state }

end PreparedRow

inductive IntentType where
  | release
  | settle
  deriving DecidableEq, Repr

def IntentType.text : IntentType → String
  | release => "release"
  | settle => "settle"

/-- The column `operation_intent`, whose text is `type:key`. -/
structure OperationIntent where
  type : IntentType
  key : String
  deriving DecidableEq, Repr

structure PaymentRow where
  payload : PaymentReservationV2
  state : PaymentReservationState
  updatedAt : Int
  indeterminateReason : Option String
  operationIntent : Option OperationIntent
  deriving DecidableEq

namespace PaymentRow

def reservationId (row : PaymentRow) : String := row.payload.reservationId

def reservation (row : PaymentRow) : PaymentReservationV2 :=
  { row.payload with
    state := row.state
    updatedAt := row.updatedAt
    indeterminateReason := row.indeterminateReason }

/-- The row of a new reservation, as `_payment_indexed` spreads it. -/
def ofReservation (reservation : PaymentReservationV2) : PaymentRow where
  payload := reservation
  state := reservation.state
  updatedAt := reservation.updatedAt
  indeterminateReason := reservation.indeterminateReason
  operationIntent := none

/-- Two rows one of the unique columns forbids side by side, their ids apart. -/
def clash (a b : PaymentRow) : Prop :=
  a.payload.chargeId = b.payload.chargeId ∨ a.payload.preparedId = b.payload.preparedId ∨
    a.payload.idempotencyKey = b.payload.idempotencyKey ∨
    (a.payload.quoteId.isSome ∧ a.payload.quoteId = b.payload.quoteId)

instance : DecidableRel clash := fun _ _ => by unfold clash; infer_instance

end PaymentRow

inductive RefundAuthorizationState where
  | authorized
  | completed
  | indeterminate
  | released
  deriving DecidableEq, Repr

/-- A row of `refund_authorizations_v2`. -/
structure RefundAuthorizationRecord where
  refundId : String
  settlementId : String
  chargeId : String
  amount : CurrencyAmount
  idempotencyKey : String
  requestDigest : String
  state : RefundAuthorizationState
  authorizedAt : Int
  updatedAt : Int
  deriving DecidableEq

inductive IdempotencyState where
  | claimed
  | executing
  | indeterminate
  | complete
  deriving DecidableEq, Repr

/-- A row of `idempotency_records`. -/
structure IdempotencyRecord where
  idempotencyKey : String
  requestHash : String
  state : IdempotencyState
  decisionId : Option String
  status : Option String
  receiptIds : List String
  deriving DecidableEq, Repr

structure PreparedActionIdempotencyRecord where
  preparedId : String
  idempotencyKey : String
  actionDigest : String
  boundAt : Int
  deriving DecidableEq, Repr

/-! ## Evidence -/

/-- A row of `capability_offers`. -/
structure OfferRow where
  offer : SignedOffer
  status : String
  revokedAt : Option Int
  deriving DecidableEq

/-- A row of `route_candidates`. -/
structure CandidateRow where
  executorId : String
  status : String
  fingerprint : String
  deriving DecidableEq, Repr

/-- A row of `receipts`. -/
structure ExecutionReceipt where
  receiptId : String
  decisionId : String
  actionId : String
  executorId : String
  status : String
  metadata : List (String × JsonPrimitive)
  deriving DecidableEq

/-- `metadata.get(field) == text`. -/
def ExecutionReceipt.says (receipt : ExecutionReceipt) (field text : String) : Bool :=
  receipt.metadata.lookup field = some (.string text)

/-- `isinstance(metadata.get(field), str)` and the text is not empty. -/
def ExecutionReceipt.names (receipt : ExecutionReceipt) (field : String) : Bool :=
  match receipt.metadata.lookup field with
  | some (.string text) => text ≠ ""
  | _ => false

/-- `metadata.get(field) is None`. -/
def ExecutionReceipt.lacks (receipt : ExecutionReceipt) (field : String) : Bool :=
  (receipt.metadata.lookup field).getD .null = .null

/-- The columns of `usage_statements` a payment operation reads. -/
structure UsageRow where
  preparedId : String
  attemptId : String
  deriving DecidableEq, Repr

/-- The tables the payment operations read and never write. -/
structure Evidence where
  boundedQuotes : Table BoundedQuote (·.quoteId)
  capabilityOffers : Table OfferRow (·.offer.offerId)
  rateCardSnapshots : Table RateCardSnapshot (·.snapshotId)
  signingKeys : Table SigningKeyRow fun row => (row.payload.providerId, row.payload.keyId)
  routeCandidates : Table CandidateRow (·.executorId)
  receipts : Table ExecutionReceipt (·.receiptId)
  usageStatements : List UsageRow

/-! ## The store -/

structure Store where
  evidence : Evidence
  prepared : Table PreparedRow PreparedRow.preparedId
  transitions : Table PreparedRouteTransition (·.transitionId)
  reservations : Table PaymentRow PaymentRow.reservationId
  settlements : Table SettlementReceipt (·.settlementId)
  refunds : Table RefundReceiptV2 (·.refundId)
  refundAuthorizations : Table RefundAuthorizationRecord RefundAuthorizationRecord.refundId
  idempotency : Table IdempotencyRecord IdempotencyRecord.idempotencyKey
  actionBindings : Table PreparedActionIdempotencyRecord (·.preparedId)

def Evidence.empty : Evidence := ⟨∅, ∅, ∅, ∅, ∅, ∅, []⟩

/-- A store just created. -/
def Store.empty : Store := ⟨.empty, ∅, ∅, ∅, ∅, ∅, ∅, ∅, ∅⟩

/-- A store operation: an error, which rolls its transaction back, or a result and the next store. -/
abbrev StoreM (α : Type) := Store → Result (α × Store)

/-! ## Immutable insertion -/

section ImmutableInsert

variable {α κ β : Type} {key : α → κ} [DecidableEq κ] [DecidableEq β]

/-- `_immutable_insert_locked`: a row whose identity is taken must carry the same payload, and no
other unique column may be taken. -/
def immutableInsert (name : String) (payload : α → β) (clash : α → α → Prop) [DecidableRel clash]
    (t : Table α key) (x : α) : Result (Table α key) :=
  match t.find? (key x) with
  | some y =>
    if payload y = payload x then .ok t
    else .error (.configuration
      ("immutable " ++ name ++ " identity was reused with different content"))
  | none =>
    if ∃ y ∈ t.rows, clash y x then
      .error (.configuration ("immutable " ++ name ++ " identity conflicts with existing data"))
    else .ok (t.insert x)

theorem immutableInsert_ok {name : String} {payload : α → β} {clash : α → α → Prop}
    [DecidableRel clash] {t t' : Table α key} {x : α} :
    immutableInsert name payload clash t x = .ok t' ↔
      (t' = t ∧ ∃ y, t.find? (key x) = some y ∧ payload y = payload x) ∨
      (t' = t.insert x ∧ t.find? (key x) = none ∧ ∀ y ∈ t, ¬ clash y x) := by
  unfold immutableInsert
  cases h : t.find? (key x) with
  | some y =>
    by_cases hp : payload y = payload x
    · simp [hp, eq_comm]
    · simp [hp]
  | none =>
    by_cases hc : ∃ y ∈ t.rows, clash y x
    · simp only [if_pos hc]
      constructor
      · intro hr
        cases hr
      · rintro (⟨-, y, hy, -⟩ | ⟨-, -, hno⟩)
        · cases hy
        · obtain ⟨y, hy, hcl⟩ := hc
          exact absurd hcl (hno y hy)
    · simp only [if_neg hc]
      constructor
      · intro hr
        cases hr
        exact .inr ⟨rfl, trivial, fun y hy hcl => hc ⟨y, hy, hcl⟩⟩
      · rintro (⟨-, y, hy, -⟩ | ⟨rfl, -, -⟩)
        · cases hy
        · rfl

end ImmutableInsert

end AeepRouter

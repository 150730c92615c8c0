import AeepRouter.Economic.Accounting
import AeepRouter.Economic.Trust

/-!
# Records of the payment protocol

The economic records the store keeps, as their validators leave them. A record is bound to an
authorization basis, from which the ids it may carry follow; `rest` stands for the serialized
fields no operation reads, so that two records are equal when their canonical texts are.
-/

namespace AeepRouter

open Lib

inductive AuthorizationKind where
  | signedQuote
  | publishedOffer
  | pinnedRateCard
  deriving DecidableEq, Repr

/-- What a cash authorization rests on: its kind and the id of the record. -/
structure AuthorizationBasis where
  kind : AuthorizationKind
  id : String
  deriving DecidableEq, Repr

def AuthorizationBasis.idOf (basis : AuthorizationBasis) (kind : AuthorizationKind) :
    Option String :=
  if basis.kind = kind then some basis.id else none

/-! ## Prepared decisions -/

inductive PreparedDecisionState where
  | prepared
  | reserved
  | invoking
  | awaitingUsage
  | settling
  | settled
  | released
  | indeterminate
  | disputed
  | expired
  | cancelled
  deriving DecidableEq, Repr

/-- The value of the enumeration member. -/
def PreparedDecisionState.text : PreparedDecisionState → String
  | prepared => "PREPARED"
  | reserved => "RESERVED"
  | invoking => "INVOKING"
  | awaitingUsage => "AWAITING_USAGE"
  | settling => "SETTLING"
  | settled => "SETTLED"
  | released => "RELEASED"
  | indeterminate => "INDETERMINATE"
  | disputed => "DISPUTED"
  | expired => "EXPIRED"
  | cancelled => "CANCELLED"

def PreparedDecisionState.transitions : PreparedDecisionState → List PreparedDecisionState
  | prepared => [reserved, invoking, expired, cancelled]
  | reserved => [invoking, released, cancelled, indeterminate]
  | invoking => [awaitingUsage, settling, indeterminate, disputed]
  | awaitingUsage => [settling, indeterminate, disputed]
  | settling => [settled, indeterminate, disputed]
  | indeterminate => [settling, settled, disputed]
  | disputed => [settled]
  | settled | released | expired | cancelled => []

structure PreparedRouteDecision where
  preparedId : String
  actionId : String
  actionDigest : String
  effectivePolicyDigest : String
  selectedExecutorId : Option String
  selectedExecutorFingerprint : Option String
  basis : Option AuthorizationBasis
  authorizationMeterQuantities : List AuthorizationMeterQuantity
  disclosedQuoteFeatures : List (String × JsonPrimitive)
  expectedCash : CashAccounting
  maximumCashAuthorization : Option CurrencyAmount
  state : PreparedDecisionState
  expiresAt : Int
  rest : String
  deriving DecidableEq

namespace PreparedRouteDecision

def selectedQuoteId (decision : PreparedRouteDecision) : Option String :=
  decision.basis.bind (·.idOf .signedQuote)

def selectedOfferId (decision : PreparedRouteDecision) : Option String :=
  decision.basis.bind (·.idOf .publishedOffer)

def selectedRateCardId (decision : PreparedRouteDecision) : Option String :=
  decision.basis.bind (·.idOf .pinnedRateCard)

end PreparedRouteDecision

structure PreparedRouteTransition where
  transitionId : String
  preparedId : String
  fromState : PreparedDecisionState
  toState : PreparedDecisionState
  occurredAt : Int
  reason : Option String
  legal : toState ∈ fromState.transitions
  deriving DecidableEq

theorem PreparedDecisionState.invoking_mem_reserved :
    invoking ∈ reserved.transitions := by decide

theorem PreparedDecisionState.settling_mem_invoking :
    settling ∈ invoking.transitions := by decide

/-! ## Reservations -/

inductive PaymentReservationState where
  | reserved
  | settling
  | settled
  | released
  | indeterminate
  | disputed
  deriving DecidableEq, Repr

/-- The value of the enumeration member. -/
def PaymentReservationState.text : PaymentReservationState → String
  | reserved => "RESERVED"
  | settling => "SETTLING"
  | settled => "SETTLED"
  | released => "RELEASED"
  | indeterminate => "INDETERMINATE"
  | disputed => "DISPUTED"

structure PaymentReservationV2 where
  reservationId : String
  chargeId : String
  preparedId : String
  basis : AuthorizationBasis
  actionId : String
  attemptId : String
  maximumAmount : CurrencyAmount
  adapter : String
  idempotencyKey : String
  state : PaymentReservationState
  createdAt : Int
  updatedAt : Int
  indeterminateReason : Option String
  rest : String
  deriving DecidableEq

def PaymentReservationV2.quoteId (reservation : PaymentReservationV2) : Option String :=
  reservation.basis.idOf .signedQuote

/-! ## Settlements -/

inductive SettlementStatus where
  | pending
  | completed
  | settled
  | released
  | indeterminate
  | disputed
  | refunded
  | failed
  deriving DecidableEq, Repr

/-- The value of the enumeration member. -/
def SettlementStatus.text : SettlementStatus → String
  | pending => "PENDING"
  | completed => "COMPLETED"
  | settled => "SETTLED"
  | released => "RELEASED"
  | indeterminate => "INDETERMINATE"
  | disputed => "DISPUTED"
  | refunded => "REFUNDED"
  | failed => "FAILED"

/-- Statuses that account for the whole reservation. -/
def SettlementStatus.final (status : SettlementStatus) : Bool :=
  status ∈ [.completed, .settled, .released]

structure SettlementReceipt where
  settlementId : String
  chargeId : String
  preparedId : String
  basis : AuthorizationBasis
  reservationId : String
  attemptId : String
  reservedAmount : CurrencyAmount
  capturedAmount : CurrencyAmount
  releasedAmount : CurrencyAmount
  paymentRail : String
  externalReference : Option String
  status : SettlementStatus
  settledAt : Int
  rest : String
  captured_currency : capturedAmount.currency = reservedAmount.currency
  released_currency : releasedAmount.currency = reservedAmount.currency
  captured_le : capturedAmount.amount ≤ reservedAmount.amount
  accounted_le : dec (capturedAmount.amount + releasedAmount.amount) ≤ reservedAmount.amount
  accounted : status.final →
    dec (capturedAmount.amount + releasedAmount.amount) = reservedAmount.amount
  deriving DecidableEq

def SettlementReceipt.quoteId (receipt : SettlementReceipt) : Option String :=
  receipt.basis.idOf .signedQuote

/-! ## Refunds -/

structure RefundReceiptV2 where
  refundId : String
  settlementId : String
  chargeId : String
  amount : CurrencyAmount
  reason : String
  idempotencyKey : String
  refundedAt : Int
  rest : String
  deriving DecidableEq

end AeepRouter

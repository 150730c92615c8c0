import AeepRouter.Router.World

/-!
# What a payment operation is checked for

The rewrite of a reservation's state, and the checks on the amount and the evidence of a settlement
before an adapter is asked for it.
-/

namespace AeepRouter.Router

open Lib

structure ReservationIdentity where
  reservationId : String
  chargeId : String
  preparedId : String
  basis : AuthorizationBasis
  actionId : String
  attemptId : String
  maximumAmount : CurrencyAmount
  adapter : String
  idempotencyKey : String
  createdAt : Int
  deriving DecidableEq

def identityPayload (reservation : PaymentReservationV2) : ReservationIdentity where
  reservationId := reservation.reservationId
  chargeId := reservation.chargeId
  preparedId := reservation.preparedId
  basis := reservation.basis
  actionId := reservation.actionId
  attemptId := reservation.attemptId
  maximumAmount := reservation.maximumAmount
  adapter := reservation.adapter
  idempotencyKey := reservation.idempotencyKey
  createdAt := reservation.createdAt

/-- The levels of evidence a charge of the router rests on. -/
inductive EconomicEvidenceLevel where
  | publishedOffer
  | staticPrior
  | signedUsageStatement
  | operatorAttested
  deriving DecidableEq, Repr

structure SettlementEvidence where
  chargeId : String
  evidenceLevel : EconomicEvidenceLevel
  usageStatementId : Option String
  evidenceDigest : Option String
  providerCalculatedAmount : Option CurrencyAmount
  deriving DecidableEq

def reservationWithState (reservation : PaymentReservationV2) (state : PaymentReservationState)
    (at' : Int) (reason : Option String) : Result PaymentReservationV2 := do
  raiseIf (at' < reservation.createdAt) (.value "reservation updated_at cannot precede created_at")
  pure { reservation with
    state := state
    updatedAt := at'
    indeterminateReason := if state = .indeterminate then reason else none }

def validateSettlementRequest (reservation : PaymentReservationV2) (actual : CurrencyAmount)
    (evidence : SettlementEvidence) : Result Unit := do
  refuseIf (actual.currency ≠ reservation.maximumAmount.currency)
    "settlement currency does not match reservation"
  refuseIf (reservation.maximumAmount.amount < actual.amount)
    "settlement amount exceeds reserved maximum"
  refuseIf (evidence.chargeId ≠ reservation.chargeId)
    "settlement evidence charge does not match reservation"
  refuseIf (∃ amount ∈ evidence.providerCalculatedAmount, amount.currency ≠ actual.currency)
    "provider amount currency does not match settlement"
  refuseIf (∃ amount ∈ evidence.providerCalculatedAmount, amount.amount ≠ actual.amount)
    "provider amount does not match settlement amount"

end AeepRouter.Router

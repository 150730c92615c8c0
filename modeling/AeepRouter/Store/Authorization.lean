import AeepRouter.Store.State

/-!
# The authority behind a cash authorization

What a reservation and a paid invocation recheck inside their transactions: that the quote, offer or
rate card of the basis is stored, still binds the decision, is valid at the instant, is signed by an
active key, and authorizes a maximum. The two checks share their signature parts and differ in the
bindings and in how they treat the start of a quote's validity.
-/

namespace AeepRouter

open Lib

variable (crypto : Crypto)

def Evidence.requireSignedQuote (evidence : Evidence) (quote : BoundedQuote) (now : Int) :
    Result Unit := do
  let key ← requireActiveSigningKey
    (evidence.signingKeys.find? (quote.providerId, quote.signature.keyId))
    quote.signature.algorithm now quote.capability
  requireValidAuthorizationSignature key quote.signature quote.providerId quote.capability now
    (crypto.verifyQuote key.publicKey quote)

def Evidence.requireSignedOffer (evidence : Evidence) (offer : SignedOffer) (now : Int) :
    Result Unit := do
  let key ← requireActiveSigningKey
    (evidence.signingKeys.find? (offer.providerId, offer.signature.keyId))
    offer.signature.algorithm now offer.capability
  requireValidAuthorizationSignature key offer.signature offer.providerId offer.capability now
    (crypto.verifyOffer key.publicKey offer)

/-- Whether an offer row may be used at an instant. -/
def OfferRow.activeAt (row : OfferRow) (now : Int) : Prop :=
  row.status = "active" ∧ row.revokedAt = none ∧ row.offer.validFrom ≤ now ∧
    now < row.offer.validUntil

instance (row : OfferRow) (now : Int) : Decidable (row.activeAt now) := by
  unfold OfferRow.activeAt; infer_instance

/-- Whether a rate card is in force at an instant. -/
def RateCardSnapshot.activeAt (snapshot : RateCardSnapshot) (now : Int) : Prop :=
  snapshot.effectiveFrom ≤ now ∧ ∀ until' ∈ snapshot.effectiveUntil, now < until'

instance (snapshot : RateCardSnapshot) (now : Int) : Decidable (snapshot.activeAt now) := by
  unfold RateCardSnapshot.activeAt; infer_instance

/-- The maximum the basis of a reservation authorizes, as `reserve_payment_v2` rechecks it. -/
def Evidence.authorizeReservation (evidence : Evidence) (decision : PreparedRouteDecision)
    (reservation : PaymentReservationV2) : Result CurrencyAmount :=
  match reservation.basis.kind with
  | .signedQuote => do
    let quote ← demand (evidence.boundedQuotes.find? reservation.basis.id)
      "signed quote authorization is missing"
    refuseIf (reservation.quoteId ≠ some quote.quoteId ∨
        decision.selectedQuoteId ≠ some quote.quoteId ∨
        quote.actionDigest ≠ decision.actionDigest ∨
        some quote.executorId ≠ decision.selectedExecutorId ∨
        some quote.executorFingerprint ≠ decision.selectedExecutorFingerprint)
      "signed quote authorization binding changed"
    refuseIf (reservation.updatedAt < quote.issuedAt ∨ quote.expiresAt ≤ reservation.updatedAt)
      "signed quote authorization is not currently valid"
    evidence.requireSignedQuote crypto quote reservation.updatedAt
    pure quote.maximumAmount
  | .publishedOffer => do
    let row ← demand (evidence.capabilityOffers.find? reservation.basis.id)
      "published offer authorization is missing"
    refuseIf (decision.selectedOfferId ≠ some row.offer.offerId ∨
        some row.offer.executorId ≠ decision.selectedExecutorId ∨
        some row.offer.executorFingerprint ≠ decision.selectedExecutorFingerprint)
      "published offer authorization binding changed"
    refuseIf (¬ row.activeAt reservation.updatedAt) "published offer authorization is not active"
    evidence.requireSignedOffer crypto row.offer reservation.updatedAt
    row.offer.toCapabilityOffer.authorizedMaximum decision.disclosedQuoteFeatures
  | .pinnedRateCard => do
    let snapshot ← demand (evidence.rateCardSnapshots.find? reservation.basis.id)
      "pinned rate-card authorization is missing"
    refuseIf (decision.selectedRateCardId ≠ some snapshot.snapshotId)
      "pinned rate-card authorization binding changed"
    refuseIf (¬ snapshot.activeAt reservation.updatedAt)
      "pinned rate-card authorization is not active"
    snapshot.authorizedMaximum decision.authorizationMeterQuantities

/-- The maximum the basis of a decision authorizes, as `claim_prepared_for_paid_invocation`
rechecks it. -/
def Evidence.authorizeInvocation (evidence : Evidence) (decision : PreparedRouteDecision)
    (reservation : PaymentReservationV2) (basis : AuthorizationBasis)
    (executorId executorFingerprint : String) (invokedAt : Int) : Result CurrencyAmount :=
  match basis.kind with
  | .signedQuote => do
    let quote ← demand (evidence.boundedQuotes.find? basis.id)
      "signed quote authorization is missing"
    refuseIf (decision.selectedQuoteId ≠ some quote.quoteId ∨
        reservation.quoteId ≠ some quote.quoteId ∨
        quote.actionDigest ≠ decision.actionDigest ∨
        quote.executorId ≠ executorId ∨
        quote.executorFingerprint ≠ executorFingerprint ∨
        quote.expiresAt ≤ invokedAt)
      "signed quote invocation binding changed"
    evidence.requireSignedQuote crypto quote invokedAt
    pure quote.maximumAmount
  | .publishedOffer => do
    let row ← demand (evidence.capabilityOffers.find? basis.id)
      "published offer authorization is missing"
    refuseIf (decision.selectedOfferId ≠ some row.offer.offerId ∨
        row.offer.executorId ≠ executorId ∨
        row.offer.executorFingerprint ≠ executorFingerprint ∨
        ¬ row.activeAt invokedAt)
      "published offer invocation authorization is not active"
    evidence.requireSignedOffer crypto row.offer invokedAt
    row.offer.toCapabilityOffer.authorizedMaximum decision.disclosedQuoteFeatures
  | .pinnedRateCard => do
    let snapshot ← demand (evidence.rateCardSnapshots.find? basis.id)
      "pinned rate-card authorization is missing"
    refuseIf (decision.selectedRateCardId ≠ some snapshot.snapshotId ∨ ¬ snapshot.activeAt invokedAt)
      "pinned rate-card invocation authorization is not active"
    snapshot.authorizedMaximum decision.authorizationMeterQuantities

/-- Whether the basis of a hold can be reproduced from what is stored, as the recovery of an
indeterminate settlement asks. -/
def Evidence.reproducesBasis (evidence : Evidence) (decision : PreparedRouteDecision)
    (reservation : PaymentReservationV2) : Result Bool :=
  match reservation.basis.kind with
  | .signedQuote =>
    pure (evidence.usageStatements.any fun usage =>
      usage.preparedId = reservation.preparedId ∧ usage.attemptId = reservation.attemptId)
  | .publishedOffer =>
    match evidence.capabilityOffers.find? reservation.basis.id with
    | none => pure false
    | some row =>
      if decision.selectedOfferId = some row.offer.offerId ∧
          decision.selectedExecutorId = some row.offer.executorId ∧
          decision.selectedExecutorFingerprint = some row.offer.executorFingerprint then do
        let maximum ← row.offer.toCapabilityOffer.authorizedMaximum decision.disclosedQuoteFeatures
        pure (maximum = reservation.maximumAmount)
      else pure false
  | .pinnedRateCard =>
    match evidence.rateCardSnapshots.find? reservation.basis.id with
    | none => pure false
    | some snapshot =>
      if decision.selectedRateCardId = some snapshot.snapshotId then do
        let maximum ← snapshot.authorizedMaximum decision.authorizationMeterQuantities
        pure (maximum = reservation.maximumAmount)
      else pure false

def AuthorizationKind.text : AuthorizationKind → String
  | signedQuote => "SIGNED_QUOTE"
  | publishedOffer => "PUBLISHED_OFFER"
  | pinnedRateCard => "PINNED_RATE_CARD"

/-- Whether a stored execution receipt names the hold. -/
def Evidence.receiptExists (evidence : Evidence) (decision : PreparedRouteDecision)
    (reservation : PaymentReservationV2) : Bool :=
  evidence.receipts.rows.any fun receipt =>
    receipt.actionId = reservation.actionId ∧
    some receipt.executorId = decision.selectedExecutorId ∧
    receipt.says "prepared_id" reservation.preparedId ∧
    receipt.says "attempt_id" reservation.attemptId ∧
    receipt.says "charge_id" reservation.chargeId ∧
    receipt.says "authorization_kind" reservation.basis.kind.text ∧
    receipt.says "authorization_id" reservation.basis.id

end AeepRouter

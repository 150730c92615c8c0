import AeepRouter.Store.Authorization

/-!
# Prepared decisions

A decision is saved once, claimed by a token, and moved along `PreparedDecisionState.transitions`.
Every move goes through `transitionPreparedLocked`, which records it; the two claims for an
invocation recheck the decision in the transaction that moves it to `INVOKING`.

`transitionPreparedLocked_ok` says what a move can change. Ids of new transitions are drawn at
random in the source and are arguments here.
-/

namespace AeepRouter

open Lib

def Store.reservationOf (s : Store) (preparedId : String) : Option PaymentRow :=
  s.reservations.rows.find? (·.payload.preparedId = preparedId)

/-- A reservation that neither moved on nor has an operation under way. -/
def PaymentRow.idle (row : PaymentRow) : Prop :=
  row.state = .reserved ∧ row.operationIntent = none

instance (row : PaymentRow) : Decidable row.idle := by unfold PaymentRow.idle; infer_instance

def Store.setPreparedState (s : Store) (preparedId : String) (state : PreparedDecisionState) :
    Store :=
  { s with prepared :=
      s.prepared.modify preparedId ⟨fun row => { row with state := state }, fun _ => rfl⟩ }

def Store.transitionPreparedLocked (s : Store) (transition : PreparedRouteTransition)
    (requiredClaimToken : Option String) : Result Store :=
  match s.transitions.find? transition.transitionId with
  | some existing =>
    if existing = transition then .ok s
    else .error (.configuration
      "immutable prepared transition ID was reused with different content")
  | none => do
    refuseIf (transition.fromState = .reserved ∧ transition.toState = .invoking ∧
        ¬ ∃ row ∈ s.reservationOf transition.preparedId, row.idle)
      "prepared invocation conflicts with its payment operation state"
    refuseIf (¬ ∃ row ∈ s.prepared.find? transition.preparedId,
        row.state = transition.fromState ∧
        ∀ token ∈ requiredClaimToken, row.claimToken = some token)
      "prepared decision transition lost its state or claim race"
    let transitions ← immutableInsert "prepared_route_transitions" id (fun _ _ => False)
      s.transitions transition
    pure { s.setPreparedState transition.preparedId transition.toState with
      transitions := transitions }

/-! ## Saving and claiming -/

/-- Whether the record of the basis is stored, as the foreign keys of a decision demand. -/
def Evidence.knows (evidence : Evidence) (basis : AuthorizationBasis) : Bool :=
  match basis.kind with
  | .signedQuote => (evidence.boundedQuotes.find? basis.id).isSome
  | .publishedOffer => (evidence.capabilityOffers.find? basis.id).isSome
  | .pinnedRateCard => (evidence.rateCardSnapshots.find? basis.id).isSome

def savePreparedDecision (decision : PreparedRouteDecision) : StoreM PreparedRouteDecision :=
  fun s => do
    let row : PreparedRow := ⟨decision, decision.state, none, none⟩
    refuseIf ((s.prepared.find? decision.preparedId).isNone ∧
        ∃ basis ∈ decision.basis, ¬ s.evidence.knows basis)
      "immutable prepared_route_decisions violates its evidence bindings"
    let prepared ← immutableInsert "prepared_route_decisions" PreparedRow.payload (fun _ _ => False)
      s.prepared row
    let stored ← demand (prepared.find? decision.preparedId)
      "prepared decision disappeared after storage"
    pure (stored.decision, { s with prepared := prepared })

/-- Whether another decision holds a claim token, which the column keeps unique. -/
def Store.tokenTaken (s : Store) (preparedId token : String) : Bool :=
  s.prepared.rows.any fun row => row.preparedId ≠ preparedId ∧ row.claimToken = some token

/-- Whether a decision can be claimed at an instant. -/
def PreparedRow.claimable (row : PreparedRow) (now : Int) : Prop :=
  row.state = .prepared ∧ row.claimToken = none ∧ now < row.payload.expiresAt

instance (row : PreparedRow) (now : Int) : Decidable (row.claimable now) := by
  unfold PreparedRow.claimable; infer_instance

/-- Records the claim of a decision. -/
def Store.setClaim (s : Store) (preparedId token : String) (claimedAt : Int) : Store :=
  { s with
    prepared := s.prepared.modify preparedId
      ⟨fun row => { row with claimToken := some token, claimedAt := some claimedAt },
        fun _ => rfl⟩ }

def claimPreparedDecision (preparedId claimToken : String) (claimedAt : Int) :
    StoreM PreparedRouteDecision := fun s => do
  refuseIf (claimToken = "" ∨ 256 < claimToken.length)
    "prepared claim token must be non-empty and bounded"
  let row ← demand (s.prepared.find? preparedId) "prepared decision does not exist"
  if row.claimable claimedAt then
    raiseIf (s.tokenTaken preparedId claimToken) .integrity
    pure (row.decision, s.setClaim preparedId claimToken claimedAt)
  else
    refuseIf (row.state = .prepared ∧ row.payload.expiresAt ≤ claimedAt)
      "prepared decision has expired"
    refuseIf (row.claimToken ≠ some claimToken) "prepared decision is not claimable"
    pure (row.decision, s)

/-! ## Transitions -/

def savePreparedTransition (transition : PreparedRouteTransition) :
    StoreM PreparedRouteTransition := fun s => do
  refuseIf (transition.fromState = .prepared ∧ transition.toState = .reserved)
    "PREPARED to RESERVED requires atomic claim-bound payment reservation"
  refuseIf (transition.fromState = .prepared ∧ transition.toState = .invoking)
    "direct prepared invocation requires the claim-guarded free-route operation"
  refuseIf (transition.fromState = .reserved ∧ transition.toState = .invoking)
    "paid prepared invocation requires atomic route and trust revalidation"
  let s' ← s.transitionPreparedLocked transition none
  pure (transition, s')

/-- What a caller of the free claim revalidated. -/
structure FreeInvocation where
  preparedId : String
  claimToken : String
  expectedActionDigest : String
  expectedPolicyDigest : String
  expectedExecutorFingerprint : String
  invokedAt : Int
  transitionId : String

def claimPreparedForInvocation (call : FreeInvocation) : StoreM PreparedRouteDecision := fun s => do
  refuseIf (call.claimToken = "" ∨ 256 < call.claimToken.length)
    "prepared invocation requires a bounded claim token"
  let row ← demand (s.prepared.find? call.preparedId) "prepared decision does not exist"
  let decision := row.decision
  refuseIf (row.state ≠ .prepared) "prepared decision is not claimable for invocation"
  refuseIf (row.claimToken ≠ some call.claimToken) "prepared invocation does not own the claim"
  refuseIf (decision.expiresAt ≤ call.invokedAt) "prepared decision has expired"
  refuseIf (decision.actionDigest ≠ call.expectedActionDigest ∨
      decision.effectivePolicyDigest ≠ call.expectedPolicyDigest ∨
      decision.selectedExecutorFingerprint ≠ some call.expectedExecutorFingerprint)
    "prepared invocation binding changed after revalidation"
  refuseIf (decision.selectedQuoteId.isSome) "paid or unknown-cost routes require a reservation"
  let authorization ← demand decision.maximumCashAuthorization
    "paid or unknown-cost routes require a reservation"
  refuseIf (authorization.amount ≠ 0) "paid routes require a reservation"
  refuseIf (decision.expectedCash.actualCashCost authorization.currency ≠ some 0)
    "quote-free invocation requires confirmed zero cash"
  let s' ← s.transitionPreparedLocked
    { transitionId := call.transitionId
      preparedId := call.preparedId
      fromState := .prepared
      toState := .invoking
      occurredAt := call.invokedAt
      reason := some "confirmed-free claimed invocation"
      legal := by decide }
    (some call.claimToken)
  pure ({ decision with state := .invoking }, s')

/-- What a caller of the paid claim revalidated. -/
structure PaidInvocation where
  preparedId : String
  claimToken : String
  expectedActionDigest : String
  expectedPolicyDigest : String
  expectedExecutorId : String
  expectedExecutorFingerprint : String
  expectedBasis : AuthorizationBasis
  invokedAt : Int
  transitionId : String

def removePrefix (start text : String) : String :=
  if start.toList.isPrefixOf text.toList then String.ofList (text.toList.drop start.length) else text

def PaidInvocation.changedBinding (call : PaidInvocation) (decision : PreparedRouteDecision) :
    Option String :=
  if decision.actionDigest ≠ call.expectedActionDigest then some "action digest"
  else if decision.effectivePolicyDigest ≠ call.expectedPolicyDigest then some "policy digest"
  else if decision.selectedExecutorId ≠ some call.expectedExecutorId then some "executor"
  else if decision.selectedExecutorFingerprint ≠ some call.expectedExecutorFingerprint then
    some "executor fingerprint"
  else if decision.basis.map (·.kind) ≠ some call.expectedBasis.kind then some "authorization kind"
  else if decision.basis.map (·.id) ≠ some call.expectedBasis.id then some "authorization ID"
  else none

def claimPreparedForPaidInvocation (crypto : Crypto) (call : PaidInvocation) :
    StoreM PreparedRouteDecision := fun s => do
  refuseIf (call.claimToken = "" ∨ 256 < call.claimToken.length)
    "prepared claim token must be non-empty and bounded"
  let row ← demand (s.prepared.find? call.preparedId) "prepared decision does not exist"
  let decision := row.payload
  match call.changedBinding decision with
  | some label =>
    .error (.configuration ("prepared paid invocation " ++ label ++ " changed"))
  | none => do
    refuseIf (row.state ≠ .reserved) "prepared decision is not reserved for invocation"
    refuseIf (row.claimToken ≠ some call.claimToken)
      "prepared paid invocation does not own the claim"
    refuseIf (decision.expiresAt ≤ call.invokedAt) "prepared decision has expired"
    let payment ← demand (s.reservationOf call.preparedId)
      "prepared paid invocation reservation is missing"
    refuseIf (¬ payment.idle ∨ payment.payload.basis ≠ call.expectedBasis ∨
        some payment.payload.maximumAmount ≠ decision.maximumCashAuthorization)
      "prepared paid invocation reservation binding changed"
    refuseIf (∃ candidate ∈ s.evidence.routeCandidates.find? call.expectedExecutorId,
        candidate.status ≠ "active" ∨
        candidate.fingerprint ≠ removePrefix "sha256:" call.expectedExecutorFingerprint)
      "imported route is not active with the prepared fingerprint"
    let maximum ← s.evidence.authorizeInvocation crypto decision payment.payload call.expectedBasis
      call.expectedExecutorId call.expectedExecutorFingerprint call.invokedAt
    refuseIf (maximum ≠ payment.payload.maximumAmount)
      "paid invocation authorization maximum changed"
    let s' ← s.transitionPreparedLocked
      { transitionId := call.transitionId
        preparedId := call.preparedId
        fromState := .reserved
        toState := .invoking
        occurredAt := call.invokedAt
        reason := some "claimed paid invocation after atomic route and trust revalidation"
        legal := by decide }
      (some call.claimToken)
    pure ({ decision with state := .invoking }, s')

end AeepRouter

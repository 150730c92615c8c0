import AeepRouter.Economic.Accounting

/-!
# Where a measurement comes from

The evidence of an amount, of units of a subscription or of counted tokens.
-/

namespace AeepRouter.Evidence

inductive EvidenceSource where
  | billingRecord
  | localMeter
  | pricedMeasuredBillableUsage
  | confirmedNoIncrementalCharge
  | providerReport
  | pinnedRateTable
  | operatorReport
  | staticEstimate
  | legacyUnspecified
  | unavailable
  deriving DecidableEq, Repr

inductive TrustLevel where
  | untrusted
  | selfAsserted
  | observed
  | verified
  | attested
  deriving DecidableEq, Repr

abbrev Consistent (status : EvidenceStatus) (source : EvidenceSource) : Prop :=
  status = .unavailable ↔ source = .unavailable

theorem consistent_complete : Consistent .complete .billingRecord := by decide

theorem consistent_metered : Consistent .complete .localMeter := by decide

theorem consistent_conflict : Consistent .conflict .billingRecord := by decide

theorem consistent_static : Consistent .complete .staticEstimate := by decide

theorem consistent_partial : Consistent .partialEvidence .localMeter := by decide

theorem consistent_mixed : Consistent .partialEvidence .operatorReport := by decide

theorem consistent_provided : Consistent .complete .providerReport := by decide

theorem consistent_reported : Consistent .partialEvidence .providerReport := by decide

structure MeasurementEvidence where
  status : EvidenceStatus
  source : EvidenceSource
  trust : TrustLevel
  evidenceId : Option String := none
  sourceReference : Option String := none
  digest : Option String := none
  observedAt : Option Int := none
  consistent : Consistent status source
  deriving DecidableEq

inductive ModelAccessChannel where
  | api
  | subscription
  | purchasedCredit
  | mixed
  | unknown
  deriving DecidableEq, Repr

/-- The value of the enumeration member. -/
def ModelAccessChannel.value : ModelAccessChannel → String
  | api => "api"
  | subscription => "subscription"
  | purchasedCredit => "purchased_credit"
  | mixed => "mixed"
  | unknown => "unknown"

theorem ModelAccessChannel.value_injective : Function.Injective value := by
  intro a b h
  cases a <;> cases b <;> first | rfl | exact absurd h (by decide)

end AeepRouter.Evidence

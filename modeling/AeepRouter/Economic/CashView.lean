import AeepRouter.Economic.CashResolution
import AeepRouter.Economic.Evidence

/-!
# Cash accounting with its evidence

The components of a `CashAccounting` with where they come from, and `_merge_cash`, which puts one more
before them unless one with its evidence id is there: the same component is not entered again, and
another one of that id is refused.
-/

namespace AeepRouter.CashReport

open Lib Evidence

inductive EconomicEvidenceLevel where
  | unknown
  | staticPrior
  | publishedOffer
  | signedQuote
  | signedUsageStatement
  | paymentSettlement
  | billingReconciled
  | operatorAttested
  deriving DecidableEq, Repr

namespace EconomicEvidenceLevel

/-- The value of the enumeration member. -/
def value : EconomicEvidenceLevel → String
  | unknown => "UNKNOWN"
  | staticPrior => "STATIC_PRIOR"
  | publishedOffer => "PUBLISHED_OFFER"
  | signedQuote => "SIGNED_QUOTE"
  | signedUsageStatement => "SIGNED_USAGE_STATEMENT"
  | paymentSettlement => "PAYMENT_SETTLEMENT"
  | billingReconciled => "BILLING_RECONCILED"
  | operatorAttested => "OPERATOR_ATTESTED"

def isPaymentEvidence (level : EconomicEvidenceLevel) : Bool :=
  level ∈ [.paymentSettlement, .billingReconciled]

end EconomicEvidenceLevel

/-- A `CashEvidence` with where it comes from; a report prices nothing, so that the rest is empty. -/
structure Component extends CashEvidence where
  evidence : MeasurementEvidence
  billingRecordId : Option String
  deriving DecidableEq

/-- The constructor with its validator. -/
def Component.make (chargeId : String) (amount : Option ℚ) (currency : String)
    (classification : CashClassification) (evidence : MeasurementEvidence)
    (billingRecordId : Option String) : Result Component := do
  raiseIf (∃ a ∈ amount, a < 0) (.value "amount")
  raiseIf (¬ (classification = .unavailable ↔ amount = none))
    (.value "unavailable cash must omit amount; known cash must include amount")
  raiseIf (amount ≠ none ∧ evidence.status = .unavailable) (.value "known cash requires evidence")
  return ⟨⟨chargeId, amount, currency, classification, ""⟩, evidence, billingRecordId⟩

theorem Component.make_ok {chargeId currency : String} {amount : ℚ}
    {classification : CashClassification} {evidence : MeasurementEvidence}
    {billingRecordId : Option String} (hamount : 0 ≤ amount) (hclass : classification ≠ .unavailable)
    (hevidence : evidence.status ≠ .unavailable) :
    Component.make chargeId (some amount) currency classification evidence billingRecordId =
      .ok ⟨⟨chargeId, some amount, currency, classification, ""⟩, evidence, billingRecordId⟩ := by
  have hneg : ¬ ∃ a ∈ some amount, a < 0 := by simpa using hamount
  simp only [Component.make, raiseIf, if_neg hneg, hclass, hevidence, reduceCtorEq, not_true_eq_false,
    and_false, if_false]
  rfl

/-- A `CashAccounting` whose components have their evidence. -/
structure View where
  status : EvidenceStatus
  components : List Component
  deriving DecidableEq

def View.cash (view : View) : CashAccounting := ⟨view.status, view.components.map (·.toCashEvidence)⟩

/-- The constructor with its validator. -/
def View.make (status : EvidenceStatus) (components : List Component) : Result View := do
  let cash ← CashAccounting.make status (components.map (·.toCashEvidence))
  return ⟨cash.status, components⟩

def economicEvidence (level : EconomicEvidenceLevel) (recordId : String) (source : EvidenceSource)
    (observedAt : Int) (status : EvidenceStatus) (trust : TrustLevel)
    (consistent : Evidence.Consistent status source) : MeasurementEvidence where
  status := status
  source := source
  trust := trust
  evidenceId := recordId
  sourceReference := "economic-evidence:" ++ level.value
  observedAt := observedAt
  consistent := consistent

/-- `_cash_status`; the classes that prove a cost of zero are the authoritative ones. -/
def cashStatus (components : List Component) : EvidenceStatus :=
  if components = [] then .unavailable
  else if ∀ member ∈ components, ∃ item ∈ components, item.chargeId = member.chargeId ∧
      item.amount ≠ none ∧ CashAccounting.provesZero item.classification then .complete
  else .partialEvidence

def mergeCash (prior : Option View) (component : Component) : Result View :=
  let existing := (prior.map (·.components)).getD []
  let evidenceId := component.evidence.evidenceId
  match existing.find? fun item => evidenceId ≠ none ∧ item.evidence.evidenceId = evidenceId with
  | some item =>
    if item ≠ component then
      .error (.value ("conflicting economic evidence ID '" ++ evidenceId.getD "" ++ "'"))
    else View.make (cashStatus existing) existing
  | none => View.make (cashStatus (component :: existing)) (component :: existing)

theorem make_cashStatus (components : List Component) :
    ∃ view, View.make (cashStatus components) components = .ok view := by
  have hsome : ¬ (cashStatus components = .complete ∧ components.map (·.toCashEvidence) = []) := by
    rintro ⟨hcomplete, hnil⟩
    obtain rfl := List.map_eq_nil_iff.mp hnil
    cases hcomplete
  unfold View.make CashAccounting.make
  rw [if_neg hsome]
  exact ⟨_, rfl⟩

theorem mergeCash_refused {prior : Option View} {component : Component} {evidenceId : String}
    (hid : component.evidence.evidenceId = some evidenceId) :
    (∃ e, mergeCash prior component = .error e) ↔
      ∃ item, ((prior.map (·.components)).getD []).find?
        (·.evidence.evidenceId = some evidenceId) = some item ∧ item ≠ component := by
  unfold mergeCash
  simp only [hid, ne_eq, reduceCtorEq, not_false_eq_true, true_and]
  split
  · next item hitem =>
    simp only [hitem, Option.some_inj, exists_eq_left']
    obtain ⟨view, hview⟩ := make_cashStatus ((prior.map (·.components)).getD [])
    by_cases hsame : item = component <;> simp [hsame, hview]
  · next hnone =>
    obtain ⟨view, hview⟩ := make_cashStatus (component :: (prior.map (·.components)).getD [])
    simp [hnone, hview]

end AeepRouter.CashReport

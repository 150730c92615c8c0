import AeepRouter.Base

/-!
# Cash accounting

`CashAccounting.actualCashCost` resolves the evidence of every charge to its strongest class and
adds up what is left, or says nothing when a charge is in conflict, in another currency or of a
class that proves no cost.
-/

namespace AeepRouter

inductive EvidenceStatus where
  | complete
  | partialEvidence
  | conflict
  | unavailable
  deriving DecidableEq, Repr

inductive CashClassification where
  | verified
  | billingReconciled
  | pinnedRateBillableUsage
  | estimated
  | unavailable
  deriving DecidableEq, Repr

/-- `_CASH_CLASSIFICATION_STRENGTH`; unavailable evidence is dropped before it is asked for. -/
def CashClassification.strength : CashClassification → ℕ
  | unavailable => 0
  | estimated => 1
  | pinnedRateBillableUsage => 2
  | verified => 3
  | billingReconciled => 4

structure CashEvidence where
  chargeId : String
  amount : Option ℚ
  currency : String
  classification : CashClassification
  rest : String
  deriving DecidableEq

def strongestCashEvidence (group : List CashEvidence) : List CashEvidence :=
  let known := group.filter fun item => item.amount.isSome ∧ item.classification ≠ .unavailable
  let strongest := (known.map (·.classification.strength)).foldl max 0
  known.filter (·.classification.strength = strongest)

structure CashAccounting where
  status : EvidenceStatus
  components : List CashEvidence
  deriving DecidableEq

namespace CashAccounting

def chargeIds (cash : CashAccounting) : List String := (cash.components.map (·.chargeId)).eraseDups

def resolvedComponents (cash : CashAccounting) : List CashEvidence :=
  cash.chargeIds.filterMap fun chargeId =>
    match strongestCashEvidence (cash.components.filter (·.chargeId = chargeId)) with
    | [] => none
    | item :: items =>
      if items.all fun other => other.amount = item.amount ∧ other.currency = item.currency then
        some item
      else none

/-- Classes that prove an actual cost. -/
def eligible (classification : CashClassification) : Bool :=
  classification ∈ [.verified, .billingReconciled, .pinnedRateBillableUsage]

def provesZero (classification : CashClassification) : Bool :=
  classification ∈ [.verified, .billingReconciled]

def actualCashCost (cash : CashAccounting) (currency : String) : Option ℚ :=
  let resolved := cash.resolvedComponents
  if cash.status ≠ .complete ∨ cash.components = [] then none
  else if resolved.length ≠ cash.chargeIds.length then none
  else if resolved.any fun item => !eligible item.classification || item.currency ≠ currency then
    none
  else if (resolved.all fun item => item.amount = some 0) ∧
      (resolved = [] ∨ resolved.any fun item => !provesZero item.classification) then none
  else some (decSum (resolved.map fun item => item.amount.getD 0))

end CashAccounting

end AeepRouter

import AeepRouter.Base

/-!
# Pricing rules, offers and rate cards

`PricingRule.evaluate` prices a measured quantity. `CapabilityOffer` and `RateCardSnapshot` hold
the fields the payment store reads; `rest` stands for the serialized others, which only an
equality of records sees.
-/

namespace AeepRouter

open Lib

inductive PricingRoundingMode where
  | up
  | down
  | ceiling
  | floor
  | halfUp
  | halfEven
  deriving DecidableEq, Repr

def PricingRoundingMode.toIntegral (mode : PricingRoundingMode) (q : ℚ) : ℤ :=
  match mode with
  | up => if 0 ≤ q then ⌈q⌉ else ⌊q⌋
  | down => if 0 ≤ q then ⌊q⌋ else ⌈q⌉
  | ceiling => ⌈q⌉
  | floor => ⌊q⌋
  | halfUp => if 0 ≤ q then ⌊q + 1 / 2⌋ else ⌈q - 1 / 2⌉
  | halfEven => Lib.Decimal.halfEven q

structure PricingRule where
  ruleId : String
  meter : Option String
  unit : Option String
  fixedAmount : Option CurrencyAmount
  perUnitAmount : Option CurrencyAmount
  freeQuantity : Option ℚ
  minimumAmount : Option CurrencyAmount
  maximumAmount : Option CurrencyAmount
  roundingMode : PricingRoundingMode
  quantityIncrement : Option ℚ
  priced : (fixedAmount.or perUnitAmount).isSome
  deriving DecidableEq

namespace PricingRule

/-- The currency of the first amount the rule carries. -/
def currency (rule : PricingRule) : String :=
  ((rule.fixedAmount.or rule.perUnitAmount).get rule.priced).currency

/-- The quantity a rule bills: what exceeds the free part, in whole increments. -/
def billable (rule : PricingRule) (measured : ℚ) : ℚ :=
  let excess := max 0 (dec (measured - rule.freeQuantity.getD 0))
  match rule.quantityIncrement with
  | some increment => dec (rule.roundingMode.toIntegral (dec (excess / increment)) * increment)
  | none => excess

/-- The cost of a quantity before the minimum and the maximum of the rule. -/
def uncapped (rule : PricingRule) (measured : ℚ) : ℚ :=
  let fixed := (rule.fixedAmount.map (·.amount)).getD 0
  match rule.perUnitAmount with
  | some unitPrice => dec (fixed + dec (rule.billable measured * unitPrice.amount))
  | none => fixed

def evaluate (rule : PricingRule) (quantity : ℚ) : Result CurrencyAmount := do
  raiseIf (quantity < 0) (.value "economic decimals cannot be negative")
  let total := rule.uncapped quantity
  let total := match rule.minimumAmount with
    | some least => max total least.amount
    | none => total
  let total := match rule.maximumAmount with
    | some most => min total most.amount
    | none => total
  CurrencyAmount.make total rule.currency

end PricingRule

/-- The values a quote may disclose about an action. -/
inductive JsonPrimitive where
  | string (value : String)
  | int (value : ℤ)
  | bool (value : Bool)
  | null
  deriving DecidableEq, Repr

structure CapabilityOffer where
  offerId : String
  providerId : String
  capability : String
  executorId : String
  executorFingerprint : String
  pricingRules : List PricingRule
  fixedAttemptFee : Option CurrencyAmount
  settlementCurrency : String
  validFrom : Int
  validUntil : Int
  rest : String
  deriving DecidableEq

/-- The amount one rule of an offer may take, given what the decision disclosed. -/
def CapabilityOffer.ruleMaximum (rule : PricingRule) (disclosed : List (String × JsonPrimitive)) :
    Result CurrencyAmount :=
  if rule.perUnitAmount.isNone then rule.evaluate 0
  else
    match disclosed.lookup (rule.meter.getD "") with
    | some (.int quantity) => rule.evaluate quantity
    | _ => demand rule.maximumAmount
        ("offer rule '" ++ rule.ruleId ++ "' has no bounded disclosed quantity")

/-- `ReceiptStore._offer_authorized_maximum`. -/
def CapabilityOffer.authorizedMaximum (offer : CapabilityOffer)
    (disclosed : List (String × JsonPrimitive)) : Result CurrencyAmount := do
  let total ← offer.pricingRules.foldlM (fun (total : ℚ) rule => do
    let amount ← ruleMaximum rule disclosed
    refuseIf (amount.currency ≠ offer.settlementCurrency)
      "offer pricing-rule currency is inconsistent"
    pure (dec (total + amount.amount))) 0
  let total ← match offer.fixedAttemptFee with
    | none => pure total
    | some fee => do
      refuseIf (fee.currency ≠ offer.settlementCurrency) "offer attempt-fee currency is inconsistent"
      pure (max total fee.amount)
  CurrencyAmount.make total offer.settlementCurrency

inductive RateType where
  | inputToken
  | cachedInputToken
  | outputToken
  | cacheWriteToken
  | toolCall
  | subscriptionUnit
  | other
  deriving DecidableEq, Repr

structure RateCardRate where
  rateId : String
  rateType : RateType
  meter : String
  inputUnit : String
  unitQuantity : ℚ
  rateAmount : ℚ
  serviceTier : Option String
  region : Option String
  toolName : Option String
  longContextMin : Option ℕ
  longContextMax : Option ℕ
  multiplier : Option ℚ
  rule : Option String
  deriving DecidableEq

def RateCardRate.conditional (rate : RateCardRate) : Bool :=
  rate.serviceTier.isSome || rate.region.isSome || rate.toolName.isSome ||
    rate.longContextMin.isSome || rate.longContextMax.isSome || rate.rule.isSome

structure RateCardSnapshot where
  snapshotId : String
  effectiveFrom : Int
  effectiveUntil : Option Int
  currency : Option String
  rates : List RateCardRate
  rest : String
  deriving DecidableEq

/-- One pinned rate and the bounded quantity it prices. -/
structure AuthorizationMeterQuantity where
  rateId : String
  meter : String
  unit : String
  quantity : ℚ
  deriving DecidableEq

def RateCardSnapshot.price (snapshot : RateCardSnapshot) (item : AuthorizationMeterQuantity) :
    Result ℚ := do
  let rate ← demand (snapshot.rates.find? (·.rateId = item.rateId))
    "prepared authorization names an unknown rate"
  refuseIf (rate.rateType = .subscriptionUnit) "subscription units cannot authorize cash"
  refuseIf rate.conditional "conditional pinned rates cannot authorize cash in protocol 0.4"
  refuseIf (rate.meter ≠ item.meter ∨ rate.inputUnit ≠ item.unit)
    "authorization quantity does not match pinned rate"
  pure (dec (dec (dec (item.quantity / rate.unitQuantity) * rate.rateAmount) *
    rate.multiplier.getD 1))

/-- `ReceiptStore._rate_card_authorized_maximum`. -/
def RateCardSnapshot.authorizedMaximum (snapshot : RateCardSnapshot)
    (quantities : List AuthorizationMeterQuantity) : Result CurrencyAmount := do
  let currency ← demand snapshot.currency "subscription-only rate card cannot authorize cash"
  let total ← quantities.foldlM (fun (total : ℚ) item => do
    let cost ← snapshot.price item
    pure (dec (total + cost))) 0
  CurrencyAmount.make total currency

end AeepRouter

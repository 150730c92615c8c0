import AeepRouter.Economic.CashView
import AeepRouter.Store.Records

/-!
# What an execution may be charged

The two cascades that turn the evidence of an execution into an amount. `Execution.verdict` is the
one of `_execute_prepared_impl`, over the receipt and the usage payload it has in hand;
`Recovery.verdict` is the one of `economic_recover`, over the receipt and the usage statements the
store kept. Both end in `billableAmountForTerms`. A statement is kept before it is entered into the
accounting of the receipt, which may refuse it.

A quote and an offer carry their billing policy beside the fields the payment store reads. The
historical checks of an offer or a rate card read neither the receipt's status nor any usage; what
they answer is a field of the recovery.
-/

namespace AeepRouter.Router

open Lib

/-! ## Statuses and policies -/

inductive ExecutionStatus where
  | success
  | failed
  | timeout
  | rejected
  | hostSelected
  | delegated
  | unknown
  deriving DecidableEq, Repr

/-- The value of the enumeration member. -/
def ExecutionStatus.text : ExecutionStatus → String
  | success => "success"
  | failed => "failed"
  | timeout => "timeout"
  | rejected => "rejected"
  | hostSelected => "host_selected"
  | delegated => "delegated"
  | unknown => "unknown"

inductive ProviderExecutionStatus where
  | success
  | failed
  | timeout
  | rejected
  | indeterminate
  deriving DecidableEq, Repr

def providerStatusForLocal : ExecutionStatus → ProviderExecutionStatus
  | .success => .success
  | .failed => .failed
  | .rejected => .rejected
  | .timeout => .timeout
  | _ => .indeterminate

def providerStatusConsistent (localStatus : ExecutionStatus) (provider : ProviderExecutionStatus) :
    Bool :=
  match localStatus with
  | .success => provider = .success
  | .timeout => provider = .timeout
  | .failed | .rejected => provider ∈ [.failed, .rejected]
  | _ => provider = .indeterminate

inductive BillingTrigger where
  | onSuccess
  | onAttempt
  | onAcceptedResult
  | onProviderStart
  | manualReconciliation
  deriving DecidableEq, Repr

inductive FailureChargePolicy where
  | noCharge
  | chargeActualUsage
  | chargeFixedAttemptFee
  | chargeMaximum
  | manualReconciliation
  deriving DecidableEq, Repr

inductive RetryChargePolicy where
  | eachAttempt
  | firstAttemptOnly
  | successfulAttemptOnly
  | manualReconciliation
  deriving DecidableEq, Repr

structure BillingPolicy where
  billingTrigger : BillingTrigger
  failureChargePolicy : FailureChargePolicy
  retryChargePolicy : RetryChargePolicy
  deriving DecidableEq, Repr

/-! ## Billing -/

def zeroAmount (currency : String) : CurrencyAmount := ⟨0, currency, zero_amount_nonneg⟩

/-- The arguments of `billable_amount_for_terms` beside the policy and the amounts of its terms. -/
structure Observed where
  executionStatus : ProviderExecutionStatus
  providerStarted : Bool
  resultAccepted : Option Bool
  actualUsageAmount : Option CurrencyAmount
  attemptNumber : ℕ
  deriving DecidableEq

/-- Whether the trigger of a policy did not fire. -/
def BillingPolicy.triggerFailed (policy : BillingPolicy) (seen : Observed) : Bool :=
  (policy.billingTrigger = .onSuccess && seen.executionStatus ≠ .success) ||
    (policy.billingTrigger = .onAcceptedResult && seen.resultAccepted ≠ some true)

def billableAmountForTerms (policy : BillingPolicy) (maximum : CurrencyAmount)
    (fixedAuthorized fixedAttemptFee : Option CurrencyAmount) (seen : Observed) :
    Result (Option CurrencyAmount) := do
  raiseIf (seen.attemptNumber < 1) (.value "attempt_number must be positive")
  [seen.actualUsageAmount, fixedAuthorized, fixedAttemptFee].forM fun amount => do
    refuseIf (∃ a ∈ amount, a.currency ≠ maximum.currency)
      "billing amount currency does not match authorization"
    refuseIf (∃ a ∈ amount, maximum.amount < a.amount) "billing amount exceeds authorized maximum"
  let zero := some (zeroAmount maximum.currency)
  let success := seen.executionStatus = .success
  if seen.executionStatus = .indeterminate then pure none
  else if policy.retryChargePolicy = .manualReconciliation then pure none
  else if policy.retryChargePolicy = .firstAttemptOnly ∧ 1 < seen.attemptNumber then pure zero
  else if policy.retryChargePolicy = .successfulAttemptOnly ∧ ¬ success then pure zero
  else if policy.billingTrigger = .manualReconciliation then pure none
  else if policy.billingTrigger = .onProviderStart ∧ ¬ seen.providerStarted then pure zero
  else if ¬ policy.triggerFailed seen ∧ success then
    pure ((fixedAuthorized.or seen.actualUsageAmount).or (if maximum.amount = 0 then zero else none))
  else
    match policy.failureChargePolicy with
    | .noCharge => pure zero
    | .chargeActualUsage => pure seen.actualUsageAmount
    | .chargeFixedAttemptFee => pure fixedAttemptFee
    | .chargeMaximum => pure (some maximum)
    | .manualReconciliation => pure none

/-! ## Evidence -/

/-- What a prepared decision is authorized by, as its execution and its recovery read it. -/
inductive Authorization where
  | signedQuote (quote : BoundedQuote) (policy : BillingPolicy)
      (fixedAttemptFee : Option CurrencyAmount)
  | publishedOffer (offer : CapabilityOffer) (policy : BillingPolicy)
  | pinnedRateCard (snapshot : RateCardSnapshot)

/-- An authorization whose charge is fixed beforehand: an offer or a rate card. -/
def Authorization.fixed : Authorization → Bool
  | signedQuote .. => false
  | _ => true

/-- What the executor returned and validation found. -/
structure RawExecution where
  status : ExecutionStatus
  outputValid : Option Bool
  taskValid : Option Bool
  cash : CashReport.View
  capability : String
  executorId : String
  startedAt : Int
  endedAt : Int

/-- The fields of an execution receipt a charge depends on. -/
structure LocalReceipt extends RawExecution where
  schemaValid : Option Bool

def LocalReceipt.accounted (receipt : LocalReceipt) (cash : CashReport.View) : LocalReceipt :=
  { receipt with cash := cash }

section Accounted

variable (receipt : LocalReceipt) (cash : CashReport.View)

@[simp] theorem LocalReceipt.accounted_status : (receipt.accounted cash).status = receipt.status := rfl

@[simp] theorem LocalReceipt.accounted_schemaValid :
    (receipt.accounted cash).schemaValid = receipt.schemaValid := rfl

@[simp] theorem LocalReceipt.accounted_taskValid :
    (receipt.accounted cash).taskValid = receipt.taskValid := rfl

end Accounted

def RawExecution.receipt (raw : RawExecution) : LocalReceipt :=
  { raw with schemaValid := raw.outputValid }

structure UsageStatement where
  usageStatementId : String
  quoteId : String
  preparedId : String
  actionId : String
  attemptId : String
  providerId : String
  executorId : String
  executorFingerprint : String
  executionStatus : ProviderExecutionStatus
  providerCalculatedAmount : Option CurrencyAmount
  startedAt : Option Int
  completedAt : Option Int
  issuedAt : Int
  rest : String
  deriving DecidableEq

def UsageStatement.component (statement : UsageStatement) (chargeId : String) :
    Result CashReport.Component :=
  let claimed := statement.providerCalculatedAmount
  CashReport.Component.make chargeId (claimed.map (·.amount)) ((claimed.map (·.currency)).getD "USD")
    (if claimed.isSome then .estimated else .unavailable)
    (CashReport.economicEvidence .signedUsageStatement statement.usageStatementId .providerReport
      statement.issuedAt .partialEvidence .verified Evidence.consistent_reported) none

def cashAccountingFromUsageStatement (statement : UsageStatement) (chargeId : String)
    (prior : Option CashReport.View) : Result CashReport.View := do
  CashReport.mergeCash prior (← statement.component chargeId)

inductive UsagePayload where
  /-- `UsageStatement.model_validate` refuses it. -/
  | malformed
  | statement (statement : UsageStatement)
  deriving DecidableEq

structure RouteIdentity where
  providerId : Option String
  executorId : String
  capability : String
  deriving DecidableEq, Repr

/-- What a verification of usage depends on beside the evidence: the clock, the configured skew, the
route's specification where it is known, and the trust store. -/
structure Checker where
  now : Int
  maximumSkew : Int
  spec : Option RouteIdentity
  verifier : Option (UsageStatement → String → Bool)

/-- A prepared decision under execution. -/
structure Action where
  prepared : PreparedRouteDecision
  createdAt : Int
  authorization : Authorization
  attemptId : String
  chargeId : String
  others : List UsageStatement

namespace Action

variable (action : Action)

/-- The bindings a usage statement must share, in the order they are checked. -/
def bindings (quote : BoundedQuote) (checker : Checker) (statement : UsageStatement) :
    List (String × Option String × String) :=
  let provider := match checker.spec with
    | some spec => spec.providerId
    | none => some quote.providerId
  let executor := (checker.spec.map (·.executorId)).getD quote.executorId
  [(statement.quoteId, action.prepared.selectedQuoteId, "quote"),
    (statement.preparedId, some action.prepared.preparedId, "prepared decision"),
    (statement.actionId, some action.prepared.actionId, "action"),
    (statement.attemptId, some action.attemptId, "attempt"),
    (statement.providerId, provider, "provider"),
    (statement.executorId, some executor, "executor"),
    (statement.executorFingerprint, action.prepared.selectedExecutorFingerprint,
      "executor fingerprint")]

def verifyUsageStatement (checker : Checker) (receipt : LocalReceipt) (statement : UsageStatement) :
    Result Unit :=
  match action.authorization with
  | .signedQuote quote _ _ => do
    let capability := (checker.spec.map (·.capability)).getD quote.capability
    let executor := (checker.spec.map (·.executorId)).getD quote.executorId
    (action.bindings quote checker statement).forM fun (actual, wanted, label) =>
      refuseIf (wanted ≠ some actual) ("usage statement " ++ label ++ " binding does not match")
    refuseIf (receipt.capability ≠ capability ∨ receipt.executorId ≠ executor)
      "local receipt differs from immutable quote bindings"
    refuseIf (checker.now + checker.maximumSkew < statement.issuedAt)
      "usage statement issue time exceeds configured clock skew"
    refuseIf (statement.issuedAt < action.createdAt - checker.maximumSkew)
      "usage statement predates the prepared decision"
    refuseIf (∃ amount ∈ statement.providerCalculatedAmount,
        amount.currency ≠ quote.maximumAmount.currency)
      "usage statement currency does not match its quote"
    [(statement.startedAt, "start"), (statement.completedAt, "completion"),
        (some statement.issuedAt, "issuance")].forM fun (instant, label) =>
      refuseIf (∃ t ∈ instant, ¬ (receipt.startedAt - checker.maximumSkew ≤ t ∧
          t ≤ receipt.endedAt + checker.maximumSkew))
        ("usage statement " ++ label ++ " is outside the local attempt chronology")
    let verifier ← demand checker.verifier "usage statement has no operator trust-store verifier"
    refuseIf (¬ verifier statement capability) "usage statement is not trusted"
  | _ => .error (.configuration "usage statement selected quote is unavailable")

/-- `save_usage_statement`: the bindings the store checks, and the identity of the row. -/
def saveUsageStatement (statement : UsageStatement) : Result Unit :=
  match action.authorization with
  | .signedQuote quote _ _ => do
    refuseIf (statement.providerId ≠ quote.providerId ∨ statement.executorId ≠ quote.executorId ∨
        statement.executorFingerprint ≠ quote.executorFingerprint ∨
        statement.actionId ≠ action.prepared.actionId ∨ statement.attemptId ≠ action.attemptId)
      "usage statement does not match its execution binding"
    refuseIf (action.prepared.basis ≠ some ⟨.signedQuote, statement.quoteId⟩)
      "usage statement requires the selected signed quote"
    refuseIf (∃ other ∈ action.others, other.usageStatementId = statement.usageStatementId)
      "immutable usage_statements identity was reused with different content"
  | _ => .error (.configuration "usage statement quote or prepared decision is missing")

/-- What an offer charges for the quantities a decision disclosed; `none` where one is missing. -/
def offerEstimate (offer : CapabilityOffer) : Result (Option ℚ) := do
  raiseIf (offer.settlementCurrency ≠ "USD") (.value "legacy cash estimates only support USD")
  offer.pricingRules.foldlM (fun (total : Option ℚ) rule => do
    if rule.perUnitAmount.isNone then do
      let amount ← rule.evaluate 0
      pure (total.map fun t => dec (t + amount.amount))
    else
      match action.prepared.disclosedQuoteFeatures.lookup (rule.meter.getD "") with
      | some (.int quantity) => do
        let amount ← rule.evaluate quantity
        pure (total.map fun t => dec (t + amount.amount))
      | _ => pure none) (some 0)

def billableAmountForOffer (offer : CapabilityOffer) (policy : BillingPolicy)
    (receipt : LocalReceipt) : Result (Option CurrencyAmount) :=
  match action.prepared.maximumCashAuthorization with
  | none => pure none
  | some maximum =>
    if maximum.currency ≠ offer.settlementCurrency then pure none
    else do
      match ← action.offerEstimate offer with
      | none => pure none
      | some amount => do
        let exact ← CurrencyAmount.make amount offer.settlementCurrency
        if policy.billingTrigger = .onProviderStart ∧ receipt.status ≠ .success then pure none
        else do
          let actual ← match receipt.cash.cash.actualCashCost offer.settlementCurrency with
            | none => pure none
            | some cost => do
              let cost ← CurrencyAmount.make cost offer.settlementCurrency
              pure (some cost)
          billableAmountForTerms policy maximum (some exact) offer.fixedAttemptFee
            { executionStatus := providerStatusForLocal receipt.status
              providerStarted := receipt.status = .success ∨ policy.billingTrigger = .onAttempt
              resultAccepted := some (receipt.status = .success ∧ receipt.outputValid ≠ some false ∧
                receipt.taskValid ≠ some false)
              actualUsageAmount := actual
              attemptNumber := 1 }

end Action

/-! ## Verdicts -/

/-- Why an execution leaves its decision `INDETERMINATE`, or `DISPUTED`. -/
inductive Cause where
  | conflict
  | undetermined
  | aboveMaximum
  | unbillable
  deriving DecidableEq, Repr

/-- What the evidence of an execution says of its charge. -/
inductive Verdict where
  /-- The rail is asked for the amount. -/
  | charge (amount : CurrencyAmount)
  | held (cause : Cause)
  /-- The usage evidence was refused; the decision is held and the error raised again. -/
  | refused (e : Err)
  /-- The terms themselves raised. -/
  | raised (e : Err)
  deriving DecidableEq

/-- An execution at the point where its charge is determined. -/
structure Execution extends Action where
  raw : RawExecution
  usage : Option UsagePayload
  checker : Checker

namespace Execution

variable (x : Execution)

def receipt : LocalReceipt := x.raw.receipt

def keptStatement : Result (Option UsageStatement) :=
  match x.usage with
  | none => pure none
  | some .malformed => .error (.value "usage payload is not a usage statement")
  | some (.statement statement) => do
    x.verifyUsageStatement x.checker x.receipt statement
    x.saveUsageStatement statement
    pure (some statement)

def usageAccounted : Result (Option UsageStatement × CashReport.View) := do
  match ← x.keptStatement with
  | none => pure (none, x.receipt.cash)
  | some statement => do
    let cash ← cashAccountingFromUsageStatement statement x.chargeId x.receipt.cash
    pure (some statement, cash)

/-- The executor's own accounting has other evidence under the id of the statement. -/
def Contradicted (statement : UsageStatement) : Prop :=
  ∃ item, x.receipt.cash.components.find?
    (·.evidence.evidenceId = some statement.usageStatementId) = some item ∧
      statement.component x.chargeId ≠ .ok item

def usageStatement : Result (Option UsageStatement) := x.usageAccounted.map Prod.fst

def savedReceipt : LocalReceipt :=
  match x.usageAccounted with
  | .ok (_, cash) => x.receipt.accounted cash
  | .error _ => x.receipt

def quoteVerdict (quote : BoundedQuote) (policy : BillingPolicy)
    (fixedAttemptFee : Option CurrencyAmount) (statement : Option UsageStatement) : Verdict :=
  let receipt := x.receipt
  let currency := quote.maximumAmount.currency
  let status := match statement with
    | some s => s.executionStatus
    | none => providerStatusForLocal receipt.status
  let actual : Result (Option CurrencyAmount) := match statement with
    | some s => pure s.providerCalculatedAmount
    | none => match receipt.cash.cash.actualCashCost currency with
      | none => pure none
      | some cost => (CurrencyAmount.make cost currency).map some
  match actual with
  | .error e => .raised e
  | .ok actual =>
    if ∃ a ∈ actual, quote.maximumAmount.amount < a.amount then .held .aboveMaximum
    else
      let started : Bool :=
        if policy.billingTrigger = .onAttempt then true
        else match statement with
          | none => receipt.status = .success
          | some s => s.startedAt.isSome || s.executionStatus = .success
      let amount : Result (Option CurrencyAmount) :=
        if policy.billingTrigger = .onProviderStart ∧ ¬ started then pure none
        else billableAmountForTerms policy quote.maximumAmount none fixedAttemptFee
          { executionStatus := status
            providerStarted := started
            resultAccepted := some (receipt.status = .success ∧ receipt.outputValid ≠ some false ∧
              receipt.taskValid ≠ some false)
            actualUsageAmount := actual
            attemptNumber := 1 }
      match amount with
      | .error e => .raised e
      | .ok amount =>
        match if receipt.status = .timeout ∧ statement = none then none else amount with
        | none => .held .unbillable
        | some a => .charge a

def verdictOf (statement : Option UsageStatement) : Verdict :=
  let receipt := x.receipt
  if ∃ s ∈ statement, ¬ providerStatusConsistent receipt.status s.executionStatus then
    .held .conflict
  else
    match x.authorization with
    | .signedQuote quote policy fee => x.quoteVerdict quote policy fee statement
    | .publishedOffer offer policy =>
      if statement = none then
        match x.billableAmountForOffer offer policy receipt with
        | .error e => .raised e
        | .ok none => .held .undetermined
        | .ok (some amount) => .charge amount
      else .held .undetermined
    | .pinnedRateCard _ =>
      let accepted := receipt.status = .success ∧ receipt.schemaValid ≠ some false ∧
        receipt.taskValid ≠ some false
      match if statement = none ∧ accepted then x.prepared.maximumCashAuthorization else none with
      | none => .held .undetermined
      | some amount => .charge amount

/-- The charge `_execute_prepared_impl` determines. -/
def verdict : Verdict :=
  match x.usageStatement with
  | .error e => .refused e
  | .ok statement => x.verdictOf statement

/-- The usage statements of the decision that the execution left in the store; what the accounting
refuses stays. -/
def stored : List UsageStatement :=
  match x.keptStatement with
  | .ok (some statement) => [statement]
  | _ => []

end Execution

/-- A decision under recovery: what the store kept of its execution, and what the recovery
checks. -/
structure Recovery extends Action where
  receipt : LocalReceipt
  statements : List UsageStatement
  checker : Checker
  /-- What `_historical_prepared_offer` or the historical `_prepared_rate_card` answers. -/
  basis : Result Unit

inductive RecoveryVerdict where
  | charge (amount : CurrencyAmount)
  | disputed
  | unresolved
  deriving DecidableEq

namespace Recovery

variable (r : Recovery)

/-- The statement a recovery reads: the only one. -/
def statement : Option UsageStatement :=
  match r.statements with
  | [statement] => some statement
  | _ => none

def fixedAmount : Result (Option CurrencyAmount) :=
  match r.authorization with
  | .publishedOffer offer policy => r.billableAmountForOffer offer policy r.receipt
  | .pinnedRateCard _ =>
    pure (if r.receipt.status = .success ∧ r.receipt.schemaValid ≠ some false ∧
      r.receipt.taskValid ≠ some false then r.prepared.maximumCashAuthorization else none)
  | .signedQuote .. => pure none

def quoteVerdict (quote : BoundedQuote) (policy : BillingPolicy)
    (fixedAttemptFee : Option CurrencyAmount) (s : UsageStatement) : RecoveryVerdict :=
  if ¬ providerStatusConsistent r.receipt.status s.executionStatus then .unresolved
  else
    match r.verifyUsageStatement r.checker r.receipt s with
    | .error _ => .unresolved
    | .ok () =>
      let claimed := s.providerCalculatedAmount
      if ∃ a ∈ claimed, quote.maximumAmount.amount < a.amount then .disputed
      else
        let started : Bool := policy.billingTrigger = .onAttempt || s.startedAt.isSome ||
          s.executionStatus = .success
        let amount : Result (Option CurrencyAmount) :=
          if policy.billingTrigger = .onProviderStart ∧ ¬ started then pure none
          else billableAmountForTerms policy quote.maximumAmount none fixedAttemptFee
            { executionStatus := s.executionStatus
              providerStarted := started
              resultAccepted := some (r.receipt.status = .success ∧
                r.receipt.schemaValid ≠ some false ∧ r.receipt.taskValid ≠ some false)
              actualUsageAmount := claimed
              attemptNumber := 1 }
        match amount with
        | .ok (some a) => .charge a
        | _ => .unresolved

/-- The charge `economic_recover` determines. -/
def verdict : RecoveryVerdict :=
  match r.authorization with
  | .signedQuote quote policy fee =>
    match r.statement with
    | none => .unresolved
    | some s => r.quoteVerdict quote policy fee s
  | _ =>
    match r.basis, r.fixedAmount with
    | .ok (), .ok (some amount) => .charge amount
    | _, _ => .unresolved

end Recovery

/-- A recovery of an execution: over the receipt and the statements it stored, at any later time,
with any trust store, and with any outcome of the historical checks. -/
def Execution.recovery (x : Execution) (checker : Checker) (basis : Result Unit) : Recovery :=
  { x.toAction with
    receipt := x.savedReceipt
    statements := x.stored
    checker := checker
    basis := basis }

end AeepRouter.Router

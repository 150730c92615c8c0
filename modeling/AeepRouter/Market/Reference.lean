import AeepRouter.Base
import AeepRouter.Lib.Dictionary
import AeepRouter.Lib.Process

/-!
# The reference market

`ReferenceMarket` quotes a price for a request, issues a statement of the usage under a quote and
reconciles a statement with a bill. It remembers what it answered and answers a repeated request
alike. A digest is the content it is of, and `RecordIds` stands for the hashes that name records;
signatures are left out. Instants are microseconds.
-/

namespace AeepRouter.Market

open Lib

/-! ## Constants -/

def providerId : String := "local.reference-provider"

def capability : String := "text.statistics@1"

def executorId : String := "reference.http.statistics"

def offerId : String := "offer_reference_text_statistics_v1"

def settlementCurrency : String := "USD"

def fixedFee : ℚ := 1 / 1000

def perKib : ℚ := 2 / 10000

def maximumIncrement : ℚ := 1 / 1000

def maximumMargin : ℚ := 1 / 1000

def second : ℤ := 1000000

/-! ## Prices -/

def price (inputBytes : ℕ) : ℚ := dec (fixedFee + dec (perKib * ((inputBytes + 1023) / 1024 : ℕ)))

def quotedMaximum (expected : ℚ) : ℚ :=
  dec (⌈dec (dec (expected + maximumMargin) / maximumIncrement)⌉ * maximumIncrement)

theorem price_nonneg (inputBytes : ℕ) : 0 ≤ price inputBytes := by
  have hkib : (0 : ℚ) ≤ perKib * ((inputBytes + 1023) / 1024 : ℕ) :=
    mul_nonneg (by norm_num [perKib]) (Nat.cast_nonneg _)
  exact dec_nonneg (add_nonneg (by norm_num [fixedFee]) (dec_nonneg hkib))

theorem price_mono {a b : ℕ} (h : a ≤ b) : price a ≤ price b := by
  have hkib : (perKib * ((a + 1023) / 1024 : ℕ) : ℚ) ≤ perKib * ((b + 1023) / 1024 : ℕ) :=
    mul_le_mul_of_nonneg_left (Nat.cast_le.mpr (Nat.div_le_div_right (by omega)))
      (by norm_num [perKib])
  have hstart : (0 : ℚ) ≤ perKib * ((a + 1023) / 1024 : ℕ) :=
    mul_nonneg (by norm_num [perKib]) (Nat.cast_nonneg _)
  refine dec_mono (add_nonneg (by norm_num [fixedFee]) (dec_nonneg hstart)) ?_
  have := dec_mono hstart hkib
  linarith

theorem quotedMaximum_nonneg {expected : ℚ} (h : 0 ≤ expected) : 0 ≤ quotedMaximum expected := by
  have hsum : 0 ≤ dec (expected + maximumMargin) :=
    dec_nonneg (add_nonneg h (by norm_num [maximumMargin]))
  have hratio : 0 ≤ dec (dec (expected + maximumMargin) / maximumIncrement) :=
    dec_nonneg (div_nonneg hsum (by norm_num [maximumIncrement]))
  exact dec_nonneg (mul_nonneg (Int.cast_nonneg (Int.ceil_nonneg hratio))
    (by norm_num [maximumIncrement]))

theorem dec_tenThousandths {n : ℤ} (hn : 0 ≤ n) (h : n ≤ 1000000000) :
    dec (n * 10 ^ (-4 : ℤ)) = n * 10 ^ (-4 : ℤ) := by
  have hn' : (0 : ℚ) ≤ n := Int.cast_nonneg hn
  have h' : (n : ℚ) ≤ 1000000000 := by exact_mod_cast h
  refine dec_of_onGrid ⟨n, rfl⟩ ?_
  rw [abs_of_nonneg (by positivity)]
  norm_num
  linarith

/-- The prices of what a quote may disclose are exact. -/
theorem price_eq {inputBytes : ℕ} (h : inputBytes ≤ 100000000) :
    ∃ n : ℤ, 0 ≤ n ∧ n ≤ 200000 ∧ price inputBytes = n * 10 ^ (-4 : ℤ) := by
  have hkib : (inputBytes + 1023) / 1024 ≤ 97657 := by omega
  generalize hk : (inputBytes + 1023) / 1024 = kibibytes at hkib
  refine ⟨10 + 2 * kibibytes, by omega, by omega, ?_⟩
  have hrate : perKib * (kibibytes : ℚ) = ((2 * kibibytes : ℤ) : ℚ) * 10 ^ (-4 : ℤ) := by
    push_cast
    norm_num [perKib]
    ring
  have hfee : fixedFee + ((2 * kibibytes : ℤ) : ℚ) * 10 ^ (-4 : ℤ) =
      ((10 + 2 * kibibytes : ℤ) : ℚ) * 10 ^ (-4 : ℤ) := by
    push_cast
    norm_num [fixedFee]
    ring
  rw [price, hk, hrate, dec_tenThousandths (by omega) (by omega), hfee,
    dec_tenThousandths (by omega) (by omega)]

theorem price_le_quotedMaximum {inputBytes : ℕ} (h : inputBytes ≤ 100000000) :
    price inputBytes ≤ quotedMaximum (price inputBytes) := by
  obtain ⟨n, hn, hle, hprice⟩ := price_eq h
  have hmargin : (n : ℚ) * 10 ^ (-4 : ℤ) + maximumMargin =
      ((n + 10 : ℤ) : ℚ) * 10 ^ (-4 : ℤ) := by
    push_cast
    norm_num [maximumMargin]
    ring
  have hratio : ((n + 10 : ℤ) : ℚ) * 10 ^ (-4 : ℤ) / maximumIncrement =
      ((1000 * (n + 10) : ℤ) : ℚ) * 10 ^ (-4 : ℤ) := by
    push_cast
    norm_num [maximumIncrement]
    ring
  have hceil := Int.le_ceil (((1000 * (n + 10) : ℤ) : ℚ) * 10 ^ (-4 : ℤ))
  have hlt := Int.ceil_lt_add_one (((1000 * (n + 10) : ℤ) : ℚ) * 10 ^ (-4 : ℤ))
  rw [hprice, quotedMaximum, hmargin, dec_tenThousandths (by omega) (by omega), hratio,
    dec_tenThousandths (by omega) (by omega)]
  generalize ⌈((1000 * (n + 10) : ℤ) : ℚ) * 10 ^ (-4 : ℤ)⌉ = c at hceil hlt
  have hstep : (c : ℚ) * maximumIncrement = ((10 * c : ℤ) : ℚ) * 10 ^ (-4 : ℤ) := by
    push_cast
    norm_num [maximumIncrement]
    ring
  norm_num at hceil hlt
  have hlow : n + 10 ≤ 10 * c := by
    have : (n : ℚ) + 10 ≤ 10 * c := by linarith
    exact_mod_cast this
  have hhigh : 10 * c < n + 20 := by
    have : (10 : ℚ) * c < n + 20 := by linarith
    exact_mod_cast this
  rw [hstep, dec_tenThousandths (by omega) (by omega)]
  refine mul_le_mul_of_nonneg_right (Int.cast_le.mpr (by omega)) (by positivity)

/-! ## Requests -/

inductive JsonPrimitive where
  | null
  | bool (b : Bool)
  | int (n : ℤ)
  | string (s : String)
  deriving DecidableEq

structure QuoteRequestV2 where
  quoteRequestId : String
  actionId : String
  capability : String
  executorId : String
  executorFingerprint : String
  actionDigest : String
  /-- `input_features.input_bytes`, and the other features as canonical text. -/
  inputBytes : ℕ
  otherFeatures : String
  disclosedQuoteFeatures : List (String × JsonPrimitive)
  desiredCurrency : String
  maximumAcceptableAmount : Option CurrencyAmount
  nonce : String
  createdAt : ℤ
  expiresAt : ℤ
  deriving DecidableEq

inductive ProviderExecutionStatus where
  | success
  | failed
  | timeout
  | rejected
  | indeterminate
  deriving DecidableEq, Repr

structure UsageStatementRequest (ι : Type) where
  quoteId : ι
  preparedId : String
  actionId : String
  attemptId : String
  executionStatus : ProviderExecutionStatus
  actualInputBytes : Option ℕ
  startedAt : Option ℤ
  completedAt : Option ℤ
  ordered_times : ∀ started ∈ startedAt, ∀ completed ∈ completedAt, started ≤ completed
  deriving DecidableEq

structure ReconciliationRequest (ι : Type) where
  settlementId : String
  usageStatementId : ι
  billedAmount : CurrencyAmount
  taskValid : Bool
  invoiceReference : Option String
  billingRecordReference : Option String
  external_reference_required : invoiceReference ≠ none ∨ billingRecordReference ≠ none
  deriving DecidableEq

/-! ## Records -/

structure MeterQuantity where
  meter : String
  unit : String
  quantity : ℚ
  deriving DecidableEq

@[ext] structure BoundedQuote (ι : Type) where
  quoteId : ι
  quoteRequestId : String
  offerId : String
  providerId : String
  capability : String
  executorId : String
  executorFingerprint : String
  actionDigest : String
  nonce : String
  expectedAmount : CurrencyAmount
  maximumAmount : CurrencyAmount
  estimatedMeters : List MeterQuantity
  issuedAt : ℤ
  expiresAt : ℤ
  issued_lt : issuedAt < expiresAt
  expected_le : expectedAmount.amount ≤ maximumAmount.amount

instance {ι : Type} [DecidableEq ι] : DecidableEq (BoundedQuote ι) := fun _ _ =>
  decidable_of_iff _ BoundedQuote.ext_iff.symm

structure UsageStatement (ι : Type) where
  usageStatementId : ι
  quoteId : ι
  preparedId : String
  actionId : String
  attemptId : String
  providerId : String
  executorId : String
  executorFingerprint : String
  executionStatus : ProviderExecutionStatus
  meters : List MeterQuantity
  providerCalculatedAmount : Option CurrencyAmount
  startedAt : ℤ
  completedAt : ℤ
  issuedAt : ℤ
  started_le : startedAt ≤ completedAt
  completed_le : completedAt ≤ issuedAt
  deriving DecidableEq

inductive ReconciliationStatus where
  | matched
  | undercharged
  | overcharged
  deriving DecidableEq, Repr

/-- What the evidence digest of a reconciliation covers. -/
structure BillingEvidence (ι : Type) where
  settlementId : String
  usageStatementId : ι
  invoiceReference : Option String
  billingRecordReference : Option String
  billedAmount : CurrencyAmount
  deriving DecidableEq

structure BillingReconciliation (ι : Type) where
  reconciliationId : ι
  settlementId : String
  providerId : String
  invoiceReference : Option String
  billingRecordReference : Option String
  expectedAmount : CurrencyAmount
  billedAmount : CurrencyAmount
  discrepancy : CurrencyAmount
  status : ReconciliationStatus
  evidence : BillingEvidence ι
  reconciledAt : ℤ
  deriving DecidableEq

structure UsageRecord (ι : Type) where
  statement : UsageStatement ι
  inputBytes : ℕ
  request : UsageStatementRequest ι
  deriving DecidableEq

structure AggregateObservation (ι : Type) where
  observationId : ι
  inputBucket : String
  actualCost : ℚ
  latencyMs : ℚ
  completedAt : ℤ
  deriving DecidableEq

/-- `_record_id`, for each of the prefixes. -/
structure RecordIds (ι : Type) where
  quote : QuoteRequestV2 → ι
  usage : ι → String → String → String → ι
  reconciliation : String → ι → BillingEvidence ι → ι

/-- What two records of one kind share if they share their identifier. -/
structure RecordIds.CollisionFree {ι : Type} (ids : RecordIds ι) : Prop where
  quote : ∀ request request', ids.quote request = ids.quote request' → request = request'
  usage : ∀ quote prepared action attempt quote' prepared' action' attempt',
    ids.usage quote prepared action attempt = ids.usage quote' prepared' action' attempt' →
      quote = quote' ∧ prepared = prepared' ∧ action = action' ∧ attempt = attempt'
  reconciliation : ∀ settlement usage evidence settlement' usage' evidence',
    ids.reconciliation settlement usage evidence =
      ids.reconciliation settlement' usage' evidence' →
        settlement = settlement' ∧ usage = usage' ∧ evidence = evidence'

/-! ## The market -/

structure ReferenceMarket where
  executorFingerprint : String
  quoteTtlSeconds : ℕ
  positive : 1 ≤ quoteTtlSeconds

/-- The maps of a market. -/
structure Books (ι : Type) where
  quoteRequests : Table QuoteRequestV2 (·.quoteRequestId)
  quoteRequestDigests : Table (String × QuoteRequestV2) Prod.fst
  nonceDigests : Table (String × QuoteRequestV2) Prod.fst
  quotes : Table (BoundedQuote ι) (·.quoteId)
  usage : Table (UsageRecord ι) (·.statement.usageStatementId)
  usageByAttempt : Table ((String × String) × ι) Prod.fst
  reconciliations : Table (BillingReconciliation ι) (·.reconciliationId)
  reconciliationByUsage : Table (ι × ι × ReconciliationRequest ι) Prod.fst
  observations : List (AggregateObservation ι)
  deriving DecidableEq

def Books.empty (ι : Type) : Books ι := ⟨∅, ∅, ∅, ∅, ∅, ∅, ∅, ∅, []⟩

/-- `ReferenceMarketError`, the exception of a validator and that of a missing key. -/
inductive Refusal where
  | market (statusCode : ℕ) (code message : String)
  | validation (message : String)
  | missingKey
  deriving DecidableEq

abbrev MarketM (ι : Type) := Process Refusal (Books ι)

/-- A check that changes nothing. -/
def check {ι α : Type} (r : Except Refusal α) : MarketM ι α := fun s =>
  match r with
  | .ok a => (.returned a, s)
  | .error e => (.raised e, s)

def inputBucket (inputBytes : ℕ) : String :=
  if inputBytes = 0 then "empty"
  else if inputBytes ≤ 4 * 1024 then "0-4KiB"
  else if inputBytes ≤ 64 * 1024 then "4-64KiB"
  else if inputBytes ≤ 1024 * 1024 then "64KiB-1MiB"
  else "1MiB+"

def durationMs (startedAt completedAt : ℤ) : ℚ := dec ((completedAt - startedAt : ℤ) / 1000)

/-! ## Quotes -/

section Operations

variable {ι : Type} [DecidableEq ι] (ids : RecordIds ι) (market : ReferenceMarket) (now : ℤ)

def disclosesInput (request : QuoteRequestV2) : Bool :=
  match request.disclosedQuoteFeatures.lookup "input_bytes" with
  | some (.int n) => 0 ≤ n ∧ n ≤ 100000000 ∧ n = request.inputBytes
  | _ => false

def checkQuoteRequest (request : QuoteRequestV2) : Except Refusal Unit := do
  raiseIf (request.capability ≠ capability)
    (.market 404 "unsupported_capability" "capability is not offered")
  raiseIf (request.executorId ≠ executorId)
    (.market 404 "unsupported_executor" "executor is not offered")
  raiseIf (request.executorFingerprint ≠ market.executorFingerprint)
    (.market 409 "executor_drift" "executor fingerprint does not match")
  raiseIf (request.desiredCurrency ≠ settlementCurrency)
    (.market 409 "currency_mismatch" "settlement currency does not match")
  raiseIf (now + 30 * second < request.createdAt)
    (.market 400 "future_request" "quote request is too far in the future")
  raiseIf (request.expiresAt ≤ now) (.market 410 "expired_request" "quote request has expired")
  raiseIf (∃ feature ∈ request.disclosedQuoteFeatures, feature.1 ≠ "input_bytes")
    (.market 400 "unapproved_disclosure"
      "reference provider accepts only the input_bytes disclosure")
  raiseIf (¬ disclosesInput request)
    (.market 400 "invalid_disclosure"
      "input_bytes disclosure must match the bounded action features")

def checkPriorQuotes (s : Books ι) (request : QuoteRequestV2) : Except Refusal Unit := do
  raiseIf (∃ prior ∈ s.quoteRequestDigests.find? request.quoteRequestId, prior.2 ≠ request)
    (.market 409 "quote_request_conflict"
      "quote request ID was already used with different content")
  raiseIf (∃ prior ∈ s.nonceDigests.find? request.nonce, prior.2 ≠ request)
    (.market 409 "nonce_reuse" "quote nonce was already used for a different request")

def newQuote (request : QuoteRequestV2) : Except Refusal (BoundedQuote ι) :=
  let expected : CurrencyAmount :=
    ⟨price request.inputBytes, settlementCurrency, price_nonneg request.inputBytes⟩
  let maximum : CurrencyAmount :=
    ⟨quotedMaximum expected.amount, settlementCurrency, quotedMaximum_nonneg expected.nonneg⟩
  let expiresAt := min request.expiresAt (now + market.quoteTtlSeconds * second)
  if ∃ requested ∈ request.maximumAcceptableAmount, requested.amount < maximum.amount then
    .error (.market 409 "maximum_exceeded" "binding maximum exceeds maximum acceptable amount")
  else if hexpired : expiresAt ≤ now then
    .error (.market 410 "expired_request" "quote request has expired")
  else if hcovered : maximum.amount < expected.amount then
    .error (.validation "expected amount cannot exceed maximum amount")
  else
    .ok
      { quoteId := ids.quote request
        quoteRequestId := request.quoteRequestId
        offerId := offerId
        providerId := providerId
        capability := capability
        executorId := executorId
        executorFingerprint := market.executorFingerprint
        actionDigest := request.actionDigest
        nonce := request.nonce
        expectedAmount := expected
        maximumAmount := maximum
        estimatedMeters := [⟨providerId ++ ".input_bytes", "byte", request.inputBytes⟩]
        issuedAt := now
        expiresAt := expiresAt
        issued_lt := not_le.mp hexpired
        expected_le := not_lt.mp hcovered }

/-- The maps with a new quote. -/
def Books.addQuote (s : Books ι) (request : QuoteRequestV2) (quote : BoundedQuote ι) : Books ι :=
  { s with
    quoteRequests := s.quoteRequests.assign request
    quoteRequestDigests := s.quoteRequestDigests.assign (request.quoteRequestId, request)
    nonceDigests := s.nonceDigests.assign (request.nonce, request)
    quotes := s.quotes.assign quote }

/-- The first quote for a request, `next(…, None)`. -/
def Books.quoteFor (s : Books ι) (request : QuoteRequestV2) : Option (BoundedQuote ι) :=
  s.quotes.rows.find? fun quote => quote.quoteRequestId = request.quoteRequestId

def requestQuote (request : QuoteRequestV2) : MarketM ι (BoundedQuote ι) := do
  check (checkQuoteRequest market now request)
  let s ← Process.get
  check (checkPriorQuotes s request)
  match s.quoteFor request with
  | some existing => pure existing
  | none => do
    let quote ← check (newQuote ids market now request)
    Process.update fun s => s.addQuote request quote
    pure quote

/-! ## Usage statements -/

/-- The checks of `issue_usage_statement`; missing instants are now. -/
def checkUsage (request : UsageStatementRequest ι) (quote : BoundedQuote ι)
    (quoteRequest : QuoteRequestV2) : Except Refusal Unit := do
  raiseIf (quoteRequest.actionId ≠ request.actionId)
    (.market 409 "action_mismatch" "action ID does not match quote")
  raiseIf (now < request.startedAt.getD now ∨ now < request.completedAt.getD now)
    (.market 400 "future_usage" "usage timestamps cannot be future")
  raiseIf (quote.expiresAt ≤ request.startedAt.getD now)
    (.market 410 "expired_quote" "quote expired before invocation")
  raiseIf (quoteRequest.inputBytes < request.actualInputBytes.getD quoteRequest.inputBytes)
    (.market 409 "usage_above_bound" "actual input bytes exceed the request-bound quote input")

/-- The amount of an execution, unless it is not known whether there was one. -/
def calculatedAmount (status : ProviderExecutionStatus) (actualBytes : ℕ) :
    Option CurrencyAmount :=
  match status with
  | .timeout | .indeterminate => none
  | .success => some ⟨price actualBytes, settlementCurrency, price_nonneg actualBytes⟩
  | .failed | .rejected => some ⟨0, settlementCurrency, zero_amount_nonneg⟩

def newStatement (request : UsageStatementRequest ι) (actualBytes : ℕ) :
    Except Refusal (UsageStatement ι) :=
  let startedAt := request.startedAt.getD now
  let completedAt := request.completedAt.getD now
  if hstarted : completedAt < startedAt then
    .error (.validation "usage completed_at cannot precede started_at")
  else if hissued : now < completedAt then
    .error (.validation "usage statement cannot be issued before completion")
  else
    .ok
      { usageStatementId :=
          ids.usage request.quoteId request.preparedId request.actionId request.attemptId
        quoteId := request.quoteId
        preparedId := request.preparedId
        actionId := request.actionId
        attemptId := request.attemptId
        providerId := providerId
        executorId := executorId
        executorFingerprint := market.executorFingerprint
        executionStatus := request.executionStatus
        meters :=
          [⟨providerId ++ ".input_bytes", "byte", actualBytes⟩, ⟨"requests", "request", 1⟩]
        providerCalculatedAmount := calculatedAmount request.executionStatus actualBytes
        startedAt := startedAt
        completedAt := completedAt
        issuedAt := now
        started_le := not_lt.mp hstarted
        completed_le := not_lt.mp hissued }

/-- The maps with a new statement. -/
def Books.addUsage (s : Books ι) (request : UsageStatementRequest ι) (actualBytes : ℕ)
    (statement : UsageStatement ι) : Books ι :=
  { s with
    usage := s.usage.assign ⟨statement, actualBytes, request⟩
    usageByAttempt :=
      s.usageByAttempt.assign ((request.preparedId, request.attemptId), statement.usageStatementId) }

def issueUsageStatement (request : UsageStatementRequest ι) : MarketM ι (UsageStatement ι) := do
  let s ← Process.get
  let quote ← check (require (s.quotes.find? request.quoteId)
    (.market 404 "unknown_quote" "quote was not issued here"))
  let quoteRequest ← check (require (s.quoteRequests.find? quote.quoteRequestId) .missingKey)
  check (checkUsage now request quote quoteRequest)
  let actualBytes := request.actualInputBytes.getD quoteRequest.inputBytes
  match s.usageByAttempt.find? (request.preparedId, request.attemptId) with
  | some (_, existingId) => do
    let existing ← check (require (s.usage.find? existingId) .missingKey)
    check (raiseIf (existing.request ≠ request)
      (.market 409 "attempt_conflict" "attempt identity was already used with different content"))
    pure existing.statement
  | none => do
    let statement ← check (newStatement ids market now request actualBytes)
    Process.update fun s => s.addUsage request actualBytes statement
    pure statement

/-! ## Reconciliations -/

/-- The checks of `reconcile` against the statement. -/
def checkReconciliation (request : ReconciliationRequest ι) (usage : UsageRecord ι) :
    Except Refusal CurrencyAmount := do
  let expected ← require usage.statement.providerCalculatedAmount
    (.market 409 "indeterminate_charge" "indeterminate usage cannot be reconciled automatically")
  raiseIf (request.taskValid ∧ usage.statement.executionStatus ≠ .success)
    (.market 409 "invalid_success_evidence" "only successful execution may be marked task-valid")
  pure expected

def newReconciliation (request : ReconciliationRequest ι) (expected : CurrencyAmount) :
    Except Refusal (BillingReconciliation ι) :=
  let billed := request.billedAmount.amount
  let evidence : BillingEvidence ι :=
    ⟨request.settlementId, request.usageStatementId, request.invoiceReference,
      request.billingRecordReference, request.billedAmount⟩
  if expected.currency ≠ request.billedAmount.currency ∨ expected.currency ≠ settlementCurrency then
    .error (.validation "reconciliation amounts must use one currency")
  else
    .ok
      { reconciliationId :=
          ids.reconciliation request.settlementId request.usageStatementId evidence
        settlementId := request.settlementId
        providerId := providerId
        invoiceReference := request.invoiceReference
        billingRecordReference := request.billingRecordReference
        expectedAmount := expected
        billedAmount := request.billedAmount
        discrepancy := ⟨|dec (billed - expected.amount)|, settlementCurrency, abs_nonneg _⟩
        status :=
          if billed = expected.amount then .matched
          else if billed < expected.amount then .undercharged
          else .overcharged
        evidence := evidence
        reconciledAt := now }

/-- The maps with a new reconciliation. -/
def Books.addReconciliation (s : Books ι) (request : ReconciliationRequest ι)
    (record : BillingReconciliation ι) : Books ι :=
  { s with
    reconciliations := s.reconciliations.assign record
    reconciliationByUsage := s.reconciliationByUsage.assign
      (request.usageStatementId, record.reconciliationId, request) }

/-- The observation a task-valid reconciliation adds. -/
def Books.observe (s : Books ι) (usage : UsageRecord ι) (record : BillingReconciliation ι) :
    Books ι :=
  { s with
    observations := s.observations ++
      [⟨record.reconciliationId, inputBucket usage.inputBytes, record.billedAmount.amount,
        durationMs usage.statement.startedAt usage.statement.completedAt,
        usage.statement.completedAt⟩] }

def reconcile (request : ReconciliationRequest ι) : MarketM ι (BillingReconciliation ι) := do
  check (raiseIf (request.billedAmount.currency ≠ settlementCurrency)
    (.market 409 "currency_mismatch" "settlement currency does not match"))
  let s ← Process.get
  let usage ← check (require (s.usage.find? request.usageStatementId)
    (.market 404 "unknown_usage" "usage statement was not issued here"))
  let expected ← check (checkReconciliation request usage)
  match s.reconciliationByUsage.find? request.usageStatementId with
  | some (_, reconciliationId, prior) => do
    check (raiseIf (prior ≠ request)
      (.market 409 "reconciliation_conflict"
        "usage statement was already reconciled with different evidence"))
    check (require (s.reconciliations.find? reconciliationId) .missingKey)
  | none => do
    let record ← check (newReconciliation ids now request expected)
    Process.update fun s => s.addReconciliation request record
    Process.update fun s => if request.taskValid then s.observe usage record else s
    pure record

/-! ## Calls -/

inductive Call (ι : Type) where
  | requestQuote (request : QuoteRequestV2)
  | issueUsageStatement (request : UsageStatementRequest ι)
  | reconcile (request : ReconciliationRequest ι)

/-- What a call answers. -/
inductive Record (ι : Type) where
  | quote (quote : BoundedQuote ι)
  | statement (statement : UsageStatement ι)
  | reconciliation (reconciliation : BillingReconciliation ι)
  deriving DecidableEq

def Call.run : Call ι → MarketM ι (Record ι)
  | .requestQuote request => return .quote (← Market.requestQuote ids market now request)
  | .issueUsageStatement request =>
    return .statement (← Market.issueUsageStatement ids market now request)
  | .reconcile request => return .reconciliation (← Market.reconcile ids now request)

end Operations

/-- A call at the instant the clock reads. -/
def step {ι : Type} [DecidableEq ι] (ids : RecordIds ι) (market : ReferenceMarket) (s : Books ι)
    (call : ℤ × Call ι) : Books ι :=
  (call.2.run ids market call.1 s).2

end AeepRouter.Market

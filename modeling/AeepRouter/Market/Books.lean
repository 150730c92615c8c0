import AeepRouter.Market.Reference

/-!
# The books of a market

Every call that is refused leaves the books as they were (`refused_unchanged`), and every other adds
records under free keys, so nothing that was recorded is lost (`Grows`). `Sound` says how the maps
belong together. With it, a request identifier, a nonce, an attempt and a statement have at most one
record each, and a repeated call finds the record of the first.

A repeated `issue_usage_statement` is checked against the clock before the record is looked up. Where
the request leaves its start out, the start is taken to be the time of the repetition, which may be
past the quote (`issue_again_iff`).
-/

namespace AeepRouter.Market

open Lib

/-! ## Steps of a call -/

section Steps

variable {ι α β : Type} {s : Books ι}

theorem check_bind {r : Except Refusal α} {f : α → MarketM ι β} :
    (check r >>= f) s =
      match r with
      | .ok a => f a s
      | .error e => (.raised e, s) := by
  cases r <;> rfl

theorem get_bind {f : Books ι → MarketM ι β} :
    ((Process.get : MarketM ι (Books ι)) >>= f) s = f s s := rfl

theorem update_bind {g : Books ι → Books ι} {f : Unit → MarketM ι β} :
    ((Process.update g : MarketM ι Unit) >>= f) s = f () (g s) := rfl

theorem pure_run {a : α} : (pure a : MarketM ι α) s = (.returned a, s) := rfl

theorem map_run {m : MarketM ι α} {f : α → β} :
    (do return f (← m) : MarketM ι β) s =
      match m s with
      | (.returned a, s') => (.returned (f a), s')
      | (.raised e, s') => (.raised e, s')
      | (.crashed, s') => (.crashed, s') := by
  change Process.bind m _ s = _
  unfold Process.bind
  rcases m s with ⟨_ | _ | _, s'⟩ <;> rfl

end Steps

section Records

variable {ι : Type} {ids : RecordIds ι} {market : ReferenceMarket} {now : ℤ} {s : Books ι}

/-! ## What new records say -/

theorem inputBytes_le {request : QuoteRequestV2} (h : checkQuoteRequest market now request = .ok ()) :
    request.inputBytes ≤ 100000000 := by
  simp only [checkQuoteRequest, bind_ok, raiseIf_ok, exists_const, not_not] at h
  obtain ⟨-, -, -, -, -, -, -, hdiscloses⟩ := h
  unfold disclosesInput at hdiscloses
  split at hdiscloses
  · simp only [decide_eq_true_eq] at hdiscloses
    omega
  · cases hdiscloses

theorem newQuote_ok {request : QuoteRequestV2} {quote : BoundedQuote ι}
    (h : newQuote ids market now request = .ok quote) :
    quote.quoteId = ids.quote request ∧ quote.quoteRequestId = request.quoteRequestId ∧
      quote.nonce = request.nonce ∧
      quote.maximumAmount.amount = quotedMaximum (price request.inputBytes) := by
  unfold newQuote at h
  simp only at h
  split_ifs at h
  cases h
  exact ⟨rfl, rfl, rfl, rfl⟩

theorem newStatement_ok {request : UsageStatementRequest ι} {actualBytes : ℕ}
    {statement : UsageStatement ι}
    (h : newStatement ids market now request actualBytes = .ok statement) :
    statement.usageStatementId =
        ids.usage request.quoteId request.preparedId request.actionId request.attemptId ∧
      statement.quoteId = request.quoteId ∧ statement.preparedId = request.preparedId ∧
      statement.attemptId = request.attemptId ∧
      statement.providerCalculatedAmount = calculatedAmount request.executionStatus actualBytes := by
  unfold newStatement at h
  simp only at h
  split_ifs at h
  cases h
  exact ⟨rfl, rfl, rfl, rfl, rfl⟩

theorem newReconciliation_ok {request : ReconciliationRequest ι} {expected : CurrencyAmount}
    {record : BillingReconciliation ι}
    (h : newReconciliation ids now request expected = .ok record) :
    record.reconciliationId =
        ids.reconciliation request.settlementId request.usageStatementId record.evidence ∧
      record.evidence.usageStatementId = request.usageStatementId ∧
      record.settlementId = request.settlementId := by
  unfold newReconciliation at h
  simp only at h
  split at h
  · cases h
  · cases h
    exact ⟨rfl, rfl, rfl⟩

theorem checkUsage_ok {request : UsageStatementRequest ι} {quote : BoundedQuote ι}
    {quoteRequest : QuoteRequestV2} :
    checkUsage now request quote quoteRequest = .ok () ↔
      quoteRequest.actionId = request.actionId ∧
      (request.startedAt.getD now ≤ now ∧ request.completedAt.getD now ≤ now) ∧
      request.startedAt.getD now < quote.expiresAt ∧
      request.actualInputBytes.getD quoteRequest.inputBytes ≤ quoteRequest.inputBytes := by
  simp only [checkUsage, bind_ok, raiseIf_ok, exists_const, not_not, not_or, not_lt, not_le]

theorem calculatedAmount_le {status : ProviderExecutionStatus} {actualBytes quotedBytes : ℕ}
    (h : actualBytes ≤ quotedBytes) (hbound : quotedBytes ≤ 100000000) :
    ∀ amount ∈ calculatedAmount status actualBytes,
      amount.amount ≤ quotedMaximum (price quotedBytes) := by
  intro amount hamount
  have hprice := price_le_quotedMaximum hbound
  cases status with
  | success =>
    cases hamount
    exact (price_mono h).trans hprice
  | failed | rejected =>
    cases hamount
    exact (price_nonneg quotedBytes).trans hprice
  | timeout | indeterminate => cases hamount

/-! ## How the maps belong together -/

/-- The invariant of the books. -/
structure Sound (ids : RecordIds ι) (s : Books ι) : Prop where
  quoted : ∀ quote ∈ s.quotes, ∃ request,
    s.quoteRequests.find? quote.quoteRequestId = some request ∧ quote.quoteId = ids.quote request ∧
    quote.nonce = request.nonce ∧ request.inputBytes ≤ 100000000 ∧
    quote.maximumAmount.amount = quotedMaximum (price request.inputBytes)
  requested : ∀ request ∈ s.quoteRequests,
    (request.quoteRequestId, request) ∈ s.quoteRequestDigests ∧
    (request.nonce, request) ∈ s.nonceDigests ∧
    ∃ quote ∈ s.quotes, quote.quoteRequestId = request.quoteRequestId
  digests : ∀ entry ∈ s.quoteRequestDigests, entry.2 ∈ s.quoteRequests
  nonces : ∀ entry ∈ s.nonceDigests, entry.2 ∈ s.quoteRequests
  used : ∀ record ∈ s.usage, ∃ quote ∈ s.quotes,
    quote.quoteId = record.statement.quoteId ∧
    (∀ amount ∈ record.statement.providerCalculatedAmount,
      amount.amount ≤ quote.maximumAmount.amount) ∧
    ((record.statement.preparedId, record.statement.attemptId),
      record.statement.usageStatementId) ∈ s.usageByAttempt ∧
    ∃ action, record.statement.usageStatementId =
      ids.usage record.statement.quoteId record.statement.preparedId action
        record.statement.attemptId
  reconciled : ∀ record ∈ s.reconciliations,
    (∃ entry ∈ s.reconciliationByUsage, entry.1 = record.evidence.usageStatementId ∧
      entry.2.1 = record.reconciliationId) ∧
    record.reconciliationId =
      ids.reconciliation record.settlementId record.evidence.usageStatementId record.evidence
  observed : ∀ o ∈ s.observations, ∃ record ∈ s.reconciliations,
    record.reconciliationId = o.observationId
  observedOnce : (s.observations.map (·.observationId)).Nodup

theorem Sound.empty : Sound ids (Books.empty ι) where
  quoted _ h := absurd h Table.not_mem_empty
  requested _ h := absurd h Table.not_mem_empty
  digests _ h := absurd h Table.not_mem_empty
  nonces _ h := absurd h Table.not_mem_empty
  used _ h := absurd h Table.not_mem_empty
  reconciled _ h := absurd h Table.not_mem_empty
  observed _ h := absurd h List.not_mem_nil
  observedOnce := List.nodup_nil

/-- Nothing that was recorded is lost. -/
structure Grows (s s' : Books ι) : Prop where
  quoteRequests : s.quoteRequests.Extends s'.quoteRequests
  quotes : s.quotes.Extends s'.quotes
  usage : s.usage.Extends s'.usage
  usageByAttempt : s.usageByAttempt.Extends s'.usageByAttempt
  reconciliations : s.reconciliations.Extends s'.reconciliations
  reconciliationByUsage : s.reconciliationByUsage.Extends s'.reconciliationByUsage

theorem Grows.refl (s : Books ι) : Grows s s :=
  ⟨.refl _, .refl _, .refl _, .refl _, .refl _, .refl _⟩

theorem Grows.trans {s s' s'' : Books ι} (h : Grows s s') (h' : Grows s' s'') : Grows s s'' :=
  ⟨h.quoteRequests.trans h'.quoteRequests, h.quotes.trans h'.quotes, h.usage.trans h'.usage,
    h.usageByAttempt.trans h'.usageByAttempt, h.reconciliations.trans h'.reconciliations,
    h.reconciliationByUsage.trans h'.reconciliationByUsage⟩

theorem Sound.not_requested (h : Sound ids s) {request : QuoteRequestV2}
    (hnone : s.quoteFor request = none) : request ∉ s.quoteRequests := by
  intro hmem
  obtain ⟨-, -, quote, hquote, hid⟩ := h.requested request hmem
  have := List.find?_eq_none.mp hnone quote hquote
  simp [hid] at this

theorem checkPriorQuotes_ok {request : QuoteRequestV2} (h : checkPriorQuotes s request = .ok ()) :
    (∀ prior ∈ s.quoteRequestDigests.find? request.quoteRequestId, prior.2 = request) ∧
      ∀ prior ∈ s.nonceDigests.find? request.nonce, prior.2 = request := by
  simpa only [checkPriorQuotes, bind_ok, raiseIf_ok, exists_const, not_exists, not_and, not_not]
    using h

/-! ## What the books keep -/

structure Kept (s : Books ι) : Prop where
  quoteRequest : ∀ quote ∈ s.quotes, ∀ quote' ∈ s.quotes,
    quote.quoteRequestId = quote'.quoteRequestId → quote = quote'
  nonce : ∀ quote ∈ s.quotes, ∀ quote' ∈ s.quotes, quote.nonce = quote'.nonce → quote = quote'
  within : ∀ record ∈ s.usage, ∃ quote ∈ s.quotes, quote.quoteId = record.statement.quoteId ∧
    ∀ amount ∈ record.statement.providerCalculatedAmount,
      amount.amount ≤ quote.maximumAmount.amount
  attempt : ∀ record ∈ s.usage, ∀ record' ∈ s.usage,
    record.statement.preparedId = record'.statement.preparedId →
    record.statement.attemptId = record'.statement.attemptId → record = record'
  reconciliation : ∀ record ∈ s.reconciliations, ∀ record' ∈ s.reconciliations,
    record.evidence.usageStatementId = record'.evidence.usageStatementId → record = record'
  observed : ∀ o ∈ s.observations, ∃ record ∈ s.reconciliations,
    record.reconciliationId = o.observationId
  observation : s.observations.Pairwise fun o o' =>
    ∀ record ∈ s.reconciliations, ∀ record' ∈ s.reconciliations,
      record.reconciliationId = o.observationId → record'.reconciliationId = o'.observationId →
      record.evidence.usageStatementId ≠ record'.evidence.usageStatementId

theorem Sound.kept (h : Sound ids s) : Kept s := by
  have hreconciliation : ∀ record ∈ s.reconciliations, ∀ record' ∈ s.reconciliations,
      record.evidence.usageStatementId = record'.evidence.usageStatementId → record = record' := by
    intro record hrecord record' hrecord' husage
    obtain ⟨⟨entry, hentry, hkey, hid⟩, -⟩ := h.reconciled record hrecord
    obtain ⟨⟨entry', hentry', hkey', hid'⟩, -⟩ := h.reconciled record' hrecord'
    cases Table.eq_of_key_eq hentry hentry' (hkey.trans (husage.trans hkey'.symm))
    exact Table.eq_of_key_eq hrecord hrecord' (hid.symm.trans hid')
  have hsameRequest : ∀ quote ∈ s.quotes, ∀ quote' ∈ s.quotes, ∀ request,
      quote.quoteId = ids.quote request → quote'.quoteId = ids.quote request → quote = quote' :=
    fun quote hquote quote' hquote' request hid hid' =>
      Table.eq_of_key_eq hquote hquote' (hid.trans hid'.symm)
  constructor
  case quoteRequest =>
    intro quote hquote quote' hquote' hsame
    obtain ⟨request, hrequest, hid, -⟩ := h.quoted quote hquote
    obtain ⟨request', hrequest', hid', -⟩ := h.quoted quote' hquote'
    rw [hsame, hrequest'] at hrequest
    cases hrequest
    exact hsameRequest quote hquote quote' hquote' request hid hid'
  case nonce =>
    intro quote hquote quote' hquote' hsame
    obtain ⟨request, hrequest, hid, hnonce, -⟩ := h.quoted quote hquote
    obtain ⟨request', hrequest', hid', hnonce', -⟩ := h.quoted quote' hquote'
    have hentry := (h.requested request (Table.mem_of_find? hrequest)).2.1
    have hentry' := (h.requested request' (Table.mem_of_find? hrequest')).2.1
    have heq : request = request' := congrArg Prod.snd
      (Table.eq_of_key_eq hentry hentry' (hnonce.symm.trans (hsame.trans hnonce')))
    exact hsameRequest quote hquote quote' hquote' request hid (heq ▸ hid')
  case within =>
    intro record hrecord
    obtain ⟨quote, hquote, hid, hle, -⟩ := h.used record hrecord
    exact ⟨quote, hquote, hid, hle⟩
  case attempt =>
    intro record hrecord record' hrecord' hprepared hattempt
    obtain ⟨_, -, -, -, hentry, -⟩ := h.used record hrecord
    obtain ⟨_, -, -, -, hentry', -⟩ := h.used record' hrecord'
    have heq := Table.eq_of_key_eq hentry hentry' (Prod.ext hprepared hattempt)
    exact Table.eq_of_key_eq hrecord hrecord' (congrArg Prod.snd heq)
  case reconciliation => exact hreconciliation
  case observed => exact h.observed
  case observation =>
    refine (List.pairwise_map.mp h.observedOnce).imp ?_
    intro o o' hne record hrecord record' hrecord' hid hid' husage
    cases hreconciliation record hrecord record' hrecord' husage
    exact hne (hid.symm.trans hid')

end Records

section Calls

variable {ι : Type} [DecidableEq ι] (ids : RecordIds ι) (market : ReferenceMarket) (now : ℤ)
  (s : Books ι)

/-! ## What a call does -/

theorem requestQuote_cases (request : QuoteRequestV2) :
    (∃ e, requestQuote ids market now request s = (.raised e, s)) ∨
    (∃ quote, requestQuote ids market now request s = (.returned quote, s)) ∨
    ∃ quote, checkQuoteRequest market now request = .ok () ∧
      checkPriorQuotes s request = .ok () ∧ s.quoteFor request = none ∧
      newQuote ids market now request = .ok quote ∧
      requestQuote ids market now request s = (.returned quote, s.addQuote request quote) := by
  unfold requestQuote
  simp only [check_bind, get_bind]
  cases hrequest : checkQuoteRequest market now request with
  | error e => exact .inl ⟨e, rfl⟩
  | ok _ =>
    cases hprior : checkPriorQuotes s request with
    | error e => exact .inl ⟨e, rfl⟩
    | ok _ =>
      cases hfound : s.quoteFor request with
      | some existing => exact .inr (.inl ⟨existing, rfl⟩)
      | none =>
        simp only [check_bind, update_bind, pure_run]
        cases hquote : newQuote (ι := ι) ids market now request with
        | error e => exact .inl ⟨e, rfl⟩
        | ok quote => exact .inr (.inr ⟨quote, trivial, trivial, trivial, rfl, rfl⟩)

theorem issueUsageStatement_cases (request : UsageStatementRequest ι) :
    (∃ e, issueUsageStatement ids market now request s = (.raised e, s)) ∨
    ∃ quote quoteRequest, s.quotes.find? request.quoteId = some quote ∧
      s.quoteRequests.find? quote.quoteRequestId = some quoteRequest ∧
      checkUsage now request quote quoteRequest = .ok () ∧
      ((∃ attempt record,
          s.usageByAttempt.find? (request.preparedId, request.attemptId) = some attempt ∧
          s.usage.find? attempt.2 = some record ∧ record.request = request ∧
          issueUsageStatement ids market now request s = (.returned record.statement, s)) ∨
        ∃ statement, s.usageByAttempt.find? (request.preparedId, request.attemptId) = none ∧
          newStatement ids market now request
            (request.actualInputBytes.getD quoteRequest.inputBytes) = .ok statement ∧
          issueUsageStatement ids market now request s =
            (.returned statement, s.addUsage request
              (request.actualInputBytes.getD quoteRequest.inputBytes) statement)) := by
  unfold issueUsageStatement
  simp only [check_bind, get_bind]
  cases hquote : s.quotes.find? request.quoteId with
  | none => exact .inl ⟨_, rfl⟩
  | some quote =>
    simp only [require]
    cases hquoteRequest : s.quoteRequests.find? quote.quoteRequestId with
    | none => exact .inl ⟨_, rfl⟩
    | some quoteRequest =>
      simp only
      cases hchecked : checkUsage now request quote quoteRequest with
      | error e => exact .inl ⟨e, rfl⟩
      | ok _ =>
        cases hattempt : s.usageByAttempt.find? (request.preparedId, request.attemptId) with
        | some attempt =>
          simp only [check_bind]
          cases hrecord : s.usage.find? attempt.2 with
          | none => exact .inl ⟨_, rfl⟩
          | some record =>
            simp only [raiseIf, pure_run]
            by_cases hsame : record.request = request
            · refine .inr ⟨quote, quoteRequest, rfl, hquoteRequest, hchecked, .inl ?_⟩
              exact ⟨attempt, record, rfl, hrecord, hsame, by simp [hsame]⟩
            · refine .inl ⟨.market 409 "attempt_conflict"
                "attempt identity was already used with different content", ?_⟩
              simp only [ne_eq, hsame, not_false_eq_true, if_true]
        | none =>
          simp only [check_bind, update_bind, pure_run]
          cases hstatement : newStatement ids market now request
              (request.actualInputBytes.getD quoteRequest.inputBytes) with
          | error e => exact .inl ⟨e, rfl⟩
          | ok statement =>
            refine .inr ⟨quote, quoteRequest, rfl, hquoteRequest, hchecked, .inr ?_⟩
            exact ⟨statement, trivial, hstatement, rfl⟩

theorem reconcile_cases (request : ReconciliationRequest ι) :
    (∃ e, reconcile ids now request s = (.raised e, s)) ∨
    ∃ usage expected, request.billedAmount.currency = settlementCurrency ∧
      s.usage.find? request.usageStatementId = some usage ∧
      checkReconciliation request usage = .ok expected ∧
      ((∃ entry record, s.reconciliationByUsage.find? request.usageStatementId = some entry ∧
          entry.2.2 = request ∧ s.reconciliations.find? entry.2.1 = some record ∧
          reconcile ids now request s = (.returned record, s)) ∨
        ∃ record, s.reconciliationByUsage.find? request.usageStatementId = none ∧
          newReconciliation ids now request expected = .ok record ∧
          reconcile ids now request s = (.returned record,
            if request.taskValid then (s.addReconciliation request record).observe usage record
            else s.addReconciliation request record)) := by
  unfold reconcile
  simp only [check_bind, get_bind, raiseIf]
  by_cases hcurrency : request.billedAmount.currency = settlementCurrency
  · simp only [hcurrency, ne_eq, not_true_eq_false, if_false]
    cases husage : s.usage.find? request.usageStatementId with
    | none => exact .inl ⟨_, rfl⟩
    | some usage =>
      simp only [require]
      cases hchecked : checkReconciliation request usage with
      | error e => exact .inl ⟨e, rfl⟩
      | ok expected =>
        cases hentry : s.reconciliationByUsage.find? request.usageStatementId with
        | some entry =>
          simp only [check_bind]
          by_cases hsame : entry.2.2 = request
          · simp only [hsame, not_true_eq_false, if_false]
            cases hrecord : s.reconciliations.find? entry.2.1 with
            | none => exact .inl ⟨_, rfl⟩
            | some record =>
              refine .inr ⟨usage, expected, trivial, rfl, hchecked, .inl ?_⟩
              exact ⟨entry, record, rfl, hsame, hrecord, rfl⟩
          · refine .inl ⟨.market 409 "reconciliation_conflict"
              "usage statement was already reconciled with different evidence", ?_⟩
            simp only [hsame, not_false_eq_true, if_true]
        | none =>
          simp only [check_bind, update_bind, pure_run]
          cases hrecord : newReconciliation ids now request expected with
          | error e => exact .inl ⟨e, rfl⟩
          | ok record =>
            refine .inr ⟨usage, expected, trivial, rfl, hchecked, .inr ?_⟩
            exact ⟨record, trivial, hrecord, rfl⟩
  · refine .inl ⟨.market 409 "currency_mismatch" "settlement currency does not match", ?_⟩
    simp only [hcurrency, ne_eq, not_false_eq_true, if_true]

inductive Enters (ids : RecordIds ι) (market : ReferenceMarket) (now : ℤ) (s : Books ι) :
    Call ι → Record ι → Books ι → Prop
  | quote {request quote} (hrequest : checkQuoteRequest market now request = .ok ())
      (hprior : checkPriorQuotes s request = .ok ()) (hnone : s.quoteFor request = none)
      (hquote : newQuote ids market now request = .ok quote) :
      Enters ids market now s (.requestQuote request) (.quote quote) (s.addQuote request quote)
  | statement {request quote quoteRequest statement}
      (hquote : s.quotes.find? request.quoteId = some quote)
      (hrequest : s.quoteRequests.find? quote.quoteRequestId = some quoteRequest)
      (hchecked : checkUsage now request quote quoteRequest = .ok ())
      (hnone : s.usageByAttempt.find? (request.preparedId, request.attemptId) = none)
      (hstatement : newStatement ids market now request
        (request.actualInputBytes.getD quoteRequest.inputBytes) = .ok statement) :
      Enters ids market now s (.issueUsageStatement request) (.statement statement)
        (s.addUsage request (request.actualInputBytes.getD quoteRequest.inputBytes) statement)
  | reconciliation {request usage expected record}
      (husage : s.usage.find? request.usageStatementId = some usage)
      (hnone : s.reconciliationByUsage.find? request.usageStatementId = none)
      (hrecord : newReconciliation ids now request expected = .ok record) :
      Enters ids market now s (.reconcile request) (.reconciliation record)
        (if request.taskValid then (s.addReconciliation request record).observe usage record
          else s.addReconciliation request record)

theorem run_cases (call : Call ι) :
    (∃ e, call.run ids market now s = (.raised e, s)) ∨
    (∃ record, call.run ids market now s = (.returned record, s)) ∨
    ∃ record s', Enters ids market now s call record s' ∧
      call.run ids market now s = (.returned record, s') := by
  cases call with
  | requestQuote request =>
    have hrun := map_run (m := requestQuote ids market now request) (f := Record.quote) (s := s)
    rcases requestQuote_cases ids market now s request with
      ⟨e, heq⟩ | ⟨quote, heq⟩ | ⟨quote, hrequest, hprior, hnone, hquote, heq⟩
    · exact .inl ⟨e, by rwa [heq] at hrun⟩
    · exact .inr (.inl ⟨_, by rwa [heq] at hrun⟩)
    · exact .inr (.inr ⟨_, _, .quote hrequest hprior hnone hquote, by rwa [heq] at hrun⟩)
  | issueUsageStatement request =>
    have hrun :=
      map_run (m := issueUsageStatement ids market now request) (f := Record.statement) (s := s)
    rcases issueUsageStatement_cases ids market now s request with
      ⟨e, heq⟩ | ⟨quote, quoteRequest, hquote, hrequest, hchecked,
        ⟨attempt, record, -, -, -, heq⟩ | ⟨statement, hnone, hstatement, heq⟩⟩
    · exact .inl ⟨e, by rwa [heq] at hrun⟩
    · exact .inr (.inl ⟨_, by rwa [heq] at hrun⟩)
    · exact .inr (.inr ⟨_, _, .statement hquote hrequest hchecked hnone hstatement,
        by rwa [heq] at hrun⟩)
  | reconcile request =>
    have hrun := map_run (m := reconcile ids now request) (f := Record.reconciliation) (s := s)
    rcases reconcile_cases ids now s request with
      ⟨e, heq⟩ | ⟨usage, expected, -, husage, -,
        ⟨entry, record, -, -, -, heq⟩ | ⟨record, hnone, hrecord, heq⟩⟩
    · exact .inl ⟨e, by rwa [heq] at hrun⟩
    · exact .inr (.inl ⟨_, by rwa [heq] at hrun⟩)
    · exact .inr (.inr ⟨_, _, .reconciliation husage hnone hrecord, by rwa [heq] at hrun⟩)

variable {ids market now s}

theorem refused_unchanged {call : Call ι} {e : Refusal}
    (h : (call.run ids market now s).1 = .raised e) : (call.run ids market now s).2 = s := by
  rcases run_cases ids market now s call with ⟨e', heq⟩ | ⟨record, heq⟩ | ⟨record, s', -, heq⟩
  · rw [heq]
  · rw [heq]
  · rw [heq] at h
    cases h

/-! ## Free keys -/

theorem Sound.free_quote (h : Sound ids s) (hfree : ids.CollisionFree) {request : QuoteRequestV2}
    (hprior : checkPriorQuotes s request = .ok ()) (hnone : s.quoteFor request = none) :
    s.quoteRequestDigests.find? request.quoteRequestId = none ∧
      s.nonceDigests.find? request.nonce = none ∧
      s.quoteRequests.find? request.quoteRequestId = none ∧
      s.quotes.find? (ids.quote request) = none := by
  have hnew := h.not_requested hnone
  obtain ⟨hdigest, hnonce⟩ := checkPriorQuotes_ok hprior
  have hdigests : s.quoteRequestDigests.find? request.quoteRequestId = none := by
    rw [Option.eq_none_iff_forall_not_mem]
    intro prior hfound
    exact hnew (hdigest prior hfound ▸ h.digests prior (Table.mem_of_find? hfound))
  refine ⟨hdigests, ?_, ?_, ?_⟩
  · rw [Option.eq_none_iff_forall_not_mem]
    intro prior hfound
    exact hnew (hnonce prior hfound ▸ h.nonces prior (Table.mem_of_find? hfound))
  · rw [Option.eq_none_iff_forall_not_mem]
    intro prior hfound
    obtain ⟨hmem, hid⟩ := Table.find?_eq_some.mp hfound
    exact Table.find?_eq_none.mp hdigests _ (h.requested prior hmem).1 hid
  · rw [Option.eq_none_iff_forall_not_mem]
    intro quote hfound
    obtain ⟨hmem, hid⟩ := Table.find?_eq_some.mp hfound
    obtain ⟨prior, hprior, hquoteId, -⟩ := h.quoted quote hmem
    exact hnew (hfree.quote _ _ (hquoteId.symm.trans hid) ▸ Table.mem_of_find? hprior)

theorem Sound.free_usage (h : Sound ids s) (hfree : ids.CollisionFree) (quote : ι)
    {prepared attempt : String} (action : String)
    (hnone : s.usageByAttempt.find? (prepared, attempt) = none) :
    s.usage.find? (ids.usage quote prepared action attempt) = none := by
  rw [Option.eq_none_iff_forall_not_mem]
  intro record hfound
  obtain ⟨hmem, hid⟩ := Table.find?_eq_some.mp hfound
  obtain ⟨_, -, -, -, hattempt, action', hrecord⟩ := h.used record hmem
  obtain ⟨-, hprepared, -, hattemptId⟩ :=
    hfree.usage _ _ _ _ _ _ _ _ (hrecord.symm.trans hid)
  exact Table.find?_eq_none.mp hnone _ hattempt (by rw [hprepared, hattemptId])

theorem Sound.free_reconciliation (h : Sound ids s) (hfree : ids.CollisionFree) {usage : ι}
    (settlement : String) (evidence : BillingEvidence ι)
    (hnone : s.reconciliationByUsage.find? usage = none) :
    s.reconciliations.find? (ids.reconciliation settlement usage evidence) = none := by
  rw [Option.eq_none_iff_forall_not_mem]
  intro record hfound
  obtain ⟨hmem, hid⟩ := Table.find?_eq_some.mp hfound
  obtain ⟨⟨entry, hentry, hkey, -⟩, hrecord⟩ := h.reconciled record hmem
  obtain ⟨-, husage, -⟩ := hfree.reconciliation _ _ _ _ _ _ (hrecord.symm.trans hid)
  exact Table.find?_eq_none.mp hnone entry hentry (hkey.trans husage)

/-! ## Runs -/

theorem Sound.enters (h : Sound ids s) (hfree : ids.CollisionFree) {call : Call ι}
    {record : Record ι} {s' : Books ι} (henters : Enters ids market now s call record s') :
    Sound ids s' ∧ Grows s s' := by
  cases henters with
  | @quote request quote hrequest hprior hnone hquote =>
    obtain ⟨hid, hrequestId, hnonce, hmaximum⟩ := newQuote_ok hquote
    obtain ⟨hdigests, hnonces, hrequests, hquotes⟩ := h.free_quote hfree hprior hnone
    rw [← hid] at hquotes
    have hgrows : Grows s (s.addQuote request quote) :=
      { Grows.refl s with
        quoteRequests := Table.extends_assign hrequests
        quotes := Table.extends_assign hquotes }
    refine ⟨?_, hgrows⟩
    constructor
    case quoted =>
      intro q hq
      rcases (Table.mem_assign_of_none hquotes).mp hq with hq | rfl
      · obtain ⟨r, hr, hrest⟩ := h.quoted q hq
        exact ⟨r, hgrows.quoteRequests.find? hr, hrest⟩
      · refine ⟨request, ?_, hid, hnonce, inputBytes_le hrequest, hmaximum⟩
        rw [hrequestId]
        exact Table.find?_assign_of_none hrequests
    case requested =>
      intro r hr
      rcases (Table.mem_assign_of_none hrequests).mp hr with hr | rfl
      · obtain ⟨hdigest, hnonce', q, hq, hqid⟩ := h.requested r hr
        exact ⟨Table.extends_assign hdigests _ hdigest, Table.extends_assign hnonces _ hnonce', q,
          hgrows.quotes q hq, hqid⟩
      · exact ⟨(Table.mem_assign_of_none hdigests).mpr (.inr rfl),
          (Table.mem_assign_of_none hnonces).mpr (.inr rfl), quote,
          (Table.mem_assign_of_none hquotes).mpr (.inr rfl), hrequestId⟩
    case digests =>
      intro entry hentry
      rcases (Table.mem_assign_of_none hdigests).mp hentry with hentry | rfl
      · exact hgrows.quoteRequests _ (h.digests entry hentry)
      · exact (Table.mem_assign_of_none hrequests).mpr (.inr rfl)
    case nonces =>
      intro entry hentry
      rcases (Table.mem_assign_of_none hnonces).mp hentry with hentry | rfl
      · exact hgrows.quoteRequests _ (h.nonces entry hentry)
      · exact (Table.mem_assign_of_none hrequests).mpr (.inr rfl)
    case used =>
      intro u hu
      obtain ⟨q, hq, hrest⟩ := h.used u hu
      exact ⟨q, hgrows.quotes q hq, hrest⟩
    case reconciled => exact h.reconciled
    case observed => exact h.observed
    case observedOnce => exact h.observedOnce
  | @statement request quote quoteRequest statement hquote hrequest hchecked hnone hstatement =>
    obtain ⟨hid, hquoteId, hprepared, hattempt, hamount⟩ := newStatement_ok hstatement
    have husage : s.usage.find? statement.usageStatementId = none :=
      hid ▸ h.free_usage hfree _ _ hnone
    have hgrows : Grows s (s.addUsage request
        (request.actualInputBytes.getD quoteRequest.inputBytes) statement) :=
      { Grows.refl s with
        usage := Table.extends_assign husage
        usageByAttempt := Table.extends_assign hnone }
    refine ⟨{ h with used := ?_ }, hgrows⟩
    intro u hu
    rcases (Table.mem_assign_of_none husage).mp hu with hu | rfl
    · obtain ⟨q, hq, hqid, hle, hattempts, hrest⟩ := h.used u hu
      exact ⟨q, hq, hqid, hle, hgrows.usageByAttempt _ hattempts, hrest⟩
    · obtain ⟨hquoteMem, hquoteKey⟩ := Table.find?_eq_some.mp hquote
      obtain ⟨r, hr, -, -, hbound, hmaximum⟩ := h.quoted quote hquoteMem
      cases hrequest.symm.trans hr
      refine ⟨quote, hquoteMem, hquoteKey.trans hquoteId.symm, ?_, ?_, request.actionId, ?_⟩
      · rw [hamount, hmaximum]
        exact calculatedAmount_le (checkUsage_ok.mp hchecked).2.2.2 hbound
      · rw [hprepared, hattempt]
        exact (Table.mem_assign_of_none hnone).mpr (.inr rfl)
      · rw [hid, hquoteId, hprepared, hattempt]
  | @reconciliation request usage expected record husage hnone hrecord =>
    obtain ⟨hid, hevidence, hsettlement⟩ := newReconciliation_ok hrecord
    have hrecords : s.reconciliations.find? record.reconciliationId = none :=
      hid ▸ h.free_reconciliation hfree _ _ hnone
    have hgrows : Grows s (s.addReconciliation request record) :=
      { Grows.refl s with
        reconciliations := Table.extends_assign hrecords
        reconciliationByUsage := Table.extends_assign hnone }
    have hadded : record ∈ (s.addReconciliation request record).reconciliations :=
      (Table.mem_assign_of_none hrecords).mpr (.inr rfl)
    have hsound : Sound ids (s.addReconciliation request record) := by
      refine { h with
        reconciled := fun r hr => ?_
        observed := fun o ho => ?_ }
      · rcases (Table.mem_assign_of_none hrecords).mp hr with hr | rfl
        · obtain ⟨⟨entry, hentry, hkey⟩, hrest⟩ := h.reconciled r hr
          exact ⟨⟨entry, hgrows.reconciliationByUsage _ hentry, hkey⟩, hrest⟩
        · refine ⟨⟨_, (Table.mem_assign_of_none hnone).mpr (.inr rfl), hevidence.symm, rfl⟩, ?_⟩
          rw [hsettlement, hevidence]
          exact hid
      · obtain ⟨r, hr, hrid⟩ := h.observed o ho
        exact ⟨r, hgrows.reconciliations r hr, hrid⟩
    by_cases hvalid : request.taskValid
    · rw [if_pos hvalid]
      -- the observation is named after a record that was not there
      refine ⟨{ hsound with observed := fun o ho => ?_, observedOnce := ?_ }, { hgrows with }⟩
      · rcases List.mem_append.mp ho with ho | ho
        · exact hsound.observed o ho
        · exact ⟨record, hadded, by rw [List.mem_singleton.mp ho]⟩
      · simp only [Books.observe, Books.addReconciliation, List.map_append, List.map_cons,
          List.map_nil]
        refine List.nodup_append_comm.mp (List.nodup_cons.mpr ⟨fun hold => ?_, h.observedOnce⟩)
        obtain ⟨o, ho, hoid⟩ := List.mem_map.mp hold
        obtain ⟨r, hr, hrid⟩ := h.observed o ho
        exact Table.find?_eq_none.mp hrecords r hr (hrid.trans hoid)
    · rw [if_neg hvalid]
      exact ⟨hsound, hgrows⟩

theorem Sound.step (h : Sound ids s) (hfree : ids.CollisionFree) (call : ℤ × Call ι) :
    Sound ids (step ids market s call) ∧ Grows s (step ids market s call) := by
  unfold Market.step
  rcases run_cases ids market call.1 s call.2 with ⟨e, heq⟩ | ⟨r, heq⟩ | ⟨r, s', henters, heq⟩
  · rw [heq]
    exact ⟨h, .refl s⟩
  · rw [heq]
    exact ⟨h, .refl s⟩
  · rw [heq]
    exact h.enters hfree henters

theorem Sound.run (h : Sound ids s) (hfree : ids.CollisionFree) (calls : List (ℤ × Call ι)) :
    Sound ids (run (Market.step ids market) s calls) ∧
      Grows s (run (Market.step ids market) s calls) := by
  refine @run_invariant _ _ _ (fun s' => Sound ids s' ∧ Grows s s') ?_ s calls ⟨h, .refl s⟩
  intro s' call ⟨hsound, hgrows⟩
  obtain ⟨hsound', hgrows'⟩ := hsound.step hfree call
  exact ⟨hsound', hgrows.trans hgrows'⟩

/-! ## Repeated calls -/

structure Recorded (s : Books ι) (request : UsageStatementRequest ι) (statement : UsageStatement ι)
    (quote : BoundedQuote ι) (quoteRequest : QuoteRequestV2) : Prop where
  hquote : s.quotes.find? request.quoteId = some quote
  hrequest : s.quoteRequests.find? quote.quoteRequestId = some quoteRequest
  hrecord : ∃ attempt record,
    s.usageByAttempt.find? (request.preparedId, request.attemptId) = some attempt ∧
    s.usage.find? attempt.2 = some record ∧ record.request = request ∧
    record.statement = statement

theorem Recorded.mono {request : UsageStatementRequest ι} {statement : UsageStatement ι}
    {quote : BoundedQuote ι} {quoteRequest : QuoteRequestV2} {s' : Books ι} (hgrows : Grows s s')
    (h : Recorded s request statement quote quoteRequest) :
    Recorded s' request statement quote quoteRequest where
  hquote := hgrows.quotes.find? h.hquote
  hrequest := hgrows.quoteRequests.find? h.hrequest
  hrecord := by
    obtain ⟨attempt, record, hattempt, hrecord, hrest⟩ := h.hrecord
    exact ⟨attempt, record, hgrows.usageByAttempt.find? hattempt, hgrows.usage.find? hrecord, hrest⟩

theorem Sound.recorded (h : Sound ids s) (hfree : ids.CollisionFree)
    {request : UsageStatementRequest ι} {statement : UsageStatement ι}
    (hfirst : (issueUsageStatement ids market now request s).1 = .returned statement) :
    ∃ quote quoteRequest, checkUsage now request quote quoteRequest = .ok () ∧
      Recorded (issueUsageStatement ids market now request s).2 request statement quote
        quoteRequest := by
  rcases issueUsageStatement_cases ids market now s request with
    ⟨e, heq⟩ | ⟨quote, quoteRequest, hquote, hrequest, hchecked,
      ⟨attempt, record, hattempt, hrecord, hsame, heq⟩ | ⟨new, hnone, hnew, heq⟩⟩
  · rw [heq] at hfirst
    cases hfirst
  · rw [heq] at hfirst ⊢
    cases hfirst
    exact ⟨quote, quoteRequest, hchecked, hquote, hrequest, attempt, record, hattempt, hrecord,
      hsame, rfl⟩
  · rw [heq] at hfirst ⊢
    cases hfirst
    have husage : s.usage.find? statement.usageStatementId = none :=
      (newStatement_ok hnew).1 ▸ h.free_usage hfree _ _ hnone
    exact ⟨quote, quoteRequest, hchecked, hquote, hrequest, _, _,
      Table.find?_assign_of_none hnone, Table.find?_assign_of_none husage, rfl, rfl⟩

theorem Recorded.issue {request : UsageStatementRequest ι} {statement : UsageStatement ι}
    {quote : BoundedQuote ι} {quoteRequest : QuoteRequestV2}
    (h : Recorded s request statement quote quoteRequest) :
    (issueUsageStatement ids market now request s).1 = .returned statement ↔
      checkUsage now request quote quoteRequest = .ok () := by
  obtain ⟨attempt, record, hattempt, hrecord, hsame, rfl⟩ := h.hrecord
  unfold issueUsageStatement
  simp only [check_bind, get_bind, h.hquote, h.hrequest, require]
  cases checkUsage now request quote quoteRequest with
  | error e => simp
  | ok _ => simp [hattempt, hrecord, check_bind, raiseIf, hsame, pure_run]

/-- A statement is issued again unless its start is taken from a clock that is past the quote. -/
theorem Sound.issue_again_iff (h : Sound ids s) (hfree : ids.CollisionFree)
    {request : UsageStatementRequest ι} {statement : UsageStatement ι}
    (hfirst : (issueUsageStatement ids market now request s).1 = .returned statement) {later : ℤ}
    (hlater : now ≤ later) {s' : Books ι}
    (hgrows : Grows (issueUsageStatement ids market now request s).2 s') {quote : BoundedQuote ι}
    (hquote : s'.quotes.find? request.quoteId = some quote) :
    (issueUsageStatement ids market later request s').1 = .returned statement ↔
      request.startedAt ≠ none ∨ later < quote.expiresAt := by
  obtain ⟨first, quoteRequest, hchecked, hrecorded⟩ := h.recorded hfree hfirst
  have hrecorded' := hrecorded.mono hgrows
  cases hquote.symm.trans hrecorded'.hquote
  obtain ⟨haction, ⟨hstarted, hcompleted⟩, hlive, hbytes⟩ := checkUsage_ok.mp hchecked
  rw [hrecorded'.issue, checkUsage_ok]
  have hcompleted' : request.completedAt.getD later ≤ later := by
    cases hc : request.completedAt with
    | none => simp
    | some completed =>
      rw [hc, Option.getD_some] at hcompleted
      exact hcompleted.trans hlater
  cases hs : request.startedAt with
  | none =>
    rw [Option.getD_none]
    exact ⟨fun ⟨_, _, hlate, _⟩ => .inr hlate,
      fun hlate => ⟨haction, ⟨le_rfl, hcompleted'⟩, hlate.resolve_left fun hne => hne rfl, hbytes⟩⟩
  | some started =>
    rw [hs, Option.getD_some] at hstarted hlive
    exact ⟨fun _ => .inl nofun,
      fun _ => ⟨haction, ⟨hstarted.trans hlater, hcompleted'⟩, hlive, hbytes⟩⟩

theorem Sound.reconcile_again (h : Sound ids s) (hfree : ids.CollisionFree)
    {request : ReconciliationRequest ι} {record : BillingReconciliation ι}
    (hfirst : (reconcile ids now request s).1 = .returned record) (later : ℤ) {s' : Books ι}
    (hgrows : Grows (reconcile ids now request s).2 s') :
    (reconcile ids later request s').1 = .returned record := by
  have hfound : ∃ usage expected entry, request.billedAmount.currency = settlementCurrency ∧
      s'.usage.find? request.usageStatementId = some usage ∧
      checkReconciliation request usage = .ok expected ∧
      s'.reconciliationByUsage.find? request.usageStatementId = some entry ∧
      entry.2.2 = request ∧ s'.reconciliations.find? entry.2.1 = some record := by
    rcases reconcile_cases ids now s request with
      ⟨e, heq⟩ | ⟨usage, expected, hcurrency, husage, hchecked,
        ⟨entry, found, hentry, hsame, hrecord, heq⟩ | ⟨new, hnone, hnew, heq⟩⟩
    · rw [heq] at hfirst
      cases hfirst
    · rw [heq] at hfirst hgrows
      cases hfirst
      exact ⟨usage, expected, entry, hcurrency, hgrows.usage.find? husage, hchecked,
        hgrows.reconciliationByUsage.find? hentry, hsame, hgrows.reconciliations.find? hrecord⟩
    · rw [heq] at hfirst hgrows
      cases hfirst
      have hrecords : s.reconciliations.find? record.reconciliationId = none :=
        (newReconciliation_ok hnew).1 ▸ h.free_reconciliation hfree _ _ hnone
      have hgrows' : Grows (s.addReconciliation request record) s' := by
        split at hgrows
        · exact { hgrows with }
        · exact hgrows
      exact ⟨usage, expected, _, hcurrency, hgrows'.usage.find? husage, hchecked,
        hgrows'.reconciliationByUsage.find? (Table.find?_assign_of_none hnone), rfl,
        hgrows'.reconciliations.find? (Table.find?_assign_of_none hrecords)⟩
  obtain ⟨usage, expected, entry, hcurrency, husage, hchecked, hentry, hsame, hrecord⟩ := hfound
  unfold reconcile
  simp [check_bind, get_bind, raiseIf, hcurrency, husage, require, hchecked, hentry, hsame, hrecord,
    check]

/-! ## Every run -/

/-- Over every run the books keep to one record each and a refused call changes nothing. A repeated
reconciliation returns the first record, and so does a repeated statement if and only if its request
says when the usage started or the quote is still valid. -/
theorem books_of_run (market : ReferenceMarket) (hfree : ids.CollisionFree)
    (calls : List (ℤ × Call ι)) :
    Kept (run (step ids market) (.empty ι) calls) ∧
    (∀ now call e, (Call.run ids market now call
        (run (step ids market) (.empty ι) calls)).1 = .raised e →
      (Call.run ids market now call (run (step ids market) (.empty ι) calls)).2 =
        run (step ids market) (.empty ι) calls) ∧
    (∀ now request statement s, issueUsageStatement ids market now request
        (run (step ids market) (.empty ι) calls) = (.returned statement, s) →
      ∀ after later, now ≤ later →
        ∃ quote, (run (step ids market) s after).quotes.find? request.quoteId = some quote ∧
          ((issueUsageStatement ids market later request (run (step ids market) s after)).1 =
              .returned statement ↔ request.startedAt ≠ none ∨ later < quote.expiresAt)) ∧
    ∀ now request record s, reconcile ids now request
        (run (step ids market) (.empty ι) calls) = (.returned record, s) →
      ∀ after later, (reconcile ids later request (run (step ids market) s after)).1 =
        .returned record := by
  have hempty : Sound ids (Books.empty ι) := .empty
  have hsound : Sound ids (run (step ids market) (.empty ι) calls) := (hempty.run hfree calls).1
  generalize run (step ids market) (.empty ι) calls = s₀ at hsound ⊢
  refine ⟨hsound.kept, fun _ _ _ => refused_unchanged, ?_, ?_⟩
  · intro now request statement s heq after later hlater
    have hstep : step ids market s₀ (now, .issueUsageStatement request) = s := by
      have hrun := map_run (m := issueUsageStatement ids market now request)
        (f := Record.statement) (s := s₀)
      rw [heq] at hrun
      exact congrArg Prod.snd hrun
    have hsound' : Sound ids s := hstep ▸ (hsound.step hfree _).1
    have hgrows : Grows s (run (step ids market) s after) := (hsound'.run hfree after).2
    have hfirst : (issueUsageStatement ids market now request s₀).1 = .returned statement := by
      rw [heq]
    have hlast : (issueUsageStatement ids market now request s₀).2 = s := by rw [heq]
    obtain ⟨quote, _, -, hrecorded⟩ := hsound.recorded hfree hfirst
    rw [← hlast] at hgrows
    refine ⟨quote, ?_, ?_⟩
    · rw [← hlast]
      exact (hrecorded.mono hgrows).hquote
    · rw [← hlast]
      exact hsound.issue_again_iff hfree hfirst hlater hgrows (hrecorded.mono hgrows).hquote
  · intro now request record s heq after later
    have hstep : step ids market s₀ (now, .reconcile request) = s := by
      have hrun := map_run (m := reconcile ids now request) (f := Record.reconciliation) (s := s₀)
      rw [heq] at hrun
      exact congrArg Prod.snd hrun
    have hsound' : Sound ids s := hstep ▸ (hsound.step hfree _).1
    have hfirst : (reconcile ids now request s₀).1 = .returned record := by rw [heq]
    have hlast : (reconcile ids now request s₀).2 = s := by rw [heq]
    refine hsound.reconcile_again hfree hfirst later ?_
    rw [hlast]
    exact (hsound'.run hfree after).2

end Calls

/-! ## A retry -/

/-- Names that say what they are of. -/
inductive Name where
  | quote (request : QuoteRequestV2)
  | usage (quote : Name) (preparedId actionId attemptId : String)
  | reconciliation (settlementId : String) (usage : Name) (evidenceSettlementId : String)
      (evidenceUsage : Name) (invoiceReference billingRecordReference : Option String)
      (billedAmount : CurrencyAmount)
  deriving DecidableEq

def recordNames : RecordIds Name where
  quote := .quote
  usage := .usage
  reconciliation settlement usage evidence :=
    .reconciliation settlement usage evidence.settlementId evidence.usageStatementId
      evidence.invoiceReference evidence.billingRecordReference evidence.billedAmount

theorem recordNames_collisionFree : recordNames.CollisionFree where
  quote _ _ h := Name.quote.inj h
  usage _ _ _ _ _ _ _ _ h := Name.usage.inj h
  reconciliation _ _ evidence _ _ evidence' h := by
    obtain ⟨hsettlement, husage, h₁, h₂, h₃, h₄, h₅⟩ := Name.reconciliation.inj h
    refine ⟨hsettlement, husage, ?_⟩
    cases evidence
    cases evidence'
    simp_all

def tenMinutes : ReferenceMarket := ⟨"sha256:reference", 600, by decide⟩

/-- A quote for a kibibyte, valid for an hour. -/
def kibibyteRequest : QuoteRequestV2 where
  quoteRequestId := "request_1"
  actionId := "act_1"
  capability := capability
  executorId := executorId
  executorFingerprint := "sha256:reference"
  actionDigest := "sha256:action"
  inputBytes := 1024
  otherFeatures := ""
  disclosedQuoteFeatures := [("input_bytes", .int 1024)]
  desiredCurrency := "USD"
  maximumAcceptableAmount := none
  nonce := "nonce_0001"
  createdAt := 0
  expiresAt := 3600 * second

/-- A successful use of it, at a given time if any. -/
def usageAt (startedAt : Option ℤ) : UsageStatementRequest Name where
  quoteId := .quote kibibyteRequest
  preparedId := "prepared_1"
  actionId := "act_1"
  attemptId := "attempt_1"
  executionStatus := .success
  actualInputBytes := none
  startedAt := startedAt
  completedAt := none
  ordered_times := nofun

/-- The market after the quote and the statement of a use a minute later. -/
def usedMarket (startedAt : Option ℤ) : Ending Refusal (UsageStatement Name) × Books Name :=
  issueUsageStatement recordNames tenMinutes (60 * second) (usageAt startedAt)
    (run (step recordNames tenMinutes) (.empty Name) [(0, .requestQuote kibibyteRequest)])

/-- What a call returned. -/
def answered {α : Type} : Ending Refusal α → Option α
  | .returned a => some a
  | _ => none

theorem exists_of_answered {α σ : Type} {r : Ending Refusal α × σ} (h : (answered r.1).isSome) :
    ∃ a s, r = (.returned a, s) := by
  rcases r with ⟨_ | _ | _, s⟩
  · exact ⟨_, _, rfl⟩
  · cases h
  · cases h

theorem books_of_used_market :
    Kept (run (step recordNames tenMinutes) (.empty Name) [(0, .requestQuote kibibyteRequest)]) ∧
    ∃ statement s, usedMarket (some (60 * second)) = (.returned statement, s) ∧
      (issueUsageStatement recordNames tenMinutes (601 * second) (usageAt (some (60 * second)))
        s).1 = .returned statement := by
  obtain ⟨hkept, -, hissue, -⟩ :=
    books_of_run tenMinutes recordNames_collisionFree [(0, .requestQuote kibibyteRequest)]
  obtain ⟨statement, s, hused⟩ : ∃ statement s,
      usedMarket (some (60 * second)) = (.returned statement, s) :=
    exists_of_answered (by decide +kernel)
  obtain ⟨quote, -, hiff⟩ := hissue _ _ statement s hused [] (601 * second) (by decide)
  exact ⟨hkept, statement, s, hused, hiff.mpr (.inl (by decide))⟩

/-- A statement whose start was left out was issued, and is refused ten minutes later. -/
theorem retry_refused :
    (answered (usedMarket none).1).map (·.startedAt) = some (60 * second) ∧
    issueUsageStatement recordNames tenMinutes (601 * second) (usageAt none) (usedMarket none).2 =
      (.raised (.market 410 "expired_quote" "quote expired before invocation"),
        (usedMarket none).2) := by
  decide +kernel

end AeepRouter.Market

import AeepRouter.Store.Links

/-!
# Quotes and their nonces

A quote answers a request and carries its nonce. `saveBoundedQuote` imports a quote as evidence;
`saveBoundedQuoteAndUseNonce` also records the one use of its nonce, in the same transaction.
`markQuoteNonceUsed` records a use under the foreign keys alone, and a reservation looks at the quote
it rests on and not at its nonce. `consumed_quotes` says what holds of the runs that make good for
both.
-/

namespace AeepRouter

open Lib

/-- The fields of a quote request that the store checks or keeps unique. -/
structure QuoteRequestV2 where
  quoteRequestId : String
  capability : String
  executorId : String
  executorFingerprint : String
  actionDigest : String
  desiredCurrency : String
  nonce : String
  expiresAt : Int
  rest : String
  deriving DecidableEq

structure RequestedQuote extends BoundedQuote where
  quoteRequestId : String
  offerId : Option String
  nonce : String
  deriving DecidableEq

def RequestedQuote.key (quote : RequestedQuote) : String := quote.quoteId

def QuoteRequestV2.expects (request : QuoteRequestV2) (quote : RequestedQuote) : Prop :=
  request.capability = quote.capability ∧ request.executorId = quote.executorId ∧
    request.executorFingerprint = quote.executorFingerprint ∧
    request.actionDigest = quote.actionDigest ∧ request.nonce = quote.nonce ∧
    request.desiredCurrency = quote.maximumAmount.currency

instance (request : QuoteRequestV2) (quote : RequestedQuote) :
    Decidable (request.expects quote) := by
  unfold QuoteRequestV2.expects; infer_instance

/-- A row of `quote_nonce_uses`. -/
structure NonceUse where
  nonce : String
  quoteRequestId : String
  quoteId : String
  actionDigest : String
  usedAt : Int
  deriving DecidableEq, Repr

def RequestedQuote.use (quote : RequestedQuote) (usedAt : Int) : NonceUse :=
  ⟨quote.nonce, quote.quoteRequestId, quote.quoteId, quote.actionDigest, usedAt⟩

/-- The quotes as the payment operations read them. -/
def boundedQuotes (quotes : Table RequestedQuote RequestedQuote.key) :
    Table BoundedQuote (·.quoteId) where
  rows := quotes.rows.map (·.toBoundedQuote)
  nodup := by
    rw [List.map_map]
    exact quotes.nodup

theorem find?_boundedQuotes (quotes : Table RequestedQuote RequestedQuote.key) (quoteId : String) :
    (boundedQuotes quotes).find? quoteId = (quotes.find? quoteId).map (·.toBoundedQuote) :=
  List.find?_map ..

/-- The payment tables with the tables of quotes. -/
structure QuoteStore where
  payments : Store
  requests : Table QuoteRequestV2 (·.quoteRequestId)
  quotes : Table RequestedQuote RequestedQuote.key
  uses : Table NonceUse (·.nonce)

namespace QuoteStore

variable (s : QuoteStore)

def empty : QuoteStore := ⟨.empty, ∅, ∅, ∅⟩

/-- The store the payment operations run on. -/
def store : Store :=
  { s.payments with evidence :=
      { s.payments.evidence with boundedQuotes := boundedQuotes s.quotes } }

/-! ## The operations -/

/-- The requests two of which one unique column forbids side by side. -/
def nonceClash (a b : QuoteRequestV2) : Prop := a.nonce = b.nonce

instance : DecidableRel nonceClash := fun _ _ => by unfold nonceClash; infer_instance

def saveQuoteRequestV2 (request : QuoteRequestV2) : Result QuoteStore := do
  let requests ← immutableInsert "quote_requests_v2" id nonceClash s.requests request
  pure { s with requests := requests }

/-- The foreign keys of a quote. -/
def admitsQuote (quote : RequestedQuote) : Prop :=
  (s.requests.find? quote.quoteRequestId).isSome ∧
    ∀ offerId ∈ quote.offerId, (s.payments.evidence.capabilityOffers.find? offerId).isSome

instance (quote : RequestedQuote) : Decidable (s.admitsQuote quote) := by
  unfold admitsQuote; infer_instance

/-- The immutable insertion of a quote, with the text of a broken foreign key. -/
def insertQuote (quote : RequestedQuote) (message : String) : Result QuoteStore := do
  refuseIf ((s.quotes.find? quote.quoteId).isNone ∧ ¬ s.admitsQuote quote) message
  let quotes ← immutableInsert "bounded_quotes" id (fun _ _ => False) s.quotes quote
  pure { s with quotes := quotes }

def saveBoundedQuote (quote : RequestedQuote) : Result QuoteStore :=
  s.insertQuote quote "immutable bounded_quotes violates its evidence bindings"

def saveBoundedQuoteAndUseNonce (quote : RequestedQuote) (usedAt : Int) : Result QuoteStore := do
  let request ← demand (s.requests.find? quote.quoteRequestId)
    "bounded quote request does not exist"
  refuseIf (¬ request.expects quote)
    "bounded quote does not match its request bindings"
  let s ← s.insertQuote quote "bounded quote violates its request or nonce binding"
  match s.uses.find? quote.nonce with
  | some existing => do
    refuseIf (existing ≠ quote.use usedAt) ("quote nonce '" ++ quote.nonce ++ "' was already used")
    pure s
  | none => pure { s with uses := s.uses.insert (quote.use usedAt) }

def markQuoteNonceUsed (use : NonceUse) : Result QuoteStore := do
  refuseIf ((s.uses.find? use.nonce).isSome ∨ (s.requests.find? use.quoteRequestId).isNone ∨
      (s.quotes.find? use.quoteId).isNone)
    ("quote nonce '" ++ use.nonce ++ "' was already used or is invalid")
  pure { s with uses := s.uses.insert use }

def prunable (expiredBefore : Int) : List QuoteRequestV2 :=
  (s.requests.rows.filter fun request => request.expiresAt < expiredBefore ∧
    ∀ quote ∈ s.quotes.rows, quote.quoteRequestId ≠ request.quoteRequestId).insertionSort
      fun a b => a.expiresAt ≤ b.expiresAt

def pruneExpiredQuoteRequests (expiredBefore limit : Int) : Result QuoteStore := do
  let pruned := (s.prunable expiredBefore).take (max 1 (min limit 10000)).toNat
  raiseIf (∃ request ∈ pruned, ∃ use ∈ s.uses.rows, use.quoteRequestId = request.quoteRequestId)
    .integrity
  pure { s with requests :=
    pruned.foldl (fun requests request => requests.erase request.quoteRequestId) s.requests }

inductive Op where
  | saveQuoteRequest (request : QuoteRequestV2)
  | saveBoundedQuote (quote : RequestedQuote)
  | saveBoundedQuoteAndUseNonce (quote : RequestedQuote) (usedAt : Int)
  | markQuoteNonceUsed (use : NonceUse)
  | pruneExpiredQuoteRequests (expiredBefore limit : Int)
  | payment (op : StoreOp)

def exec (crypto : Crypto) : Op → Result QuoteStore
  | .saveQuoteRequest request => s.saveQuoteRequestV2 request
  | .saveBoundedQuote quote => QuoteStore.saveBoundedQuote s quote
  | .saveBoundedQuoteAndUseNonce quote usedAt =>
    QuoteStore.saveBoundedQuoteAndUseNonce s quote usedAt
  | .markQuoteNonceUsed use => QuoteStore.markQuoteNonceUsed s use
  | .pruneExpiredQuoteRequests expiredBefore limit =>
    QuoteStore.pruneExpiredQuoteRequests s expiredBefore limit
  | .payment op => (op.exec crypto s.store).map fun result => { s with payments := result.2 }

/-- The store after an operation, which a failure leaves as it was. -/
def step (crypto : Crypto) (s : QuoteStore) (op : Op) : QuoteStore :=
  (s.exec crypto op).toOption.getD s

theorem step_of_rejected {crypto : Crypto} {op : Op} (h : ¬ (s.exec crypto op).isOk) :
    step crypto s op = s := by
  unfold step
  cases hexec : s.exec crypto op with
  | error e => rfl
  | ok s' =>
    rw [hexec] at h
    exact absurd rfl h

/-! ## The law -/

def quoted (reservation : PaymentReservationV2) : Prop := reservation.basis.kind = .signedQuote

instance : DecidablePred quoted := fun _ => by unfold quoted; infer_instance

/-- The uses of nonces and the reservations on quotes agree with the quotes. -/
structure Lawful : Prop where
  named : ∀ use ∈ s.uses, ∃ quote ∈ s.quotes, quote.quoteId = use.quoteId ∧ quote.nonce = use.nonce
  once : ∀ use ∈ s.uses, ∀ other ∈ s.uses, use.quoteId = other.quoteId → use = other
  consumed : ∀ reservation ∈ s.store.payloads, quoted reservation → ∃ quote ∈ s.quotes,
    quote.quoteId = reservation.basis.id ∧ ∃ use ∈ s.uses, use.nonce = quote.nonce
  oneReservation : ∀ reservation ∈ s.store.payloads, ∀ other ∈ s.store.payloads,
    quoted reservation → quoted other → reservation.basis.id = other.basis.id → reservation = other

/-- A nonce without a use is marked as used for a quote that carries it, and a quote without a
reservation is reserved only when its nonce was used. -/
def Consumes : Op → Prop
  | .markQuoteNonceUsed use => s.uses.find? use.nonce = none →
    (s.requests.find? use.quoteRequestId).isSome →
      ∀ quote ∈ s.quotes.find? use.quoteId, quote.nonce = use.nonce
  | .payment (.reservePayment call) => quoted call.reservation →
    s.store.existingReservation call.reservation = none →
      ∀ quote ∈ s.quotes.find? call.reservation.basis.id, (s.uses.find? quote.nonce).isSome
  | _ => True

/-! ## What a transaction on the payment tables reserves -/

section Payments

variable {crypto : Crypto} {t t' : Store}

theorem authorizeReservation_quote {evidence : Evidence} {decision : PreparedRouteDecision}
    {reservation : PaymentReservationV2} {maximum : CurrencyAmount} (hquoted : quoted reservation)
    (h : evidence.authorizeReservation crypto decision reservation = .ok maximum) :
    (evidence.boundedQuotes.find? reservation.basis.id).isSome := by
  rw [quoted] at hquoted
  simp only [Evidence.authorizeReservation, hquoted, bind_ok, require_ok] at h
  obtain ⟨quote, hquote, -⟩ := h
  rw [hquote]
  rfl

/-- A new reservation is on an authority that was found. -/
theorem reservePaymentV2_quote {call : ReserveCall} {result : PaymentReservationV2}
    (habsent : t.existingReservation call.reservation = none) (hquoted : quoted call.reservation)
    (h : reservePaymentV2 crypto call t = .ok (result, t')) :
    (t.evidence.boundedQuotes.find? call.reservation.basis.id).isSome := by
  simp only [reservePaymentV2, habsent, bind_ok, require_ok, raiseIf_ok, exists_const] at h
  obtain ⟨-, -, prepared, -, -, -, ⟨-, -, maximum, hmaximum, -⟩, -⟩ := h
  exact authorizeReservation_quote hquoted hmaximum

/-- A successful transaction reserves nothing, or what a `reservePayment` asks for. -/
theorem exec_payloads {op : StoreOp} {u : Unit} (h : op.exec crypto t = .ok (u, t')) :
    t'.payloads = t.payloads ∨ ∃ call prepared, op = .reservePayment call ∧
      t'.payloads = t.payloads ++ [call.reservation] ∧ call.Admitted t prepared := by
  have hsteps : Steps (fun start other => start = t ∧ other = op) t t' :=
    op.exec_steps ⟨rfl, rfl⟩ h
  clear h
  induction hsteps with
  | refl => exact .inl rfl
  | @tail mid last _ hstep ih =>
    have hsame : last.payloads = mid.payloads → last.payloads = t.payloads ∨ ∃ call prepared,
        op = .reservePayment call ∧ last.payloads = t.payloads ++ [call.reservation] ∧
          call.Admitted t prepared := fun heq => by rw [heq]; exact ih
    cases hstep with
    | evidence | keys | saved | claimed | moved | authorized | suspended | released =>
      exact hsame rfl
    | held call prepared hP hadm =>
      obtain ⟨rfl, rfl⟩ := hP
      exact .inr ⟨call, prepared, rfl, Store.payloads_hold hadm.fresh, hadm⟩
    | heldAgain call prepared hP hadm =>
      obtain ⟨rfl, rfl⟩ := hP
      exact .inr ⟨call, prepared, rfl, Store.payloads_hold hadm.fresh, hadm⟩
    | changed | intended => exact hsame (Store.payloads_setReservation fun _ => rfl)
    | settled => exact hsame Store.payloads_settled
    | refunded refund _ _ hins =>
      obtain ⟨rfl, -⟩ | ⟨rfl, -⟩ := Store.insertRefundReceiptLocked_ok hins <;> exact hsame rfl
    | completed refund record middle _ _ _ _ hins =>
      obtain ⟨rfl, -⟩ | ⟨rfl, -⟩ := Store.insertRefundReceiptLocked_ok hins <;> exact hsame rfl

end Payments

/-! ## The law over runs -/

section Runs

variable {s} {s' : QuoteStore} {crypto : Crypto}

/-- What every operation keeps. -/
structure Sound (s : QuoteStore) : Prop where
  named : ∀ use ∈ s.uses, ∃ quote ∈ s.quotes, quote.quoteId = use.quoteId ∧ quote.nonce = use.nonce
  consumed : ∀ reservation ∈ s.payments.payloads, quoted reservation → ∃ quote ∈ s.quotes,
    quote.quoteId = reservation.basis.id ∧ ∃ use ∈ s.uses, use.nonce = quote.nonce
  oneReservation : ∀ reservation ∈ s.payments.payloads, ∀ other ∈ s.payments.payloads,
    quoted reservation → quoted other → reservation.basis.id = other.basis.id → reservation = other

theorem Sound.empty : Sound empty where
  named _ h := absurd h Table.not_mem_empty
  consumed _ h := absurd h List.not_mem_nil
  oneReservation _ h := absurd h List.not_mem_nil

theorem Sound.lawful (hs : s.Sound) : s.Lawful where
  named := hs.named
  once use huse other hother hsame := by
    obtain ⟨quote, hquote, hid, hnonce⟩ := hs.named use huse
    obtain ⟨quote', hquote', hid', hnonce'⟩ := hs.named other hother
    have heq : quote = quote' :=
      Table.eq_of_key_eq hquote hquote' (hid.trans (hsame.trans hid'.symm))
    refine Table.eq_of_key_eq huse hother ?_
    rw [← hnonce, ← hnonce', heq]
  consumed := hs.consumed
  oneReservation := hs.oneReservation

theorem Sound.grow (hs : s.Sound) (hpayments : s'.payments = s.payments)
    (hquotes : ∀ quote ∈ s.quotes, quote ∈ s'.quotes) (huses : ∀ use ∈ s.uses, use ∈ s'.uses)
    (hnew : ∀ use ∈ s'.uses, use ∈ s.uses ∨
      ∃ quote ∈ s'.quotes, quote.quoteId = use.quoteId ∧ quote.nonce = use.nonce) : s'.Sound where
  named use huse := by
    rcases hnew use huse with hold | hquote
    · obtain ⟨quote, hquote, hnames⟩ := hs.named use hold
      exact ⟨quote, hquotes quote hquote, hnames⟩
    · exact hquote
  consumed reservation hr hquoted := by
    obtain ⟨quote, hquote, hid, use, huse, hnonce⟩ :=
      hs.consumed reservation (hpayments ▸ hr) hquoted
    exact ⟨quote, hquotes quote hquote, hid, use, huses use huse, hnonce⟩
  oneReservation := by
    rw [hpayments]
    exact hs.oneReservation

theorem insertQuote_ok {quote : RequestedQuote} {message : String}
    (h : s.insertQuote quote message = .ok s') :
    s' = { s with quotes := s'.quotes } ∧ quote ∈ s'.quotes ∧
      ∀ other ∈ s.quotes, other ∈ s'.quotes := by
  simp only [insertQuote, bind_ok, raiseIf_ok, pure_ok, exists_const] at h
  obtain ⟨-, quotes, hins, rfl⟩ := h
  obtain ⟨rfl, other, hfound, hsame⟩ | ⟨rfl, hnone, -⟩ := immutableInsert_ok.mp hins
  · refine ⟨rfl, ?_, fun _ h => h⟩
    rw [id_eq, id_eq] at hsame
    exact hsame ▸ Table.mem_of_find? hfound
  · exact ⟨rfl, (Table.mem_insert hnone).mpr (.inr rfl), fun _ => Table.mem_insert_of_mem⟩

theorem Sound.saveAndUse (hs : s.Sound) {quote : RequestedQuote} {usedAt : Int}
    (h : s.saveBoundedQuoteAndUseNonce quote usedAt = .ok s') : s'.Sound := by
  simp only [saveBoundedQuoteAndUseNonce, bind_ok, require_ok, raiseIf_ok, exists_const] at h
  obtain ⟨request, -, -, t, hinsert, h⟩ := h
  obtain ⟨ht, hstored, hquotes⟩ := insertQuote_ok hinsert
  have huses : t.uses = s.uses := by rw [ht]
  have hpayments : t.payments = s.payments := by rw [ht]
  split at h
  · simp only [bind_ok, raiseIf_ok, pure_ok, exists_const] at h
    obtain ⟨-, rfl⟩ := h
    exact hs.grow hpayments hquotes (fun _ h => huses ▸ h) fun _ h => .inl (huses ▸ h)
  · cases h
    refine hs.grow hpayments hquotes (fun _ h => Table.mem_insert_of_mem (huses ▸ h)) ?_
    intro use huse
    rcases Table.mem_or_eq_of_mem_insert huse with hold | rfl
    · exact .inl (huses ▸ hold)
    · exact .inr ⟨quote, hstored, rfl, rfl⟩

theorem Sound.mark (hs : s.Sound) {use : NonceUse} (hop : s.Consumes (.markQuoteNonceUsed use))
    (h : s.markQuoteNonceUsed use = .ok s') : s'.Sound := by
  simp only [markQuoteNonceUsed, bind_ok, raiseIf_ok, pure_ok, exists_const, not_or,
    Option.isNone_iff_eq_none] at h
  obtain ⟨⟨hunused, hrequest, hknown⟩, rfl⟩ := h
  obtain ⟨quote, hquote⟩ := Option.ne_none_iff_exists'.mp hknown
  have hunused : s.uses.find? use.nonce = none := by simpa using hunused
  have hrequest : (s.requests.find? use.quoteRequestId).isSome := Option.isSome_iff_ne_none.mpr hrequest
  refine hs.grow rfl (fun _ h => h) (fun _ => Table.mem_insert_of_mem) ?_
  intro other hother
  rcases Table.mem_or_eq_of_mem_insert hother with hold | rfl
  · exact .inl hold
  · have hid : quote.key = other.quoteId := Table.key_of_find? hquote
    exact .inr ⟨quote, Table.mem_of_find? hquote, hid, hop hunused hrequest quote hquote⟩

/-- A transaction on the payment tables reserves a quote that is stored and was not reserved. -/
theorem Sound.payment (hs : s.Sound) {op : StoreOp} (hop : s.Consumes (.payment op)) {u : Unit}
    {t : Store} (h : op.exec crypto s.store = .ok (u, t)) :
    QuoteStore.Sound { s with payments := t } := by
  obtain hsame | ⟨call, prepared, rfl, happend, hadm⟩ := exec_payloads h
  · refine ⟨hs.named, ?_, ?_⟩
    · intro reservation hr
      exact hs.consumed reservation (hsame ▸ hr)
    · intro reservation hr other hother
      exact hs.oneReservation reservation (hsame ▸ hr) other (hsame ▸ hother)
  · have hmem : ∀ reservation ∈ t.payloads, reservation ∈ s.payments.payloads ∨
        reservation = call.reservation := by
      intro reservation hr
      rw [happend] at hr
      exact (List.mem_append.mp hr).imp_right List.mem_singleton.mp
    -- the unique column of the quotes
    have hfree : ∀ reservation ∈ s.payments.payloads, quoted reservation → quoted call.reservation →
        reservation.basis.id ≠ call.reservation.basis.id := by
      intro reservation hr hquoted hquoted' hsame
      obtain ⟨row, hrow, rfl⟩ := List.mem_map.mp hr
      have hleft : row.payload.quoteId = some row.payload.basis.id := if_pos hquoted
      have hright : call.reservation.quoteId = some call.reservation.basis.id := if_pos hquoted'
      refine hadm.unique row hrow (.inr (.inr (.inr ⟨?_, ?_⟩)))
      · rw [hleft]
        rfl
      · rw [hleft, hsame]
        exact hright.symm
    refine ⟨hs.named, ?_, ?_⟩
    · intro reservation hr hquoted
      rcases hmem reservation hr with hold | rfl
      · exact hs.consumed reservation hold hquoted
      · simp only [StoreOp.exec, StoreM.wrap_ok] at h
        obtain ⟨_, h, -⟩ := h
        have hfound := reservePaymentV2_quote hadm.absent hquoted h
        rw [show s.store.evidence.boundedQuotes = boundedQuotes s.quotes from rfl,
          find?_boundedQuotes, Option.isSome_map] at hfound
        obtain ⟨quote, hquote⟩ := Option.isSome_iff_exists.mp hfound
        obtain ⟨use, huse⟩ := Option.isSome_iff_exists.mp (hop hquoted hadm.absent quote hquote)
        have hid : quote.key = call.reservation.basis.id := Table.key_of_find? hquote
        exact ⟨quote, Table.mem_of_find? hquote, hid, use, Table.mem_of_find? huse,
          Table.key_of_find? huse⟩
    · intro reservation hr other hother hquoted hquoted' hid
      rcases hmem reservation hr with hold | rfl <;> rcases hmem other hother with hold' | rfl
      · exact hs.oneReservation reservation hold other hold' hquoted hquoted' hid
      · exact absurd hid (hfree reservation hold hquoted hquoted')
      · exact absurd hid.symm (hfree other hold' hquoted' hquoted)
      · rfl

theorem Sound.exec (hs : s.Sound) {op : Op} (hop : s.Consumes op)
    (h : s.exec crypto op = .ok s') : s'.Sound := by
  cases op with
  | saveQuoteRequest request =>
    simp only [QuoteStore.exec, saveQuoteRequestV2, bind_ok, pure_ok] at h
    obtain ⟨requests, -, rfl⟩ := h
    exact hs.grow rfl (fun _ h => h) (fun _ h => h) fun _ => .inl
  | saveBoundedQuote quote =>
    obtain ⟨heq, -, hquotes⟩ := insertQuote_ok h
    have huses : s'.uses = s.uses := by rw [heq]
    exact hs.grow (by rw [heq]) hquotes (fun _ h => huses ▸ h) fun _ h => .inl (huses ▸ h)
  | saveBoundedQuoteAndUseNonce quote usedAt => exact hs.saveAndUse h
  | markQuoteNonceUsed use => exact hs.mark hop h
  | pruneExpiredQuoteRequests expiredBefore limit =>
    simp only [QuoteStore.exec, pruneExpiredQuoteRequests, bind_ok, raiseIf_ok, pure_ok,
      exists_const] at h
    obtain ⟨-, rfl⟩ := h
    exact hs.grow rfl (fun _ h => h) (fun _ h => h) fun _ => .inl
  | payment op =>
    simp only [QuoteStore.exec, map_ok] at h
    obtain ⟨⟨u, t⟩, h, rfl⟩ := h
    exact hs.payment hop h

theorem Sound.step (hs : s.Sound) {op : Op} (hop : s.Consumes op) : (step crypto s op).Sound := by
  unfold QuoteStore.step
  cases h : s.exec crypto op with
  | error e => exact hs
  | ok s' => exact hs.exec hop h

end Runs

end QuoteStore

/-- In every run that marks nonces for the quotes that carry them and reserves quotes whose nonce was
used, uses and reservations agree with the quotes; and a rejected operation leaves every table as it
was. -/
theorem consumed_quotes (crypto : Crypto) (ops : List QuoteStore.Op)
    (hops : Admissible (QuoteStore.step crypto) QuoteStore.Consumes .empty ops) :
    (run (QuoteStore.step crypto) .empty ops).Lawful ∧ ∀ op,
      ¬ ((run (QuoteStore.step crypto) .empty ops).exec crypto op).isOk →
        run (QuoteStore.step crypto) .empty (ops ++ [op]) =
          run (QuoteStore.step crypto) .empty ops := by
  have hs : (run (QuoteStore.step crypto) .empty ops).Sound :=
    run_invariant_of_admissible (fun _ _ hs hop => hs.step hop) QuoteStore.Sound.empty hops
  refine ⟨hs.lawful, fun op hfails => ?_⟩
  rw [run_append]
  exact QuoteStore.step_of_rejected _ hfails

/-! ## One quoted action -/

namespace QuoteStore

instance : DecidableRel Consumes := fun s op => by
  induction op using Op.casesOn with
  | payment op => induction op using StoreOp.casesOn <;> unfold Consumes <;> infer_instance
  | _ => unfold Consumes; infer_instance

/-- A library to which every signature is good. -/
def trustingCrypto : Crypto := ⟨fun _ _ => true, fun _ _ => true, id⟩

def quoteKey : TrustedProviderKey where
  providerId := "provider"
  keyId := "key"
  algorithm := .ed25519
  publicKey := "public"
  validFrom := 0
  validUntil := day
  revokedAt := none
  status := .active
  allowedCapabilities := ["text.summarize@1"]
  rest := ""

def dollarQuote : RequestedQuote where
  quoteId := "quote"
  providerId := "provider"
  capability := "text.summarize@1"
  executorId := "executor"
  executorFingerprint := PaidAction.fingerprint
  actionDigest := PaidAction.fingerprint
  maximumAmount := dollarAction.maximum
  issuedAt := 0
  expiresAt := day
  signature := ⟨.ed25519, "key", "signature", .jcs⟩
  rest := ""
  quoteRequestId := "request"
  offerId := none
  nonce := "nonce-001"

def dollarRequest : QuoteRequestV2 where
  quoteRequestId := "request"
  capability := "text.summarize@1"
  executorId := "executor"
  executorFingerprint := PaidAction.fingerprint
  actionDigest := PaidAction.fingerprint
  desiredCurrency := "USD"
  nonce := "nonce-001"
  expiresAt := day
  rest := ""

def askQuote : List Op :=
  [.payment (.writeEvidence { Evidence.empty with
      signingKeys := (∅ : Table _ _).insert ⟨quoteKey, .active, none⟩ }),
    .saveQuoteRequest dollarRequest]

def quotedReservation : PaymentReservationV2 :=
  { dollarAction.reservation with basis := ⟨.signedQuote, "quote"⟩ }

def reserveQuote : List Op :=
  [.payment (.savePreparedDecision { dollarAction.decision with basis := some ⟨.signedQuote, "quote"⟩ }),
    .payment (.claimPreparedDecision "action" "token" 0),
    .payment (.reservePayment ⟨quotedReservation, "token", none, none, true, none, "reserve"⟩)]

end QuoteStore

open QuoteStore in
/-- A quote that is consumed and reserved, and one that cannot be consumed again. -/
theorem consumed_quotes_of_reservation :
    (run (QuoteStore.step trustingCrypto) .empty
      (askQuote ++ [.saveBoundedQuoteAndUseNonce dollarQuote 0] ++ reserveQuote)).Lawful ∧
    run (QuoteStore.step trustingCrypto) .empty
      (askQuote ++ [.saveBoundedQuoteAndUseNonce dollarQuote 0] ++ reserveQuote ++
        [.saveBoundedQuoteAndUseNonce { dollarQuote with quoteId := "other" } 0]) =
      run (QuoteStore.step trustingCrypto) .empty
        (askQuote ++ [.saveBoundedQuoteAndUseNonce dollarQuote 0] ++ reserveQuote) := by
  have h := consumed_quotes trustingCrypto
    (askQuote ++ [.saveBoundedQuoteAndUseNonce dollarQuote 0] ++ reserveQuote) (by decide +kernel)
  exact ⟨h.1, h.2 _ (by decide +kernel)⟩

open QuoteStore in
/-- An imported quote gets uses of two nonces, neither of them its own, and is reserved. -/
theorem quote_reserved_unconsumed :
    ¬ (run (QuoteStore.step trustingCrypto) .empty
      (askQuote ++ [.saveBoundedQuote dollarQuote,
        .markQuoteNonceUsed ⟨"nonce-002", "request", "quote", PaidAction.fingerprint, 0⟩,
        .markQuoteNonceUsed ⟨"nonce-003", "request", "quote", PaidAction.fingerprint, 0⟩] ++
        reserveQuote)).Lawful := by
  intro h
  have honce := h.once ⟨"nonce-002", "request", "quote", PaidAction.fingerprint, 0⟩
    (by decide +kernel) ⟨"nonce-003", "request", "quote", PaidAction.fingerprint, 0⟩
    (by decide +kernel) rfl
  exact absurd honce (by decide)

end AeepRouter

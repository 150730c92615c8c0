import AeepRouter.Economic.TrustMerge
import AeepRouter.Lib.Window

/-!
# Priors from market aggregates

`select` takes the best of the stored aggregates that are eligible for a route. It looks at the first
aggregates of the capability only, in the order in which the store lists them.
-/

namespace AeepRouter.Aggregates

open Lib Trust

/-- A market aggregate, whose order of times and amounts is checked when it is made. -/
@[ext] structure MarketAggregate where
  aggregateId : String
  capability : String
  providerId : String
  executorId : String
  executorFingerprint : String
  region : Option String
  accountTier : Option String
  inputBucket : String
  sampleSize : ℕ
  windowStart : Int
  windowEnd : Int
  actualCostP50 : Option CurrencyAmount
  actualCostP95 : Option CurrencyAmount
  settlementVerifiedFraction : ℚ
  generatedAt : Int
  expiresAt : Int
  signature : SignatureEnvelope
  rest : String
  sampled : 1 ≤ sampleSize
  windowOrdered : windowStart < windowEnd
  expiresLater : generatedAt < expiresAt
  fraction : 0 ≤ settlementVerifiedFraction ∧ settlementVerifiedFraction ≤ 1
  costs : ∀ p50 ∈ actualCostP50, ∀ p95 ∈ actualCostP95,
    p50.currency = p95.currency ∧ p50.amount ≤ p95.amount

instance : DecidableEq MarketAggregate := fun _ _ => decidable_of_iff _ MarketAggregate.ext_iff.symm

def MarketAggregate.freshAt (aggregate : MarketAggregate) (at_ : Int) : Bool :=
  aggregate.generatedAt ≤ at_ ∧ at_ < aggregate.expiresAt

abbrev AggregateStore := Table MarketAggregate MarketAggregate.aggregateId

/-- `ORDER BY generated_at DESC, aggregate_id`; the text of a time is in the order of the times. -/
def MarketAggregate.listKey (aggregate : MarketAggregate) : Intᵒᵈ ×ₗ String :=
  toLex (OrderDual.toDual aggregate.generatedAt, aggregate.aggregateId)

/-- The limit of a query of the store. -/
def boundedLimit (limit : ℕ) : ℕ := max 1 (min limit 10000)

def listMarketAggregates (store : AggregateStore) (capability : Option String) (limit : ℕ) :
    List MarketAggregate :=
  window MarketAggregate.listKey (boundedLimit limit)
    (store.rows.filter fun aggregate => ∀ c ∈ capability, aggregate.capability = c)

structure MarketAggregatesConfig where
  enabled : Bool
  maximumAgeSeconds : ℕ
  minimumSampleSize : ℕ
  minimumSettlementVerifiedFraction : ℚ

/-- A selector with the trust store of its verifier; `payload` gives the canonical bytes. -/
structure MarketAggregateSelector where
  crypto : SignatureCrypto
  keys : TrustStore
  payload : MarketAggregate → List UInt8
  config : MarketAggregatesConfig
  settlementCurrency : String
  limit : ℕ
  limit_pos : 0 < limit

/-- The arguments of `select`. -/
structure Query where
  capability : String
  providerId : String
  executorId : String
  executorFingerprint : String
  inputBucket : String
  region : Option String
  accountTier : Option String
  deriving DecidableEq

/-- The bindings of an aggregate. -/
def MarketAggregate.query (aggregate : MarketAggregate) : Query where
  capability := aggregate.capability
  providerId := aggregate.providerId
  executorId := aggregate.executorId
  executorFingerprint := aggregate.executorFingerprint
  inputBucket := aggregate.inputBucket
  region := aggregate.region
  accountTier := aggregate.accountTier

/-- What `max` compares. -/
def MarketAggregate.rank (aggregate : MarketAggregate) : Int ×ₗ ℚ ×ₗ ℕ ×ₗ String :=
  toLex (aggregate.generatedAt, toLex (aggregate.settlementVerifiedFraction,
    toLex (aggregate.sampleSize, aggregate.aggregateId)))

namespace MarketAggregateSelector

variable (s : MarketAggregateSelector) (q : Query) (at_ now : Int)

def verification (aggregate : MarketAggregate) (signedAt : Option Int) (allowHistorical : Bool) :
    Verification where
  payload := s.payload aggregate
  signature := aggregate.signature
  expectedProviderId := q.providerId
  capability := some q.capability
  quoteHost := none
  signedAt := signedAt
  allowHistorical := allowHistorical

/-- `_eligible`, where the clock of the selector is at `at_` and that of its verifier at `now`. -/
def eligible (aggregate : MarketAggregate) : Result Bool :=
  if aggregate.query ≠ q then pure false
  else if aggregate.freshAt at_ = false ∨ aggregate.windowEnd > at_ ∨
      at_ - aggregate.generatedAt > s.config.maximumAgeSeconds * 1000000 ∨
      aggregate.sampleSize < s.config.minimumSampleSize ∨
      aggregate.settlementVerifiedFraction < s.config.minimumSettlementVerifiedFraction then
    pure false
  else if ∃ amount ∈ [aggregate.actualCostP50, aggregate.actualCostP95].reduceOption,
      amount.currency ≠ s.settlementCurrency then
    pure false
  else do
    let current ← s.keys.verify s.crypto (s.verification q aggregate none false) now
    if ¬ current.valid then pure false
    else do
      let historical ←
        s.keys.verify s.crypto (s.verification q aggregate (some aggregate.generatedAt) true) now
      pure historical.valid

def eligibleOf : List MarketAggregate → Result (List MarketAggregate)
  | [] => pure []
  | aggregate :: aggregates => do
    let accepted ← s.eligible q at_ now aggregate
    let rest ← eligibleOf aggregates
    pure (if accepted then aggregate :: rest else rest)

def select (store : AggregateStore) : Result (Option MarketAggregate) :=
  if ¬ s.config.enabled then pure none
  else do
    let eligible ← s.eligibleOf q at_ now (listMarketAggregates store (some q.capability) s.limit)
    pure (maxBy MarketAggregate.rank eligible)

/-- An aggregate that local policy admits for the query. -/
def Admissible (aggregate : MarketAggregate) : Prop :=
  s.config.enabled = true ∧ s.eligible q at_ now aggregate = .ok true

instance : DecidablePred (s.Admissible q at_ now) := fun _ => inferInstanceAs (Decidable (_ ∧ _))

def SelectsBest (store : AggregateStore) : Prop :=
  ∃ selected, s.select q at_ now store = .ok selected ∧
    Best (s.Admissible q at_ now) MarketAggregate.rank store.rows selected

/-- Fewer aggregates of the capability than the query returns are listed before the best one. -/
def WithinLimit (store : AggregateStore) : Prop :=
  ∀ best ∈ store.rows, s.Admissible q at_ now best →
    (∀ other ∈ store.rows, s.Admissible q at_ now other → other.rank ≤ best.rank) →
      store.rows.countP (fun other => other.capability = q.capability ∧ other.listKey < best.listKey) <
        boundedLimit s.limit

end MarketAggregateSelector

/-! ## Verifications that return -/

/-- A check that says no at most. -/
def Returns {α : Type} (x : Except Refusal α) : Prop := ∀ e, x ≠ .error (.raised e)

section Returns

variable {α β : Type} {x : Except Refusal α} {f : α → Except Refusal β}

theorem Returns.bind (hx : Returns x) (hf : ∀ a, Returns (f a)) : Returns (x >>= f) := by
  intro e h
  rcases bind_error.mp h with herr | ⟨a, -, herr⟩
  · exact hx e herr
  · exact hf a e herr

theorem Returns.pure (a : α) : Returns (Pure.pure a : Except Refusal α) := by
  intro e h
  cases h

theorem Returns.raiseIf (p : Prop) [Decidable p] (reason : String) :
    Returns (Lib.raiseIf p (.refused reason)) := by
  intro e h
  unfold Lib.raiseIf at h
  split_ifs at h
  cases h

theorem Returns.require (o : Option α) (reason : String) : Returns (Lib.require o (.refused reason)) := by
  intro e h
  cases o <;> cases h

end Returns

section Verify

variable {crypto : SignatureCrypto} {keys : TrustStore} {v : Verification} {now : Int}

theorem effectiveTime_returns (key : Trust.TrustedProviderKey) : Returns (key.effectiveTime v now) := by
  unfold Trust.TrustedProviderKey.effectiveTime
  split_ifs
  · exact Returns.require _ _
  · exact (Returns.raiseIf _ _).bind fun _ => Returns.pure _

theorem keyCheck_returns (h : v.quoteHost = none) (key : Trust.TrustedProviderKey) :
    Returns (key.check crypto v now) := by
  have hpermitted : Returns ((v.quoteHost.elim (pure true) key.permitsQuoteHost).mapError
      Refusal.raised) := by
    rw [h]
    exact Returns.pure true
  unfold Trust.TrustedProviderKey.check
  refine (Returns.raiseIf _ _).bind fun _ => (Returns.raiseIf _ _).bind fun _ =>
    hpermitted.bind fun _ => (Returns.raiseIf _ _).bind fun _ =>
    (effectiveTime_returns key).bind fun _ => ?_
  exact (Returns.raiseIf _ _).bind fun _ => (Returns.raiseIf _ _).bind fun _ =>
    (Returns.raiseIf _ _).bind fun _ => (Returns.raiseIf _ _).bind fun _ => Returns.raiseIf _ _

theorem verify_returns (h : v.quoteHost = none) :
    ∃ result, keys.verify crypto v now = .ok result := by
  have hcheck : Returns (keys.check crypto v now) := by
    unfold TrustStore.check
    exact (Returns.raiseIf _ _).bind fun _ => (Returns.raiseIf _ _).bind fun _ =>
      (Returns.require _ _).bind fun key => keyCheck_returns h key
  unfold TrustStore.verify
  cases hresult : keys.check crypto v now with
  | ok done => exact ⟨_, rfl⟩
  | error refusal =>
    cases refusal with
    | refused reason => exact ⟨_, rfl⟩
    | raised err => exact absurd hresult (hcheck err)

end Verify

/-! ## The best of what is stored -/

namespace MarketAggregateSelector

variable {s : MarketAggregateSelector} {q : Query} {at_ now : Int} {store : AggregateStore}

variable (s q at_ now) in
theorem eligible_returns (aggregate : MarketAggregate) :
    ∃ accepted, s.eligible q at_ now aggregate = .ok accepted := by
  unfold eligible
  split_ifs
  · exact ⟨_, rfl⟩
  · exact ⟨_, rfl⟩
  · exact ⟨_, rfl⟩
  · have hcurrent : ∃ result, s.keys.verify s.crypto (s.verification q aggregate none false) now =
        .ok result := verify_returns rfl
    have hhistorical : ∃ result, s.keys.verify s.crypto
        (s.verification q aggregate (some aggregate.generatedAt) true) now = .ok result :=
      verify_returns rfl
    obtain ⟨current, hcurrent⟩ := hcurrent
    obtain ⟨historical, hhistorical⟩ := hhistorical
    rw [hcurrent, hhistorical]
    cases hvalid : current.valid with
    | false => exact ⟨false, bind_ok.mpr ⟨current, rfl, by rw [hvalid]; rfl⟩⟩
    | true => exact ⟨historical.valid, bind_ok.mpr ⟨current, rfl, by rw [hvalid]; rfl⟩⟩

theorem capability_of_eligible {aggregate : MarketAggregate}
    (h : s.eligible q at_ now aggregate = .ok true) : aggregate.capability = q.capability := by
  unfold eligible at h
  split_ifs at h with hquery
  all_goals first
    | exact congrArg (·.capability) (not_not.mp hquery)
    | exact absurd (pure_ok.mp h) Bool.false_ne_true

theorem eligibleOf_eq (henabled : s.config.enabled = true) (aggregates : List MarketAggregate) :
    s.eligibleOf q at_ now aggregates =
      .ok (aggregates.filter fun aggregate => s.Admissible q at_ now aggregate) := by
  induction aggregates with
  | nil => rfl
  | cons aggregate aggregates ih =>
    obtain ⟨accepted, haccepted⟩ := eligible_returns s q at_ now aggregate
    have hadmissible : s.Admissible q at_ now aggregate ↔ accepted = true := by
      unfold Admissible
      rw [haccepted, Except.ok.injEq]
      exact and_iff_right henabled
    rw [eligibleOf, haccepted, ih, List.filter_cons]
    simp only [hadmissible, decide_eq_true_eq]
    rfl

theorem select_eq (henabled : s.config.enabled = true) :
    s.select q at_ now store = .ok (maxBy MarketAggregate.rank
      ((listMarketAggregates store (some q.capability) s.limit).filter fun aggregate =>
        s.Admissible q at_ now aggregate)) := by
  rw [select, henabled, if_neg (not_not.mpr rfl), eligibleOf_eq henabled]
  rfl

theorem listKey_injective {a b : MarketAggregate} (ha : a ∈ store) (hb : b ∈ store)
    (h : a.listKey = b.listKey) : a = b :=
  Table.eq_of_key_eq ha hb (Prod.mk.inj (toLex.injective h)).2

theorem rank_injective {a b : MarketAggregate} (ha : a ∈ store) (hb : b ∈ store)
    (h : a.rank = b.rank) : a = b := by
  obtain ⟨-, h⟩ := Prod.mk.inj (toLex.injective h)
  obtain ⟨-, h⟩ := Prod.mk.inj (toLex.injective h)
  exact Table.eq_of_key_eq ha hb (Prod.mk.inj (toLex.injective h)).2

theorem mem_list {best : MarketAggregate} (hbest : best ∈ store.rows)
    (hcapability : best.capability = q.capability) :
    best ∈ listMarketAggregates store (some q.capability) s.limit ↔
      store.rows.countP (fun other => other.capability = q.capability ∧ other.listKey < best.listKey) <
        boundedLimit s.limit := by
  have hrows : store.rows.filter (fun a => ∀ c ∈ some q.capability, a.capability = c) =
      store.rows.filter fun a => a.capability = q.capability := by
    simp only [Option.mem_some_iff, forall_eq']
  have hsub : (store.rows.filter fun a => a.capability = q.capability).Sublist store.rows :=
    List.filter_sublist
  have hkeys : ((store.rows.filter fun a => a.capability = q.capability).map
      MarketAggregate.listKey).Nodup := by
    have hnodup := (List.Nodup.of_map _ store.nodup).sublist hsub
    refine hnodup.map_on fun a ha b hb h => ?_
    exact listKey_injective (hsub.subset ha) (hsub.subset hb) h
  have hmem : best ∈ store.rows.filter fun a => a.capability = q.capability :=
    List.mem_filter.mpr ⟨hbest, decide_eq_true hcapability⟩
  rw [listMarketAggregates, hrows, mem_window hkeys hmem, List.countP_filter]
  simp only [Bool.decide_and, Bool.and_comm]

theorem selectsBest_iff : s.SelectsBest q at_ now store ↔ s.WithinLimit q at_ now store := by
  cases henabled : s.config.enabled with
  | false =>
    have hnone : ∀ aggregate, ¬ s.Admissible q at_ now aggregate := fun aggregate h =>
      Bool.false_ne_true (henabled.symm.trans h.1)
    refine iff_of_true ⟨none, ?_, ?_⟩ fun best _ h => absurd h (hnone best)
    · rw [select, henabled]
      rfl
    · exact ⟨iff_of_true rfl fun row _ => hnone row, fun row h => by cases h⟩
  | true =>
    have hlisted : listMarketAggregates store (some q.capability) s.limit ⊆ store.rows :=
      fun aggregate h => List.mem_of_mem_filter (window_subset h)
    have hvalues : ∀ a ∈ store.rows, ∀ b ∈ store.rows, a.rank = b.rank → a = b :=
      fun a ha b hb => rank_injective ha hb
    rw [SelectsBest, select_eq henabled]
    simp only [Except.ok.injEq, exists_eq_left']
    rw [best_window_iff hvalues hlisted, WithinLimit]
    refine forall₂_congr fun best hbest => forall₂_congr fun hadmissible hgreatest => ?_
    exact mem_list hbest (capability_of_eligible hadmissible.2)

/-- The best aggregate is selected, and the others make no difference, just when in both stores fewer
aggregates of the capability than the query returns come before the best one. -/
theorem select_best_iff (s : MarketAggregateSelector) (q : Query) (at_ now : Int)
    (store store' : AggregateStore) :
    (s.SelectsBest q at_ now store ∧ s.SelectsBest q at_ now store' ∧
        ((∀ aggregate, s.Admissible q at_ now aggregate →
            (aggregate ∈ store ↔ aggregate ∈ store')) →
          s.select q at_ now store = s.select q at_ now store')) ↔
      s.WithinLimit q at_ now store ∧ s.WithinLimit q at_ now store' := by
  rw [selectsBest_iff, selectsBest_iff]
  constructor
  · exact fun h => ⟨h.1, h.2.1⟩
  · rintro ⟨h, h'⟩
    refine ⟨h, h', fun hsame => ?_⟩
    obtain ⟨selected, hselected, hbest⟩ := selectsBest_iff.mpr h
    obtain ⟨selected', hselected', hbest'⟩ := selectsBest_iff.mpr h'
    have heq := hbest.unique (fun a ha b hb => rank_injective ha hb) hsame hbest'
    rw [hselected, hselected', heq]

end MarketAggregateSelector

theorem forty_samples : 1 ≤ 40 := by decide

theorem expires_later (generatedAt : Int) : generatedAt < generatedAt + 10 := by omega

theorem nine_tenths : (0 : ℚ) ≤ 9 / 10 ∧ (9 / 10 : ℚ) ≤ 1 := by norm_num

theorem no_costs : ∀ p50 ∈ (none : Option CurrencyAmount), ∀ p95 ∈ (none : Option CurrencyAmount),
    p50.currency = p95.currency ∧ p50.amount ≤ p95.amount := by simp

def statistics (executorId : String) (generatedAt : Int) : MarketAggregate where
  aggregateId := "aggregate-" ++ executorId
  capability := "text.statistics@1"
  providerId := "provider.example"
  executorId := executorId
  executorFingerprint := ""
  region := none
  accountTier := none
  inputBucket := "2^14"
  sampleSize := 40
  windowStart := 0
  windowEnd := 1
  actualCostP50 := none
  actualCostP95 := none
  settlementVerifiedFraction := 9 / 10
  generatedAt := generatedAt
  expiresAt := generatedAt + 10
  signature := ⟨.ed25519, "key-1", "", .jcs⟩
  rest := ""
  sampled := forty_samples
  windowOrdered := zero_lt_one
  expiresLater := expires_later generatedAt
  fraction := nine_tenths
  costs := no_costs

def firstOnly : MarketAggregateSelector where
  crypto := acceptAll
  keys := (∅ : TrustStore).insert operatorKey
  payload _ := []
  config := ⟨true, 86400, 20, 8 / 10⟩
  settlementCurrency := "USD"
  limit := 1
  limit_pos := Nat.one_pos

/-- The later aggregate of another executor takes the place of the only eligible one. -/
theorem select_behind_other :
    let store := ((∅ : AggregateStore).insert (statistics "ours" 2)).insert (statistics "theirs" 3)
    let query := (statistics "ours" 2).query
    statistics "ours" 2 ∈ store ∧ firstOnly.Admissible query 5 5 (statistics "ours" 2) ∧
      firstOnly.select query 5 5 store = .ok none ∧
      firstOnly.select query 5 5 ((∅ : AggregateStore).insert (statistics "ours" 2)) =
        .ok (some (statistics "ours" 2)) := by
  decide +kernel

end AeepRouter.Aggregates

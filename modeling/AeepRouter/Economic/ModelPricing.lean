import AeepRouter.Economic.Evidence
import AeepRouter.Lib.Dictionary
import Mathlib.Data.Prod.Lex
import Mathlib.Data.String.Basic

/-!
# The price of measured tokens

`priceModelUsage` charges the tokens of an input that were neither read from a cache nor written to
one at the input rate, cached tokens at theirs, the output at its rate, and every further meter of
the card at the quantity that is known of it. Of the tokens written to a cache, the usage knows only
the meter `cache_write_input_tokens`; the quantities of other meters are the caller's. Amounts are
exact.
-/

namespace AeepRouter.ModelPricing

open Lib Evidence

/-! ## Rate cards -/

inductive RateType where
  | inputToken
  | cachedInputToken
  | outputToken
  | cacheWriteToken
  | toolCall
  | subscriptionUnit
  | other
  deriving DecidableEq, Repr

namespace RateType

/-- The value of the enumeration member. -/
def value : RateType → String
  | inputToken => "input_token"
  | cachedInputToken => "cached_input_token"
  | outputToken => "output_token"
  | cacheWriteToken => "cache_write_token"
  | toolCall => "tool_call"
  | subscriptionUnit => "subscription_unit"
  | other => "other"

/-- `extra_types`. -/
def extra (kind : RateType) : Bool := kind ∈ [cacheWriteToken, toolCall, other]

theorem value_injective : Function.Injective value := by
  intro a b h
  cases a <;> cases b <;> first | rfl | exact absurd h (by decide)

end RateType

/-- The key of a group of rates that differ by the length of the context. -/
structure GroupKey where
  rateType : RateType
  meter : String
  serviceTier : Option String
  region : Option String
  toolName : Option String
  deriving DecidableEq

@[ext] structure RateCardRate where
  rateId : String
  rateType : RateType
  meter : String
  inputUnit : String
  outputUnit : String
  unitQuantity : ℚ
  rateAmount : ℚ
  serviceTier : Option String := none
  region : Option String := none
  toolName : Option String := none
  longContextMin : Option ℕ := none
  longContextMax : Option ℕ := none
  multiplier : Option ℚ := none
  unit_pos : 0 < unitQuantity := by norm_num
  amount_nonneg : 0 ≤ rateAmount := by norm_num
  multiplier_pos : ∀ m ∈ multiplier, 0 < m := by simp
  range : ∀ least ∈ longContextMin, ∀ most ∈ longContextMax, least ≤ most := by simp

instance : DecidableEq RateCardRate := fun _ _ => decidable_of_iff _ RateCardRate.ext_iff.symm

namespace RateCardRate

def bounded (rate : RateCardRate) : Bool := rate.longContextMin.isSome || rate.longContextMax.isSome

def groupKey (rate : RateCardRate) : GroupKey :=
  ⟨rate.rateType, rate.meter, rate.serviceTier, rate.region, rate.toolName⟩

/-- What no two rates share. -/
def semanticKey (rate : RateCardRate) : GroupKey × Option ℕ × Option ℕ :=
  (rate.groupKey, rate.longContextMin, rate.longContextMax)

/-- Two bounded rates of a group are for one length of context; no maximum is infinite. -/
def Overlaps (left right : RateCardRate) : Prop :=
  left.groupKey = right.groupKey ∧ left.bounded ∧ right.bounded ∧
    (∀ most ∈ left.longContextMax,
      max (left.longContextMin.getD 0) (right.longContextMin.getD 0) ≤ most) ∧
    ∀ most ∈ right.longContextMax,
      max (left.longContextMin.getD 0) (right.longContextMin.getD 0) ≤ most

instance (left right : RateCardRate) : Decidable (left.Overlaps right) := by
  unfold Overlaps
  infer_instance

theorem Overlaps.symm {left right : RateCardRate} (h : left.Overlaps right) :
    right.Overlaps left := by
  obtain ⟨hgroup, hleft, hright, hmost, hmost'⟩ := h
  refine ⟨hgroup.symm, hright, hleft, ?_, ?_⟩
  · rwa [max_comm]
  · rwa [max_comm]

def charge (rate : RateCardRate) (quantity : ℚ) : ℚ :=
  quantity / rate.unitQuantity * rate.rateAmount * rate.multiplier.getD 1

def specificity (rate : RateCardRate) : ℕ := rate.region.isSome.toNat + rate.toolName.isSome.toNat

end RateCardRate

/-- What the digest of a rate card covers; `rest` is what pricing does not read. -/
structure RateCardContent where
  provider : String
  model : String
  effectiveFrom : Int
  effectiveUntil : Option Int
  currency : Option String
  rates : List RateCardRate
  rest : String
  deriving DecidableEq

structure RateCardSnapshot extends RateCardContent where
  snapshotId : String
  deriving DecidableEq

/-- `validate_snapshot`; `digest` is the hash of the canonical payload. -/
def RateCardSnapshot.validate (digest : RateCardContent → String) (content : RateCardContent)
    (snapshotId : Option String) : Result RateCardSnapshot := do
  raiseIf (content.rates = []) (.value "rates")
  raiseIf (∃ ends ∈ content.effectiveUntil, ends ≤ content.effectiveFrom)
    (.value "effective_until must be after effective_from")
  raiseIf (¬ (content.rates.map (·.rateId)).Nodup) (.value "duplicate rate_id")
  raiseIf (¬ (content.rates.map (·.semanticKey)).Nodup) (.value "ambiguous duplicate rate")
  raiseIf ((∃ rate ∈ content.rates, rate.rateType ≠ .subscriptionUnit) ∧ content.currency = none)
    (.value "monetary rate cards require currency")
  raiseIf (∃ currency ∈ content.currency, ∃ rate ∈ content.rates,
      rate.rateType ≠ .subscriptionUnit ∧ rate.outputUnit ≠ currency)
    (.value "monetary rate output_unit must match snapshot currency")
  raiseIf (¬ content.rates.Pairwise fun left right => ¬ left.Overlaps right)
    (.value "ambiguous overlapping long-context rates")
  let expected := "rate_" ++ digest content
  raiseIf (∃ id ∈ snapshotId, id ≠ expected)
    (.value "snapshot_id does not match canonical content")
  return { content with snapshotId := expected }

/-! ## Usage and prices -/

/-- A `ModelTokenUsage`; `cacheWriteSet` tells whether the cache writes are in `model_fields_set`. -/
structure ModelTokenUsage where
  provider : String
  model : String
  accessChannel : ModelAccessChannel
  inputTokens : ℕ
  cachedInputTokens : ℕ
  cacheWriteInputTokens : ℕ
  cacheWriteSet : Bool
  outputTokens : ℕ
  reasoningOutputTokens : ℕ
  evidence : MeasurementEvidence
  unset : cacheWriteSet = false → cacheWriteInputTokens = 0
  subsets : cachedInputTokens + cacheWriteInputTokens ≤ inputTokens
  reasoning : reasoningOutputTokens ≤ outputTokens

/-- The keyword arguments of `price_model_usage`. -/
structure PriceOptions where
  actualBillable : Bool := false
  chargeId : String := "model-usage"
  serviceTier : Option String := none
  region : Option String := none
  toolName : Option String := none
  meterQuantities : String → Option ℚ := fun _ => none

/-- A `CounterfactualCashCost`, or the `CashEvidence` of a billable usage with its charge id,
classification and trust. -/
structure Priced where
  billable : Option (String × CashClassification × TrustLevel)
  amount : Option ℚ
  currency : String
  rateSnapshotId : Option String
  usageFingerprint : String
  appliedRateIds : List String
  appliedMeterQuantities : Table (String × ℚ) (·.1)
  status : EvidenceStatus

/-! ## Pricing -/

/-- What a rate asks for is what is asked for; nothing, if nothing is. -/
def Serves (own asked : Option String) : Prop :=
  if asked = none then own = none else own = none ∨ own = asked

instance (own asked : Option String) : Decidable (Serves own asked) := by
  unfold Serves
  infer_instance

section RateFor

variable (rates : List RateCardRate) (options : PriceOptions) (contextTokens : ℕ)

/-- The rates a call may use. -/
def Offered (rate : RateCardRate) : Prop :=
  rate.serviceTier = options.serviceTier ∧ Serves rate.region options.region ∧
    Serves rate.toolName options.toolName

instance : DecidablePred (Offered options) := fun _ => inferInstanceAs (Decidable (_ ∧ _))

/-- The rates of a kind that fit the length of the context. -/
def matching (kind : RateType) (meter : Option String) : List RateCardRate :=
  rates.filter fun rate => rate.rateType = kind ∧ Offered options rate ∧
    (meter = none ∨ meter = some rate.meter) ∧
    (∀ least ∈ rate.longContextMin, least ≤ contextTokens) ∧
    ∀ most ∈ rate.longContextMax, contextTokens ≤ most

/-- The bounded ones, where there are any. -/
def preferBounded (found : List RateCardRate) : List RateCardRate :=
  if found.any (·.bounded) then found.filter (·.bounded) else found

def mostSpecific (found : List RateCardRate) : List RateCardRate :=
  found.filter fun rate => rate.specificity = (found.map (·.specificity)).foldl max 0

def rateFor (kind : RateType) (meter : Option String) : Result (Option RateCardRate) :=
  match mostSpecific (preferBounded (matching rates options contextTokens kind meter)) with
  | [] => .ok none
  | [rate] => .ok rate
  | _ => .error (.value ("ambiguous " ++ kind.value ++ " rate"))

/-- `extra_keys` in the order of the loop. -/
def extraKeys : List (RateType × String) :=
  ((rates.filter fun rate => rate.rateType.extra ∧ Offered options rate).map
    fun rate => (rate.rateType, rate.meter)).dedup.insertionSort
      fun a b => toLex (a.1.value, a.2) ≤ toLex (b.1.value, b.2)

end RateFor

def knownMeterQuantities (usage : ModelTokenUsage) (options : PriceOptions) (meter : String) :
    Option ℚ :=
  if usage.cacheWriteSet ∧ meter = "cache_write_input_tokens" then
    some usage.cacheWriteInputTokens
  else options.meterQuantities meter

/-- The totals of the loop that applies rates. -/
structure Applied where
  amount : ℚ
  rateIds : List String
  quantities : Table (String × ℚ) (·.1)

def Applied.add (applied : Applied) (line : RateCardRate × ℚ) : Applied where
  amount := applied.amount + line.1.charge line.2
  rateIds := applied.rateIds ++ [line.1.rateId]
  quantities := applied.quantities.assign (line.1.rateId, line.2)

/-- The rates of a usage with the quantities they are applied to, if nothing is missing. -/
def appliedLines (usage : ModelTokenUsage) (options : PriceOptions)
    (inputRate outputRate cachedRate : Option RateCardRate)
    (selectedExtras : List (Option RateCardRate)) : Option (List (RateCardRate × ℚ)) := do
  let input ← inputRate
  let output ← outputRate
  let extras := selectedExtras.filterMap id
  if (usage.cachedInputTokens ≠ 0 ∧ cachedRate = none) ∨ none ∈ selectedExtras ∨
      (usage.cacheWriteInputTokens ≠ 0 ∧ ¬ ∃ rate ∈ extras, rate.rateType = .cacheWriteToken) ∨
      ∃ rate ∈ extras, knownMeterQuantities usage options rate.meter = none then
    none
  else
    let uncached : ℚ :=
      usage.inputTokens - usage.cachedInputTokens - usage.cacheWriteInputTokens
    let cached := if usage.cachedInputTokens = 0 then [] else
      cachedRate.toList.map fun rate => (rate, (usage.cachedInputTokens : ℚ))
    let metered := extras.map fun rate =>
      (rate, (knownMeterQuantities usage options rate.meter).getD 0)
    return [(input, uncached), (output, (usage.outputTokens : ℚ))] ++ cached ++ metered

def priceModelUsage (fingerprint : ModelTokenUsage → String) (usage : ModelTokenUsage)
    (snapshot : RateCardSnapshot) (options : PriceOptions) : Result Priced := do
  raiseIf (usage.provider ≠ snapshot.provider ∨ usage.model ≠ snapshot.model)
    (.value "usage does not match rate-card provider/model")
  let currency ← require snapshot.currency
    (.value "model cash pricing requires a monetary rate-card currency")
  raiseIf (options.actualBillable ∧ (usage.evidence.status ≠ .complete ∨
      usage.evidence.trust ∉ [.observed, .verified, .attested]))
    (.value "attributable tariff cash requires complete measured usage evidence")
  let select := rateFor snapshot.rates options usage.inputTokens
  let inputRate ← select .inputToken none
  let outputRate ← select .outputToken none
  let cachedRate ← select .cachedInputToken none
  let selectedExtras ← (extraKeys snapshot.rates options).mapM fun key => select key.1 (some key.2)
  let lines := appliedLines usage options inputRate outputRate cachedRate selectedExtras
  let applied := (lines.getD []).foldl Applied.add ⟨0, [], ∅⟩
  let amount := lines.map fun _ => applied.amount
  if options.actualBillable then do
    raiseIf (usage.accessChannel ≠ .api)
      (.value "only an API access channel can create tariff-derived actual cash")
    raiseIf (options.chargeId = "" ∨ 200 < options.chargeId.length) (.value "charge_id")
    raiseIf (∃ a ∈ amount, a < 0) (.value "amount")
    return {
      billable := if lines.isSome then
          some (options.chargeId, .pinnedRateBillableUsage, .verified)
        else some (options.chargeId, .unavailable, .untrusted)
      amount := amount
      currency := currency
      rateSnapshotId := lines.map fun _ => snapshot.snapshotId
      usageFingerprint := fingerprint usage
      appliedRateIds := applied.rateIds
      appliedMeterQuantities := applied.quantities
      status := if lines.isSome then .complete else .unavailable }
  else do
    raiseIf (∃ a ∈ amount, a < 0) (.value "amount")
    return {
      billable := none
      amount := amount
      currency := currency
      rateSnapshotId := snapshot.snapshotId
      usageFingerprint := fingerprint usage
      appliedRateIds := applied.rateIds
      appliedMeterQuantities := applied.quantities
      status := if lines.isSome then .complete else .partialEvidence }

/-! ## The order of the rates -/

section Order

variable {rates rates' : List RateCardRate} {options : PriceOptions} {contextTokens : ℕ}
  {kind : RateType} {meter : Option String} {rate : RateCardRate}

variable (options contextTokens kind meter) in
theorem matching_perm (h : rates.Perm rates') : (matching rates options contextTokens kind meter).Perm
    (matching rates' options contextTokens kind meter) := h.filter _

theorem preferBounded_perm (h : rates.Perm rates') :
    (preferBounded rates).Perm (preferBounded rates') := by
  have hany : rates.any (·.bounded) = rates'.any (·.bounded) := by
    rw [Bool.eq_iff_iff, List.any_eq_true, List.any_eq_true]
    simp only [h.mem_iff]
  rw [preferBounded, preferBounded, hany]
  split
  · exact h.filter _
  · exact h

theorem mostSpecific_perm (h : rates.Perm rates') :
    (mostSpecific rates).Perm (mostSpecific rates') := by
  rw [mostSpecific, mostSpecific, (h.map _).foldl_eq]
  exact h.filter _

/-- The rate of a call is found in any order. -/
theorem rateFor_perm (h : rates.Perm rates') :
    rateFor rates options contextTokens kind meter =
      rateFor rates' options contextTokens kind meter := by
  have hperm := mostSpecific_perm (preferBounded_perm (matching_perm options contextTokens kind meter h))
  unfold rateFor
  revert hperm
  generalize mostSpecific (preferBounded (matching rates options contextTokens kind meter)) = found
  generalize mostSpecific (preferBounded (matching rates' options contextTokens kind meter)) = found'
  intro hperm
  rcases found with _ | ⟨a, _ | ⟨b, found⟩⟩
  · rw [hperm.symm.eq_nil]
  · rw [List.perm_singleton.mp hperm.symm]
  · have hlength := hperm.length_eq
    rcases found' with _ | ⟨a', _ | ⟨b', found'⟩⟩
    · simp at hlength
    · simp at hlength
    · rfl

theorem extraKeys_perm (h : rates.Perm rates') : extraKeys rates options = extraKeys rates' options := by
  let le (a b : RateType × String) : Prop := toLex (a.1.value, a.2) ≤ toLex (b.1.value, b.2)
  have hkeys := ((h.filter fun rate => rate.rateType.extra ∧ Offered options rate).map
    fun rate => (rate.rateType, rate.meter)).dedup
  refine ((((List.perm_insertionSort le _).trans hkeys).trans
    (List.perm_insertionSort le _).symm)).eq_of_pairwise (fun a b _ _ hab hba => ?_)
    (List.pairwise_insertionSort le _) (List.pairwise_insertionSort le _)
  have heq := toLex.injective (le_antisymm hab hba)
  rw [Prod.mk.injEq] at heq
  exact Prod.ext (RateType.value_injective heq.1) heq.2

theorem extraKeys_nodup : (extraKeys rates options).Nodup :=
  (List.perm_insertionSort _ _).nodup_iff.mpr (List.nodup_dedup _)

theorem extra_of_mem_extraKeys {key : RateType × String} (h : key ∈ extraKeys rates options) :
    key.1.extra := by
  have hmem := (List.perm_insertionSort _ _).mem_iff.mp h
  simp only [List.mem_dedup, List.mem_map, List.mem_filter, decide_eq_true_eq] at hmem
  obtain ⟨rate, ⟨-, hextra, -⟩, rfl⟩ := hmem
  exact hextra

theorem rateFor_ok (h : rateFor rates options contextTokens kind meter = .ok (some rate)) :
    rate ∈ rates ∧ rate.rateType = kind ∧ ∀ m ∈ meter, rate.meter = m := by
  have hmem : rate ∈ mostSpecific (preferBounded (matching rates options contextTokens kind meter)) := by
    unfold rateFor at h
    split at h
    · cases h
    · next found hfound =>
      cases h
      rw [hfound]
      exact List.mem_singleton_self _
    · cases h
  have hpreferred := List.mem_of_mem_filter hmem
  have hmatching : rate ∈ matching rates options contextTokens kind meter := by
    unfold preferBounded at hpreferred
    split at hpreferred
    · exact List.mem_of_mem_filter hpreferred
    · exact hpreferred
  simp only [matching, List.mem_filter, decide_eq_true_eq] at hmatching
  obtain ⟨hrate, hkind, -, hmeter, -⟩ := hmatching
  refine ⟨hrate, hkind, fun m hm => ?_⟩
  rcases hmeter with hnone | hsome
  · rw [hnone] at hm
    cases hm
  · rw [hsome] at hm
    exact Option.some.inj hm

theorem validate_perm {digest : RateCardContent → String} {content : RateCardContent}
    {snapshotId : Option String} {snapshot : RateCardSnapshot}
    (h : RateCardSnapshot.validate digest content snapshotId = .ok snapshot)
    (hperm : content.rates.Perm rates') :
    RateCardSnapshot.validate digest { content with rates := rates' } none =
      .ok { content with
        rates := rates'
        snapshotId := "rate_" ++ digest { content with rates := rates' } } := by
  simp only [RateCardSnapshot.validate, bind_ok, raiseIf_ok, exists_const, not_not, pure_ok] at h ⊢
  obtain ⟨hsome, hends, hids, hkeys, hcurrency, hunits, hoverlaps, -⟩ := h
  refine ⟨?_, hends, (hperm.map _).nodup_iff.mp hids, (hperm.map _).nodup_iff.mp hkeys, ?_, ?_, ?_,
    by simp, trivial⟩
  · intro hnil
    exact hsome (hperm.trans (.of_eq hnil)).eq_nil
  · simpa only [hperm.mem_iff] using hcurrency
  · simpa only [hperm.mem_iff] using hunits
  · exact (hperm.pairwise_iff fun hl hr => hl hr.symm).mp hoverlaps

end Order

/-! ## What is charged -/

abbrev Line := RateCardRate × ℚ

def quantityOf (kinds : List RateType) (lines : List Line) : ℚ :=
  ((lines.filter fun line => line.1.rateType ∈ kinds).map (·.2)).sum

/-- The lines of a price: rates of the card, each applied once, with the quantities of the usage and
those of the meters. -/
structure Charges (rates : List RateCardRate) (usage : ModelTokenUsage) (options : PriceOptions)
    (lines : List Line) : Prop where
  rates : ∀ line ∈ lines, line.1 ∈ rates
  nodup : (lines.map (·.1)).Nodup
  output : quantityOf [.outputToken] lines = usage.outputTokens
  input : quantityOf [.inputToken, .cachedInputToken] lines =
    usage.inputTokens - usage.cacheWriteInputTokens
  metered : ∀ line ∈ lines, line.1.rateType.extra →
    knownMeterQuantities usage options line.1.meter = some line.2
  written : usage.cacheWriteInputTokens ≠ 0 → ∃ line ∈ lines, line.1.rateType = .cacheWriteToken

section Lines

variable {rates : List RateCardRate} {usage : ModelTokenUsage} {options : PriceOptions}
  {contextTokens : ℕ} {lines lines' : List Line} {kinds : List RateType}
  {selected : List (Option RateCardRate)} {keys : List (RateType × String)}
  {inputRate outputRate cachedRate : Option RateCardRate}

theorem quantityOf_append :
    quantityOf kinds (lines ++ lines') = quantityOf kinds lines + quantityOf kinds lines' := by
  simp only [quantityOf, List.filter_append, List.map_append, List.sum_append]

theorem quantityOf_cons (line : Line) : quantityOf kinds (line :: lines) =
    (if line.1.rateType ∈ kinds then line.2 else 0) + quantityOf kinds lines := by
  unfold quantityOf
  by_cases h : line.1.rateType ∈ kinds
  · simp [h]
  · simp [h]

theorem quantityOf_eq_zero (h : ∀ line ∈ lines, line.1.rateType ∉ kinds) :
    quantityOf kinds lines = 0 := by
  have hnone : (lines.filter fun line => line.1.rateType ∈ kinds) = [] := by
    simpa [List.filter_eq_nil_iff] using h
  rw [quantityOf, hnone]
  rfl

theorem map_extras (h : List.Forall₂ (fun key rate =>
      rateFor rates options contextTokens key.1 (some key.2) = .ok rate) keys selected)
    (hnone : none ∉ selected) :
    (selected.filterMap id).map (fun rate => (rate.rateType, rate.meter)) = keys ∧
      ∀ rate ∈ selected.filterMap id, rate ∈ rates := by
  induction h with
  | nil => simp
  | @cons key rate? keys selected hrate _ ih =>
    rw [List.mem_cons, not_or] at hnone
    obtain ⟨hkeys, hmem⟩ := ih hnone.2
    obtain ⟨rate, rfl⟩ := Option.ne_none_iff_exists'.mp (Ne.symm hnone.1)
    obtain ⟨hin, hkind, hmeter⟩ := rateFor_ok hrate
    have hhead : (some rate :: selected).filterMap id = rate :: selected.filterMap id := rfl
    rw [hhead, List.map_cons, hkeys, List.forall_mem_cons, hkind, hmeter key.2 rfl]
    exact ⟨rfl, hin, hmem⟩

theorem nodup_rates {input output : RateCardRate} {cached extras : List RateCardRate}
    (hinput : input.rateType = .inputToken) (houtput : output.rateType = .outputToken)
    (hcached : ∀ rate ∈ cached, rate.rateType = .cachedInputToken) (hone : cached.length ≤ 1)
    (hextra : ∀ rate ∈ extras, rate.rateType.extra)
    (hkeys : (extras.map fun rate => (rate.rateType, rate.meter)).Nodup) :
    (input :: output :: (cached ++ extras)).Nodup := by
  have hnot : ∀ {kind : RateType}, ¬ kind.extra → ∀ rate ∈ extras, rate.rateType ≠ kind :=
    fun hkind rate hrate h => hkind (h ▸ hextra rate hrate)
  have hof : ∀ {kind : RateType}, kind ≠ .cachedInputToken → ¬ kind.extra →
      ∀ rate ∈ cached ++ extras, rate.rateType ≠ kind := by
    intro kind hne hkind
    rw [List.forall_mem_append]
    exact ⟨fun rate hrate h => hne (h ▸ hcached rate hrate), hnot hkind⟩
  rw [List.nodup_cons, List.nodup_cons, List.nodup_append]
  refine ⟨fun h => ?_, fun h => ?_, ?_, hkeys.of_map _, fun a ha b hb hab => ?_⟩
  · rcases List.mem_cons.mp h with rfl | h
    · rw [hinput] at houtput
      cases houtput
    · exact hof (by decide) (by decide) input h hinput
  · exact hof (by decide) (by decide) output h houtput
  · rcases cached with _ | ⟨a, _ | ⟨b, cached⟩⟩
    · exact List.nodup_nil
    · exact List.nodup_singleton _
    · simp at hone
  · exact hnot (by decide) b hb (hab ▸ hcached a ha)

theorem charges_of_appliedLines
    (hinput : rateFor rates options contextTokens .inputToken none = .ok inputRate)
    (houtput : rateFor rates options contextTokens .outputToken none = .ok outputRate)
    (hcached : rateFor rates options contextTokens .cachedInputToken none = .ok cachedRate)
    (hextras : List.Forall₂ (fun key rate =>
      rateFor rates options contextTokens key.1 (some key.2) = .ok rate)
        (extraKeys rates options) selected)
    (h : appliedLines usage options inputRate outputRate cachedRate selected = some lines) :
    Charges rates usage options lines := by
  simp only [appliedLines, bind, Option.bind_eq_some_iff] at h
  obtain ⟨input, rfl, output, rfl, h⟩ := h
  split at h
  · cases h
  next hcomplete =>
  simp only [not_or, not_and, not_exists] at hcomplete
  obtain ⟨hcachedRate, hnone, hwritten, hknown⟩ := hcomplete
  obtain ⟨hinputMem, hinputKind, -⟩ := rateFor_ok hinput
  obtain ⟨houtputMem, houtputKind, -⟩ := rateFor_ok houtput
  obtain ⟨hkeys, hextraMem⟩ := map_extras hextras hnone
  have hextraKind : ∀ rate ∈ selected.filterMap id, rate.rateType.extra := by
    intro rate hrate
    have hkey := List.mem_map_of_mem (f := fun rate : RateCardRate => (rate.rateType, rate.meter)) hrate
    rw [hkeys] at hkey
    exact extra_of_mem_extraKeys hkey
  obtain ⟨cached, hcachedLines, hcachedMem, hcachedSum, hcachedOne⟩ : ∃ cached : List Line,
      (if usage.cachedInputTokens = 0 then [] else
        cachedRate.toList.map fun rate => (rate, (usage.cachedInputTokens : ℚ))) = cached ∧
      (∀ line ∈ cached, line.1 ∈ rates ∧ line.1.rateType = .cachedInputToken) ∧
      (cached.map (·.2)).sum = usage.cachedInputTokens ∧ cached.length ≤ 1 := by
    refine ⟨_, rfl, ?_⟩
    by_cases hzero : usage.cachedInputTokens = 0
    · simp [hzero]
    · obtain ⟨rate, rfl⟩ := Option.ne_none_iff_exists'.mp (hcachedRate hzero)
      obtain ⟨hmem, hkind, -⟩ := rateFor_ok hcached
      simp [hzero, hmem, hkind]
  have hlines := Option.some.inj h
  rw [hcachedLines, List.append_assoc, List.cons_append, List.cons_append, List.nil_append] at hlines
  subst hlines
  -- the quantities of one kind of lines
  have hmetered : ∀ {kinds}, (∀ kind ∈ kinds, ¬ kind.extra) → quantityOf kinds
      ((selected.filterMap id).map fun rate =>
        (rate, (knownMeterQuantities usage options rate.meter).getD 0)) = 0 := fun hkinds =>
    quantityOf_eq_zero (List.forall_mem_map.mpr fun rate hrate hin =>
      hkinds _ hin (hextraKind rate hrate))
  constructor
  · simp only [List.forall_mem_cons, List.forall_mem_append, List.forall_mem_map]
    exact ⟨hinputMem, houtputMem, fun line hline => (hcachedMem line hline).1, hextraMem⟩
  · have hcachedKind : ∀ rate ∈ cached.map (·.1), rate.rateType = .cachedInputToken :=
      List.forall_mem_map.mpr fun line hline => (hcachedMem line hline).2
    have hrates := nodup_rates hinputKind houtputKind hcachedKind
      ((List.length_map _).trans_le hcachedOne) hextraKind (hkeys ▸ extraKeys_nodup)
    simpa [List.map_map, Function.comp_def] using hrates
  · rw [quantityOf_cons, quantityOf_cons, quantityOf_append, hmetered (by decide),
      quantityOf_eq_zero fun line hline => by simp [(hcachedMem line hline).2]]
    simp [hinputKind, houtputKind]
  · have hall : quantityOf [.inputToken, .cachedInputToken] cached = usage.cachedInputTokens := by
      rw [quantityOf, List.filter_eq_self.mpr fun line hline => by simp [(hcachedMem line hline).2],
        hcachedSum]
    rw [quantityOf_cons, quantityOf_cons, quantityOf_append, hmetered (by decide), hall]
    simp only [hinputKind, houtputKind, List.mem_cons, List.not_mem_nil, or_false, if_true,
      reduceCtorEq, if_false]
    ring
  · simp only [List.forall_mem_cons, List.forall_mem_append, List.forall_mem_map, hinputKind,
      houtputKind]
    refine ⟨fun h => absurd h (by decide), fun h => absurd h (by decide), fun line hline h => ?_,
      fun rate hrate _ => ?_⟩
    · rw [(hcachedMem line hline).2] at h
      exact absurd h (by decide)
    · obtain ⟨quantity, hquantity⟩ := Option.ne_none_iff_exists'.mp (hknown rate hrate)
      rw [hquantity, Option.getD_some]
  · intro hne
    obtain ⟨rate, hrate, hkind⟩ : ∃ rate ∈ selected.filterMap id, rate.rateType = .cacheWriteToken := by
      simpa using hwritten hne
    refine ⟨_, List.mem_cons_of_mem _ (List.mem_cons_of_mem _ (List.mem_append_right _
      (List.mem_map_of_mem hrate))), hkind⟩

theorem foldl_add (h : (lines.map (·.1.rateId)).Nodup) :
    (lines.foldl Applied.add ⟨0, [], ∅⟩).amount = (lines.map fun line => line.1.charge line.2).sum ∧
      (lines.foldl Applied.add ⟨0, [], ∅⟩).rateIds = lines.map (·.1.rateId) ∧
      (lines.foldl Applied.add ⟨0, [], ∅⟩).quantities.rows =
        lines.map fun line => (line.1.rateId, line.2) := by
  induction lines using List.reverseRecOn with
  | nil => exact ⟨rfl, rfl, rfl⟩
  | append_singleton lines line ih =>
    rw [List.map_append, List.nodup_append] at h
    obtain ⟨hnodup, -, hnew⟩ := h
    obtain ⟨hamount, hids, hrows⟩ := ih hnodup
    have hfresh : (lines.foldl Applied.add ⟨0, [], ∅⟩).quantities.find? line.1.rateId = none := by
      rw [Table.find?_eq_none]
      intro row hrow
      rw [Table.mem_def, hrows] at hrow
      obtain ⟨other, hother, rfl⟩ := List.mem_map.mp hrow
      exact hnew _ (List.mem_map_of_mem hother) _ (List.mem_singleton_self _)
    simp only [List.foldl_append, List.foldl_cons, List.foldl_nil, Applied.add, List.map_append,
      List.map_cons, List.map_nil, List.sum_append, List.sum_singleton, hamount, hids]
    refine ⟨trivial, trivial, ?_⟩
    rw [Table.assign_eq_insert hfresh, Table.insert_rows hfresh, hrows]

end Lines

/-! ## The price -/

section Price

variable {digest : RateCardContent → String} {content : RateCardContent}
  {snapshotId : Option String} {snapshot : RateCardSnapshot} {fingerprint : ModelTokenUsage → String}
  {usage : ModelTokenUsage} {options : PriceOptions} {priced : Priced} {amount : ℚ}

theorem validate_rates (h : RateCardSnapshot.validate digest content snapshotId = .ok snapshot) :
    snapshot.toRateCardContent = content ∧ (snapshot.rates.map (·.rateId)).Nodup := by
  simp only [RateCardSnapshot.validate, bind_ok, raiseIf_ok, exists_const, not_not, pure_ok] at h
  obtain ⟨-, -, hids, -, -, -, -, -, rfl⟩ := h
  exact ⟨rfl, hids⟩

structure Explains (lines : List Line) (priced : Priced) (amount : ℚ) : Prop where
  rateIds : priced.appliedRateIds = lines.map (·.1.rateId)
  once : priced.appliedRateIds.Nodup
  quantities : priced.appliedMeterQuantities.rows = lines.map fun line => (line.1.rateId, line.2)
  amount : amount = (lines.map fun line => line.1.charge line.2).sum

theorem exists_lines (hids : (snapshot.rates.map (·.rateId)).Nodup)
    (h : priceModelUsage fingerprint usage snapshot options = .ok priced)
    (hamount : priced.amount = some amount) :
    ∃ lines, Charges snapshot.rates usage options lines ∧ Explains lines priced amount := by
  simp only [priceModelUsage, bind_ok, raiseIf_ok, require_ok, exists_const] at h
  obtain ⟨-, currency, -, -, inputRate, hinput, outputRate, houtput, cachedRate, hcached, selected,
    hselected, h⟩ := h
  cases hlines : appliedLines usage options inputRate outputRate cachedRate selected with
  | none =>
    rw [hlines] at h
    split at h <;> simp only [bind_ok, raiseIf_ok, exists_const, pure_ok] at h
    · obtain ⟨-, -, -, rfl⟩ := h
      cases hamount
    · obtain ⟨-, rfl⟩ := h
      cases hamount
  | some lines =>
    have hcharges := charges_of_appliedLines hinput houtput hcached (forall₂_of_mapM hselected) hlines
    have hnodup : (lines.map (·.1.rateId)).Nodup := by
      have hrates := hcharges.nodup
      refine List.pairwise_map.mpr ((List.pairwise_map.mp hrates).imp_of_mem fun ha hb hne heq => ?_)
      exact hne (List.inj_on_of_nodup_map hids (hcharges.rates _ ha) (hcharges.rates _ hb) heq)
    obtain ⟨hsum, happlied, hrows⟩ := foldl_add hnodup
    refine ⟨lines, hcharges, ?_⟩
    rw [hlines] at h
    split at h <;> simp only [bind_ok, raiseIf_ok, exists_const, pure_ok] at h
    · obtain ⟨-, -, -, rfl⟩ := h
      exact ⟨happlied, happlied ▸ hnodup, hrows, (Option.some.inj hamount).symm.trans hsum⟩
    · obtain ⟨-, rfl⟩ := h
      exact ⟨happlied, happlied ▸ hnodup, hrows, (Option.some.inj hamount).symm.trans hsum⟩

theorem price_perm {rates' : List RateCardRate} {snapshotId' : String}
    (hperm : snapshot.rates.Perm rates')
    (h : priceModelUsage fingerprint usage snapshot options = .ok priced)
    (hamount : priced.amount = some amount) :
    priceModelUsage fingerprint usage
        { snapshot with
          rates := rates'
          snapshotId := snapshotId' } options =
      .ok { priced with rateSnapshotId := some snapshotId' } := by
  have hrate (kind : RateType) (meter : Option String) :
      rateFor rates' options usage.inputTokens kind meter =
        rateFor snapshot.rates options usage.inputTokens kind meter := (rateFor_perm hperm).symm
  have hkeys : extraKeys rates' options = extraKeys snapshot.rates options :=
    (extraKeys_perm hperm).symm
  simp only [priceModelUsage, bind_ok, raiseIf_ok, require_ok, exists_const, hrate, hkeys] at h ⊢
  obtain ⟨hcard, currency, hcurrency, hevidence, inputRate, hinput, outputRate, houtput, cachedRate,
    hcached, selected, hselected, h⟩ := h
  refine ⟨hcard, currency, hcurrency, hevidence, inputRate, hinput, outputRate, houtput, cachedRate,
    hcached, selected, hselected, ?_⟩
  cases hlines : appliedLines usage options inputRate outputRate cachedRate selected with
  | none =>
    rw [hlines] at h
    split at h <;> simp only [bind_ok, raiseIf_ok, exists_const, pure_ok] at h
    · obtain ⟨-, -, -, rfl⟩ := h
      cases hamount
    · obtain ⟨-, rfl⟩ := h
      cases hamount
  | some lines =>
    rw [hlines] at h
    by_cases hbillable : options.actualBillable
    · rw [if_pos hbillable] at h ⊢
      simp only [bind_ok, raiseIf_ok, exists_const, pure_ok] at h ⊢
      obtain ⟨hchannel, hid, hnonneg, rfl⟩ := h
      exact ⟨hchannel, hid, hnonneg, rfl⟩
    · rw [if_neg hbillable] at h ⊢
      simp only [bind_ok, raiseIf_ok, exists_const, pure_ok] at h ⊢
      obtain ⟨hnonneg, rfl⟩ := h
      exact ⟨hnonneg, rfl⟩

theorem quantityOf_input (lines : List Line) :
    quantityOf [.inputToken, .cachedInputToken, .cacheWriteToken] lines =
      quantityOf [.inputToken, .cachedInputToken] lines + quantityOf [.cacheWriteToken] lines := by
  induction lines with
  | nil => simp [quantityOf]
  | cons line lines ih =>
    rw [quantityOf_cons, quantityOf_cons, quantityOf_cons, ih]
    cases line.1.rateType <;> simp <;> ring

/-- Every token of the input but those written to a cache is charged once, and so is the output; a
meter is charged with the quantity that is known of it. So the input is charged once just if the
quantities of the meters of cache writes come to the cache writes of the usage. No rate is applied
twice, the amount is what the lines cost, and another order of the card changes its id alone. -/
theorem price_model_usage (hvalid : RateCardSnapshot.validate digest content snapshotId = .ok snapshot)
    (h : priceModelUsage fingerprint usage snapshot options = .ok priced)
    (hamount : priced.amount = some amount) :
    (∃ lines, Charges snapshot.rates usage options lines ∧ Explains lines priced amount ∧
      (quantityOf [.inputToken, .cachedInputToken, .cacheWriteToken] lines = usage.inputTokens ↔
        quantityOf [.cacheWriteToken] lines = usage.cacheWriteInputTokens)) ∧
    ∀ rates', snapshot.rates.Perm rates' → ∃ snapshot',
      RateCardSnapshot.validate digest { content with rates := rates' } none = .ok snapshot' ∧
        priceModelUsage fingerprint usage snapshot' options =
          .ok { priced with rateSnapshotId := some snapshot'.snapshotId } := by
  obtain ⟨rfl, hids⟩ := validate_rates hvalid
  constructor
  · obtain ⟨lines, hcharges, hexplains⟩ := exists_lines hids h hamount
    refine ⟨lines, hcharges, hexplains, ?_⟩
    rw [quantityOf_input, hcharges.input]
    constructor <;> intro hsum <;> linarith
  · intro rates' hperm
    exact ⟨_, validate_perm hvalid hperm, price_perm hperm h hamount⟩

end Price

/-! ## Two meters of cache writes -/

theorem one_pos_rate : (0 : ℚ) < 1 := by norm_num

theorem one_nonneg_rate : (0 : ℚ) ≤ 1 := by norm_num

def dollarRate (rateId : String) (rateType : RateType) (meter : String) : RateCardRate where
  rateId := rateId
  rateType := rateType
  meter := meter
  inputUnit := "token"
  outputUnit := "USD"
  unitQuantity := 1
  rateAmount := 1
  unit_pos := one_pos_rate
  amount_nonneg := one_nonneg_rate

def exampleCard (rates : List RateCardRate) : RateCardContent where
  provider := "provider"
  model := "model"
  effectiveFrom := 0
  effectiveUntil := none
  currency := some "USD"
  rates := rates
  rest := ""

/-- The digest tells the order of the rates. -/
def exampleDigest (content : RateCardContent) : String := String.join (content.rates.map (·.rateId))

def tokenRates : List RateCardRate :=
  [dollarRate "in" .inputToken "input_tokens", dollarRate "out" .outputToken "output_tokens",
    dollarRate "write" .cacheWriteToken "cache_write_input_tokens"]

def hourRate : RateCardRate := dollarRate "hour" .cacheWriteToken "cache_write_1h"

/-- Forty of a hundred tokens were written to a cache. -/
def exampleUsage : ModelTokenUsage where
  provider := "provider"
  model := "model"
  accessChannel := .api
  inputTokens := 100
  cachedInputTokens := 0
  cacheWriteInputTokens := 40
  cacheWriteSet := true
  outputTokens := 5
  reasoningOutputTokens := 0
  evidence := ⟨.complete, .localMeter, .observed, none, none, none, none, consistent_metered⟩
  unset := by simp
  subsets := by norm_num
  reasoning := by norm_num

def exampleSnapshot (rates : List RateCardRate) : RateCardSnapshot :=
  { exampleCard rates with snapshotId := "rate_" ++ exampleDigest (exampleCard rates) }

def priceOf (rates : List RateCardRate) (options : PriceOptions) :
    Option (Option ℚ × List (String × ℚ) × Option String) :=
  (priceModelUsage (fun _ => "") exampleUsage (exampleSnapshot rates) options).toOption.map
    fun priced => (priced.amount, priced.appliedMeterQuantities.rows, priced.rateSnapshotId)

/-- Sixty tokens at the input rate, forty at that of the cache writes. -/
theorem price_of_one_meter :
    ∃ priced, priceModelUsage (fun _ => "") exampleUsage (exampleSnapshot tokenRates) {} =
        .ok priced ∧
      ∃ lines, Charges tokenRates exampleUsage {} lines ∧ Explains lines priced 105 := by
  have hvalid : RateCardSnapshot.validate exampleDigest (exampleCard tokenRates) none =
      .ok (exampleSnapshot tokenRates) := by decide +kernel
  have hprice : (priceModelUsage (fun _ => "") exampleUsage (exampleSnapshot tokenRates)
      {}).toOption.map (·.amount) = some (some 105) := by decide +kernel
  obtain ⟨priced, hpriced, hamount⟩ := Option.map_eq_some_iff.mp hprice
  have hok : priceModelUsage (fun _ => "") exampleUsage (exampleSnapshot tokenRates) {} =
      .ok priced := by
    revert hpriced
    cases priceModelUsage (fun _ => "") exampleUsage (exampleSnapshot tokenRates) {} with
    | error e => exact fun h => absurd h (Option.some_ne_none priced).symm
    | ok other => exact fun h => by rw [Option.some.inj h]
  obtain ⟨⟨lines, hcharges, hexplains, -⟩, -⟩ := price_model_usage hvalid hok hamount
  exact ⟨priced, hok, lines, hcharges, hexplains⟩

/-- The caller knows forty tokens of another meter of cache writes: the input of a hundred tokens is
charged for a hundred and forty. And a card in another order has another id. -/
theorem cache_writes_charged_twice :
    RateCardSnapshot.validate exampleDigest (exampleCard (hourRate :: tokenRates)) none =
      .ok (exampleSnapshot (hourRate :: tokenRates)) ∧
    priceOf (hourRate :: tokenRates)
        { meterQuantities := fun meter => if meter = "cache_write_1h" then some 40 else none } =
      some (some 145, [("in", 60), ("out", 5), ("hour", 40), ("write", 40)],
        some "rate_hourinoutwrite") ∧
    (60 + 40 + 40 : ℚ) ≠ exampleUsage.inputTokens ∧
    priceOf tokenRates {} ≠ priceOf tokenRates.reverse {} := by
  decide +kernel

end AeepRouter.ModelPricing

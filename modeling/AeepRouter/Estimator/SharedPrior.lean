import AeepRouter.Estimator.Estimates
import AeepRouter.Lib.JsonSchema
import AeepRouter.Lib.Retention

/-!
# Shared evidence

`sharedPrior` rewrites the static estimate of an executor by the latest accepted evidence, metric by
metric. Every metric has fields of its own, so that what is accepted for one does not matter for
another (`applyAcceptance_frame`), and the shared prior fails just where a single metric does not fit
the static estimate (`sharedPrior_ok_iff`).
-/

namespace AeepRouter.Estimator

open Lib Evidence

/-! ## Summaries -/

section Summary

-- the finite number that `float` reads in a text
variable (floatOf : String → Option ℚ)

def numberValue : Json → Option ℚ
  | .num q => some q
  | .str text => floatOf text
  | _ => none

def integerValue (value : Option Json) : ℕ :=
  match value.bind (numberValue floatOf) with
  | some parsed => if 0 ≤ parsed then ⌊parsed⌋.toNat else 0
  | none => 0

mutual

def summaryMedian (keys : List String) : Json → Option ℚ
  | .obj fields =>
    (keys.findSome? fun key => (fields.lookup key).bind (numberValue floatOf)).or
      (nestedMedian keys fields)
  | value => numberValue floatOf value

/-- The first median among the values of an object. -/
def nestedMedian (keys : List String) : List (String × Json) → Option ℚ
  | [] => none
  | field :: fields => (summaryMedian keys field.2).or (nestedMedian keys fields)

end

abbrev Summary := List (String × Json)

def summaryTrials (summary : Summary) : ℕ :=
  match summary.lookup "success" with
  | some (.obj success) => integerValue floatOf (success.lookup "trials")
  | _ => 0

def sampleSize (summary : Summary) : ℕ :=
  if integerValue floatOf (summary.lookup "sample_size") ≠ 0 then
    integerValue floatOf (summary.lookup "sample_size")
  else summaryTrials floatOf summary

def sharedLatency (summary : Summary) : Option ℚ :=
  (summary.lookup "latency").bind (summaryMedian floatOf ["median_ms", "end_to_end_ms"])

def tokenFields : List (ResourceField × String) :=
  [(.inputTokens, "input_tokens"), (.cachedInputTokens, "cached_input_tokens"),
    (.cacheWriteInputTokens, "cache_write_input_tokens"), (.outputTokens, "output_tokens"),
    (.reasoningOutputTokens, "reasoning_output_tokens")]

/-- The count of a token field. -/
def sharedTokens (summary : Summary) (name : String) : Option ℚ :=
  match summary.lookup "tokens" with
  | some (.obj tokens) => (tokens.lookup name).bind (summaryMedian floatOf ["median"])
  | _ => none

/-- The success rate of a summary, told or counted. -/
def sharedRate (summary : Summary) : Option ℚ :=
  match summary.lookup "success" with
  | some (.obj success) =>
    let trials := integerValue floatOf (success.lookup "trials")
    ((success.lookup "success_rate").bind (numberValue floatOf)).or
      (if trials ≠ 0 then some (integerValue floatOf (success.lookup "successes") / trials) else none)
  | _ => none

def sharedQuality (summary : Summary) : Option ℚ :=
  match summary.lookup "success" with
  | some (.obj success) => (success.lookup "quality_median").bind (numberValue floatOf)
  | _ => none

def sharedCash (summary : Summary) : Option ℚ :=
  match summary.lookup "cost" with
  | some (.obj cost) =>
    (((cost.lookup "actual_cash").bind (summaryMedian floatOf ["median", "actual_cash_usd"])).or
      ((cost.lookup "actual_cash_usd").bind (numberValue floatOf))).filter (0 ≤ ·)
  | _ => none

end Summary

/-! ## Records -/

inductive EvidenceAcceptanceStatus where
  | pending
  | accepted
  | acceptedAsPrior
  | rejected
  | stale
  | superseded
  deriving DecidableEq, Repr

structure EvidenceRecord where
  evidenceId : String
  summary : Option Summary

structure EvidenceAcceptance where
  evidenceId : String
  metric : String
  status : EvidenceAcceptanceStatus
  confidence : ℚ
  effectiveTrust : TrustLevel
  evaluatedAt : Int
  confident : confidence ∈ Set.Icc 0 1

structure EvidenceReuse where
  enabled : Bool
  maxSharedWeight : ℚ
  sharedPriorSamples : ℕ
  weight_mem : maxSharedWeight ∈ Set.Icc 0 1
  samples_pos : 1 ≤ sharedPriorSamples

/-! ## The shared prior -/

section Shared

variable (floatOf : String → Option ℚ)

def sharedEvidence (acceptance : EvidenceAcceptance) : MeasurementEvidence where
  status := .complete
  source := .staticEstimate
  trust := acceptance.effectiveTrust
  evidenceId := some acceptance.evidenceId
  observedAt := some acceptance.evaluatedAt
  consistent := consistent_static

def RouteEstimate.assign (base : RouteEstimate) (field : ResourceField) (q : ℚ) :
    Result RouteEstimate := do
  let resources ← base.resources.assign field q
  pure { base with resources := resources }

theorem clampSuccess_mem (q : ℚ) : min 1 (max (1 / 1000) q) ∈ Set.Icc (1 / 1000 : ℚ) 1 :=
  ⟨le_min (by norm_num) (le_max_left _ _), min_le_left _ _⟩

theorem clampQuality_mem (q : ℚ) : min 1 (max 0 q) ∈ Set.Icc (0 : ℚ) 1 :=
  ⟨le_min zero_le_one (le_max_left _ _), min_le_left _ _⟩

def blendedSuccess (success : ℚ) (rate : Option ℚ) (weight : ℚ) : ℚ :=
  match rate with
  | some rate => min 1 (max (1 / 1000) (blend success rate weight))
  | none => success

def blendedQuality (quality : ℚ) (shared : Option ℚ) (weight : ℚ) : ℚ :=
  match shared with
  | some shared => min 1 (max 0 (blend quality shared weight))
  | none => quality

theorem blendedSuccess_mem {success : ℚ} (h : success ∈ Set.Icc (1 / 1000 : ℚ) 1) (rate : Option ℚ)
    (weight : ℚ) : blendedSuccess success rate weight ∈ Set.Icc (1 / 1000 : ℚ) 1 := by
  cases rate with
  | none => exact h
  | some rate => exact clampSuccess_mem _

theorem blendedQuality_mem {quality : ℚ} (h : quality ∈ Set.Icc (0 : ℚ) 1) (shared : Option ℚ)
    (weight : ℚ) : blendedQuality quality shared weight ∈ Set.Icc (0 : ℚ) 1 := by
  cases shared with
  | none => exact h
  | some shared => exact clampQuality_mem _

def applyToken (summary : Summary) (w : ℚ) (base : RouteEstimate)
    (token : ResourceField × String) : Result RouteEstimate :=
  match sharedTokens floatOf summary token.2 with
  | some value =>
    base.assign token.1 (Decimal.halfEven (blend (base.resources.value token.1) value w))
  | none => pure base

def applyMetric (base : RouteEstimate) (acceptance : EvidenceAcceptance) (summary : Summary)
    (weight : ℚ) : Result RouteEstimate :=
  if acceptance.metric = "latency" then
    match sharedLatency floatOf summary with
    | some latency => base.assign .latencyMs (blend (base.resources.value .latencyMs) latency weight)
    | none => pure base
  else if acceptance.metric = "tokens" then
    tokenFields.foldlM (applyToken floatOf summary weight) base
  else if acceptance.metric = "correctness" then
    pure { base with
      successProbability :=
        blendedSuccess base.successProbability (sharedRate floatOf summary) weight
      qualityScore := blendedQuality base.qualityScore (sharedQuality floatOf summary) weight
      bounded := { base.bounded with
        success := blendedSuccess_mem base.bounded.success _ _
        quality := blendedQuality_mem base.bounded.quality _ _ } }
  else if acceptance.metric = "cost" then
    match sharedCash floatOf summary with
    | some amount => do
      let cash ← CashEstimate.make (some (blend (base.cash.amountUsd.getD 0) amount weight))
        base.cash.upperBoundUsd (sharedEvidence acceptance)
      pure { base with cash := cash }
    | none => pure base
  else pure base

def sharedWeight (reuse : EvidenceReuse) (acceptance : EvidenceAcceptance) (samples : ℕ) : ℚ :=
  min reuse.maxSharedWeight
    (acceptance.confidence * samples / (samples + reuse.sharedPriorSamples))

theorem sharedWeight_mem (reuse : EvidenceReuse) (acceptance : EvidenceAcceptance) (samples : ℕ) :
    sharedWeight reuse acceptance samples ∈ Set.Icc (0 : ℚ) 1 := by
  obtain ⟨h0, -⟩ := acceptance.confident
  refine ⟨le_min reuse.weight_mem.1 (by positivity), (min_le_left _ _).trans reuse.weight_mem.2⟩

theorem confidence_mem {base : RouteEstimate} {acceptance : EvidenceAcceptance} {w : ℚ}
    (hw : w ∈ Set.Icc (0 : ℚ) 1) :
    min 1 (blend base.confidence acceptance.confidence w) ∈ Set.Icc (0 : ℚ) 1 :=
  ⟨le_min zero_le_one (le_blend hw.1 hw.2 base.bounded.confident.1 acceptance.confident.1),
    min_le_left _ _⟩

/-- One turn of the loop over the latest acceptances, with the greatest sample so far. -/
def applyAcceptance (reuse : EvidenceReuse) (summaryOf : String → Option Summary)
    (state : RouteEstimate × ℕ) (acceptance : EvidenceAcceptance) : Result (RouteEstimate × ℕ) :=
  match summaryOf acceptance.evidenceId with
  | none => pure state
  | some summary => do
    let samples := sampleSize floatOf summary
    let weight := sharedWeight reuse acceptance samples
    if weight ≤ 0 then pure (state.1, max state.2 samples)
    else do
      let base ← applyMetric floatOf state.1 acceptance summary weight
      pure ({ base with
        confidence := min 1 (blend base.confidence acceptance.confidence weight)
        bounded := { base.bounded with
          confident := confidence_mem (sharedWeight_mem reuse acceptance samples) } },
        max state.2 samples)

def latest (acceptances : List EvidenceAcceptance) : List EvidenceAcceptance :=
  ((acceptances.filter fun item => item.status = .accepted ∨ item.status = .acceptedAsPrior).foldl
    Table.assign (∅ : Table EvidenceAcceptance (·.metric))).rows

/-- The summary of the record of an id; of two records the later one counts. -/
def summaryOf (records : List EvidenceRecord) (evidenceId : String) : Option Summary :=
  ((records.foldl Table.assign (∅ : Table EvidenceRecord (·.evidenceId))).find? evidenceId).bind
    (·.summary)

def sharedPrior (reuse : EvidenceReuse) (records : List EvidenceRecord)
    (acceptances : List EvidenceAcceptance) (estimate : RouteEstimate) : Result RouteEstimate :=
  if ¬ reuse.enabled then pure estimate
  else do
    let (base, maximumSample) ← (latest acceptances).foldlM
      (applyAcceptance floatOf reuse (summaryOf records)) (estimate, 0)
    pure (if latest acceptances = [] then base
      else { base with
        source := .blended
        sampleSize := maximumSample })

end Shared

/-! ## Which evidence fits -/

structure Alike (metric : String) (a b : RouteEstimate) : Prop where
  latency : metric = "latency" → a.resources.value .latencyMs = b.resources.value .latencyMs
  tokens : metric = "tokens" → ∀ token ∈ tokenFields,
    a.resources.value token.1 = b.resources.value token.1
  success : metric = "correctness" → a.successProbability = b.successProbability
  quality : metric = "correctness" → a.qualityScore = b.qualityScore
  cash : metric = "cost" → a.cash = b.cash

/-- A summary with which no field of the metric leaves its bounds: no latency or count becomes
negative, and no amount exceeds the upper bound. -/
structure Fits (floatOf : String → Option ℚ) (base : RouteEstimate) (metric : String)
    (summary : Summary) (weight : ℚ) : Prop where
  latency : metric = "latency" → ∀ latency ∈ sharedLatency floatOf summary,
    0 ≤ blend (base.resources.value .latencyMs) latency weight
  tokens : metric = "tokens" → ∀ token ∈ tokenFields, ∀ value ∈ sharedTokens floatOf summary token.2,
    0 ≤ Decimal.halfEven (blend (base.resources.value token.1) value weight)
  cash : metric = "cost" → ∀ amount ∈ sharedCash floatOf summary,
    ∀ upper ∈ base.cash.upperBoundUsd, blend (base.cash.amountUsd.getD 0) amount weight ≤ upper

section Metric

variable {floatOf : String → Option ℚ} {base base' next : RouteEstimate} {metric : String}
  {acceptance : EvidenceAcceptance} {summary : Summary} {w : ℚ}

theorem Alike.refl : Alike metric base base :=
  ⟨fun _ => rfl, fun _ _ _ => rfl, fun _ => rfl, fun _ => rfl, fun _ => rfl⟩

theorem Alike.symm (h : Alike metric base next) : Alike metric next base :=
  ⟨fun hm => (h.latency hm).symm, fun hm t ht => (h.tokens hm t ht).symm,
    fun hm => (h.success hm).symm, fun hm => (h.quality hm).symm, fun hm => (h.cash hm).symm⟩

theorem Alike.trans (h : Alike metric base base') (h' : Alike metric base' next) :
    Alike metric base next :=
  ⟨fun hm => (h.latency hm).trans (h'.latency hm),
    fun hm t ht => (h.tokens hm t ht).trans (h'.tokens hm t ht),
    fun hm => (h.success hm).trans (h'.success hm), fun hm => (h.quality hm).trans (h'.quality hm),
    fun hm => (h.cash hm).trans (h'.cash hm)⟩

theorem Fits.congr (h : Alike metric base base') (hfits : Fits floatOf base metric summary w) :
    Fits floatOf base' metric summary w where
  latency hm latency hl := h.latency hm ▸ hfits.latency hm latency hl
  tokens hm token ht value hv := h.tokens hm token ht ▸ hfits.tokens hm token ht value hv
  cash hm amount ha := h.cash hm ▸ hfits.cash hm amount ha

theorem assign_ok_iff {field : ResourceField} {q : ℚ} :
    (∃ next, base.assign field q = .ok next) ↔ 0 ≤ q ∧ (field.integer → q.den = 1) := by
  simp only [RouteEstimate.assign, bind_ok, pure_ok]
  constructor
  · rintro ⟨-, r, hr, -⟩
    have hvalue := ResourceVector.modelValidate_ok.mp hr
    have hfield : r.value field = q := by rw [hvalue, Function.update_self]
    exact hfield ▸ ⟨r.nonneg field, r.whole field⟩
  · rintro ⟨h0, h1⟩
    have hvalid := base.resources.valid.update h0 h1
    obtain ⟨r, hr, -⟩ := ResourceVector.modelValidate_isOk hvalid
    exact ⟨_, r, hr, rfl⟩

theorem assign_frame {field : ResourceField} {q : ℚ} (h : base.assign field q = .ok next) :
    ∃ resources : ResourceVector, next = { base with resources := resources } ∧
      ∀ other, other ≠ field → resources.value other = base.resources.value other := by
  simp only [RouteEstimate.assign, bind_ok, pure_ok] at h
  obtain ⟨r, hr, rfl⟩ := h
  refine ⟨r, rfl, fun other hne => ?_⟩
  rw [ResourceVector.modelValidate_ok.mp hr, Function.update_of_ne hne]

theorem applyToken_frame {token : ResourceField × String}
    (h : applyToken floatOf summary w base token = .ok next) :
    ∃ resources : ResourceVector, next = { base with resources := resources } ∧
      ∀ other, other ≠ token.1 → resources.value other = base.resources.value other := by
  unfold applyToken at h
  split at h
  · exact assign_frame h
  · rw [pure_ok] at h
    exact ⟨base.resources, h.symm, fun _ _ => rfl⟩

theorem applyToken_ok_iff {token : ResourceField × String} :
    (∃ next, applyToken floatOf summary w base token = .ok next) ↔
      ∀ value ∈ sharedTokens floatOf summary token.2,
        0 ≤ Decimal.halfEven (blend (base.resources.value token.1) value w) := by
  unfold applyToken
  cases sharedTokens floatOf summary token.2 with
  | none => exact ⟨fun _ _ h => absurd h (Option.not_mem_none _), fun _ => ⟨base, rfl⟩⟩
  | some value =>
    simp only [assign_ok_iff, Option.mem_some, forall_eq', Int.cast_nonneg_iff, Rat.den_intCast,
      implies_true, and_true]

theorem applyTokens_ok_iff {tokens : List (ResourceField × String)}
    (hdistinct : (tokens.map (·.1)).Nodup) :
    (∃ next, tokens.foldlM (applyToken floatOf summary w) base = .ok next) ↔
      ∀ token ∈ tokens, ∀ value ∈ sharedTokens floatOf summary token.2,
        0 ≤ Decimal.halfEven (blend (base.resources.value token.1) value w) := by
  refine foldlM_ok_iff (fun _ _ => applyToken_ok_iff) (fun base token next other h hne => ?_)
    hdistinct
  obtain ⟨resources, rfl, hother⟩ := applyToken_frame h
  rw [hother other.1 hne]

theorem applyTokens_frame {tokens : List (ResourceField × String)}
    (h : tokens.foldlM (applyToken floatOf summary w) base = .ok next) :
    ∃ resources : ResourceVector, next = { base with resources := resources } ∧
      ∀ other, other ∉ tokens.map (·.1) → resources.value other = base.resources.value other := by
  induction tokens generalizing base with
  | nil =>
    rw [List.foldlM_nil, pure_ok] at h
    exact ⟨base.resources, h.symm, fun _ _ => rfl⟩
  | cons token tokens ih =>
    rw [List.foldlM_cons, bind_ok] at h
    obtain ⟨middle, hmiddle, hrest⟩ := h
    obtain ⟨resources, rfl, hother⟩ := applyToken_frame hmiddle
    obtain ⟨resources', rfl, hother'⟩ := ih hrest
    refine ⟨resources', rfl, fun other hne => ?_⟩
    rw [List.map_cons, List.mem_cons, not_or] at hne
    rw [hother' other hne.2, hother other hne.1]

theorem sharedCash_nonneg {amount : ℚ} (h : sharedCash floatOf summary = some amount) :
    0 ≤ amount := by
  unfold sharedCash at h
  split at h
  · exact of_decide_eq_true (Option.filter_eq_some_iff.mp h).2
  · cases h

theorem cash_ok_iff {amount : ℚ} (hw : w ∈ Set.Icc (0 : ℚ) 1) (hamount : 0 ≤ amount) :
    (∃ next cash, CashEstimate.make (some (blend (base.cash.amountUsd.getD 0) amount w))
        base.cash.upperBoundUsd (sharedEvidence acceptance) = .ok cash ∧
          { base with cash := cash } = next) ↔
      ∀ upper ∈ base.cash.upperBoundUsd, blend (base.cash.amountUsd.getD 0) amount w ≤ upper := by
  constructor
  · rintro ⟨-, cash, hcash, -⟩ upper hupper
    obtain ⟨hamountUsd, hupperUsd⟩ := CashEstimate.fields_of_make hcash
    exact cash.valid.ordered _ hamountUsd _ (hupperUsd ▸ hupper)
  · intro h
    have hold : 0 ≤ base.cash.amountUsd.getD 0 := by
      cases hcash : base.cash.amountUsd with
      | none => exact le_rfl
      | some old => exact base.cash.valid.amount_nonneg old hcash
    refine ⟨_, _, CashEstimate.make_ok ⟨?_, base.cash.valid.upper_nonneg, ?_, ?_, ?_⟩, rfl⟩
    · rintro _ ⟨⟩
      exact le_blend hw.1 hw.2 hold hamount
    · simp [sharedEvidence]
    · simp [sharedEvidence]
    · rintro _ ⟨⟩ upper hupper
      exact h upper hupper

theorem applyMetric_ok_iff (hw : w ∈ Set.Icc (0 : ℚ) 1) :
    (∃ next, applyMetric floatOf base acceptance summary w = .ok next) ↔
      Fits floatOf base acceptance.metric summary w := by
  unfold applyMetric
  by_cases hlatency : acceptance.metric = "latency"
  · have hfits : Fits floatOf base acceptance.metric summary w ↔
        ∀ latency ∈ sharedLatency floatOf summary,
          0 ≤ blend (base.resources.value .latencyMs) latency w := by
      refine ⟨fun h => h.latency hlatency, fun h => ⟨fun _ => h, fun hm => ?_, fun hm => ?_⟩⟩ <;>
      · rw [hlatency] at hm
        exact absurd hm (by decide)
    rw [if_pos hlatency, hfits]
    cases sharedLatency floatOf summary with
    | none => exact ⟨fun _ _ h => absurd h (Option.not_mem_none _), fun _ => ⟨base, rfl⟩⟩
    | some latency =>
      simp [assign_ok_iff, ResourceField.integer]
  by_cases htokens : acceptance.metric = "tokens"
  · have hfits : Fits floatOf base acceptance.metric summary w ↔
        ∀ token ∈ tokenFields, ∀ value ∈ sharedTokens floatOf summary token.2,
          0 ≤ Decimal.halfEven (blend (base.resources.value token.1) value w) := by
      refine ⟨fun h => h.tokens htokens, fun h => ⟨fun hm => absurd hm hlatency, fun _ => h,
        fun hm => ?_⟩⟩
      rw [htokens] at hm
      exact absurd hm (by decide)
    rw [if_neg hlatency, if_pos htokens, hfits]
    exact applyTokens_ok_iff (by decide)
  by_cases hcost : acceptance.metric = "cost"
  · have hfits : Fits floatOf base acceptance.metric summary w ↔
        ∀ amount ∈ sharedCash floatOf summary, ∀ upper ∈ base.cash.upperBoundUsd,
          blend (base.cash.amountUsd.getD 0) amount w ≤ upper :=
      ⟨fun h => h.cash hcost, fun h => ⟨fun hm => absurd hm hlatency, fun hm => absurd hm htokens,
        fun _ => h⟩⟩
    have hcorrectness : acceptance.metric ≠ "correctness" := by
      rw [hcost]
      decide
    rw [if_neg hlatency, if_neg htokens, if_neg hcorrectness, if_pos hcost, hfits]
    cases hcash : sharedCash floatOf summary with
    | none => exact ⟨fun _ _ h => absurd h (Option.not_mem_none _), fun _ => ⟨base, rfl⟩⟩
    | some amount =>
      simp only [Option.mem_some, forall_eq', bind_ok, pure_ok]
      exact cash_ok_iff hw (sharedCash_nonneg hcash)
  · have hfits : Fits floatOf base acceptance.metric summary w :=
      ⟨fun hm => absurd hm hlatency, fun hm => absurd hm htokens, fun hm => absurd hm hcost⟩
    rw [if_neg hlatency, if_neg htokens, if_neg hcost]
    refine ⟨fun _ => hfits, fun _ => ?_⟩
    split
    · exact ⟨_, rfl⟩
    · exact ⟨_, rfl⟩

theorem alike_of_resources {resources : ResourceVector}
    (hlatency : metric = "latency" → resources.value .latencyMs = base.resources.value .latencyMs)
    (htokens : metric = "tokens" → ∀ token ∈ tokenFields,
      resources.value token.1 = base.resources.value token.1) :
    Alike metric base { base with resources := resources } :=
  ⟨fun hm => (hlatency hm).symm, fun hm token ht => (htokens hm token ht).symm, fun _ => rfl,
    fun _ => rfl, fun _ => rfl⟩

theorem latency_not_token : ∀ token ∈ tokenFields, token.1 ≠ .latencyMs := by decide

theorem applyMetric_frame (h : applyMetric floatOf base acceptance summary w = .ok next) :
    next.riskScore = base.riskScore ∧ next.confidence = base.confidence ∧
      ∀ metric, metric ≠ acceptance.metric → Alike metric base next := by
  unfold applyMetric at h
  split at h
  · next hlatency =>
    split at h
    · obtain ⟨resources, rfl, hother⟩ := assign_frame h
      refine ⟨rfl, rfl, fun metric hne => alike_of_resources (fun hm => ?_) fun _ token ht => ?_⟩
      · exact absurd (hm.trans hlatency.symm) hne
      · exact hother token.1 (latency_not_token token ht)
    · rw [pure_ok] at h
      exact h ▸ ⟨rfl, rfl, fun _ _ => .refl⟩
  split at h
  · next htokens =>
    obtain ⟨resources, rfl, hother⟩ := applyTokens_frame h
    refine ⟨rfl, rfl, fun metric hne => alike_of_resources (fun _ => ?_) fun hm => ?_⟩
    · exact hother .latencyMs (by decide)
    · exact absurd (hm.trans htokens.symm) hne
  split at h
  · next hcorrectness =>
    rw [pure_ok] at h
    subst h
    refine ⟨rfl, rfl, fun metric hne => ⟨fun _ => rfl, fun _ _ _ => rfl, fun hm => ?_, fun hm => ?_,
      fun _ => rfl⟩⟩ <;> exact absurd (hm.trans hcorrectness.symm) hne
  split at h
  · next hcost =>
    split at h
    · simp only [bind_ok, pure_ok] at h
      obtain ⟨cash, -, rfl⟩ := h
      exact ⟨rfl, rfl, fun metric hne => ⟨fun _ => rfl, fun _ _ _ => rfl, fun _ => rfl, fun _ => rfl,
        fun hm => absurd (hm.trans hcost.symm) hne⟩⟩
    · rw [pure_ok] at h
      exact h ▸ ⟨rfl, rfl, fun _ _ => .refl⟩
  · rw [pure_ok] at h
    exact h ▸ ⟨rfl, rfl, fun _ _ => .refl⟩

theorem applyMetric_correctness (hmetric : acceptance.metric = "correctness")
    (h : applyMetric floatOf base acceptance summary w = .ok next) :
    next.successProbability =
        blendedSuccess base.successProbability (sharedRate floatOf summary) w ∧
      next.qualityScore = blendedQuality base.qualityScore (sharedQuality floatOf summary) w := by
  simp only [applyMetric, hmetric, if_true, pure_ok, String.reduceEq, if_false] at h
  subst h
  exact ⟨rfl, rfl⟩

end Metric

/-! ## The loop over the latest acceptances -/

def Suits (floatOf : String → Option ℚ) (reuse : EvidenceReuse)
    (summaryOf : String → Option Summary) (base : RouteEstimate) (acceptance : EvidenceAcceptance) :
    Prop :=
  ∀ summary ∈ summaryOf acceptance.evidenceId,
    0 < sharedWeight reuse acceptance (sampleSize floatOf summary) →
      Fits floatOf base acceptance.metric summary
        (sharedWeight reuse acceptance (sampleSize floatOf summary))

/-- A shared value that leaves a prior where it is: the same, or beyond the bound it is at. -/
def Unmoved (lower prior : ℚ) (shared : Option ℚ) : Prop :=
  ∀ value ∈ shared, value = prior ∨ prior = 1 ∧ 1 ≤ value ∨ prior = lower ∧ value ≤ lower

/-- The evidence of an acceptance moves neither the success probability nor the quality. -/
def Still (floatOf : String → Option ℚ) (reuse : EvidenceReuse)
    (summaryOf : String → Option Summary) (base : RouteEstimate) (acceptance : EvidenceAcceptance) :
    Prop :=
  acceptance.metric = "correctness" → ∀ summary ∈ summaryOf acceptance.evidenceId,
    0 < sharedWeight reuse acceptance (sampleSize floatOf summary) →
      Unmoved (1 / 1000) base.successProbability (sharedRate floatOf summary) ∧
        Unmoved 0 base.qualityScore (sharedQuality floatOf summary)

theorem clamp_blend_eq_iff {lower prior value w : ℚ} (hw : 0 < w) (hprior : prior ∈ Set.Icc lower 1) :
    min 1 (max lower (blend prior value w)) = prior ↔
      value = prior ∨ prior = 1 ∧ 1 ≤ value ∨ prior = lower ∧ value ≤ lower := by
  obtain ⟨hlower, hone⟩ := hprior
  have hblend : blend prior value w = prior + w * (value - prior) := by
    unfold blend
    ring
  rw [hblend]
  rcases lt_trichotomy value prior with hlt | heq | hgt
  · have hneg : w * (value - prior) < 0 := mul_neg_of_pos_of_neg hw (by linarith)
    have hmax : max lower (prior + w * (value - prior)) ≤ 1 := max_le (by linarith) (by linarith)
    rw [min_eq_right hmax]
    constructor
    · intro h
      rcases max_choice lower (prior + w * (value - prior)) with hm | hm
      · exact .inr (.inr ⟨h.symm.trans hm, by linarith⟩)
      · rw [hm] at h
        linarith
    · rintro (h | ⟨h, h'⟩ | ⟨h, h'⟩)
      · linarith
      · linarith
      · rw [max_eq_left (by linarith), h]
  · rw [heq, sub_self, mul_zero, add_zero, max_eq_right hlower, min_eq_right hone]
    simp
  · have hpos : 0 < w * (value - prior) := mul_pos hw (by linarith)
    rw [max_eq_right (by linarith)]
    constructor
    · intro h
      rcases min_choice 1 (prior + w * (value - prior)) with hm | hm
      · have : prior = 1 := h.symm.trans hm
        exact .inr (.inl ⟨this, by linarith⟩)
      · rw [hm] at h
        linarith
    · rintro (h | ⟨h, h'⟩ | ⟨h, h'⟩)
      · linarith
      · rw [min_eq_left (by linarith), h]
      · linarith

theorem blendedSuccess_eq_iff {success w : ℚ} {rate : Option ℚ} (hw : 0 < w)
    (h : success ∈ Set.Icc (1 / 1000 : ℚ) 1) :
    blendedSuccess success rate w = success ↔ Unmoved (1 / 1000) success rate := by
  cases rate with
  | none => exact ⟨fun _ _ hmem => absurd hmem (Option.not_mem_none _), fun _ => rfl⟩
  | some rate =>
    simp only [blendedSuccess, Unmoved, Option.mem_some, forall_eq']
    exact clamp_blend_eq_iff hw h

theorem blendedQuality_eq_iff {quality w : ℚ} {shared : Option ℚ} (hw : 0 < w)
    (h : quality ∈ Set.Icc (0 : ℚ) 1) :
    blendedQuality quality shared w = quality ↔ Unmoved 0 quality shared := by
  cases shared with
  | none => exact ⟨fun _ _ hmem => absurd hmem (Option.not_mem_none _), fun _ => rfl⟩
  | some shared =>
    simp only [blendedQuality, Unmoved, Option.mem_some, forall_eq']
    exact clamp_blend_eq_iff hw h

section Loop

variable {floatOf : String → Option ℚ} {reuse : EvidenceReuse}
  {summaryOf : String → Option Summary} {state state' : RouteEstimate × ℕ}
  {acceptance : EvidenceAcceptance} {items : List EvidenceAcceptance}

theorem Alike.of_confidence {metric : String} {base : RouteEstimate} {q : ℚ}
    (h : Bounded base.successProbability base.qualityScore base.riskScore q) :
    Alike metric base { base with
      confidence := q
      bounded := h } :=
  ⟨fun _ => rfl, fun _ _ _ => rfl, fun _ => rfl, fun _ => rfl, fun _ => rfl⟩

/-- A turn leaves the estimate, or applies the metric and then blends the confidence. -/
theorem applyAcceptance_cases
    (h : applyAcceptance floatOf reuse summaryOf state acceptance = .ok state') :
    state'.1 = state.1 ∧ (∀ summary ∈ summaryOf acceptance.evidenceId,
      sharedWeight reuse acceptance (sampleSize floatOf summary) ≤ 0) ∨
    ∃ summary ∈ summaryOf acceptance.evidenceId,
      0 < sharedWeight reuse acceptance (sampleSize floatOf summary) ∧
      ∃ base, applyMetric floatOf state.1 acceptance summary
          (sharedWeight reuse acceptance (sampleSize floatOf summary)) = .ok base ∧
        ∃ q hq, state'.1 = { base with
          confidence := q
          bounded := hq } := by
  unfold applyAcceptance at h
  split at h
  · next hnone =>
    rw [pure_ok] at h
    exact .inl ⟨h ▸ rfl, by simp [hnone]⟩
  · next summary hsummary =>
    dsimp only at h
    split at h
    · next hweight =>
      rw [pure_ok] at h
      refine .inl ⟨h ▸ rfl, ?_⟩
      rw [hsummary]
      rintro _ ⟨⟩
      exact hweight
    · next hweight =>
      simp only [bind_ok, pure_ok] at h
      obtain ⟨base, hbase, rfl⟩ := h
      exact .inr ⟨summary, hsummary, not_le.mp hweight, base, hbase, _, _, rfl⟩

theorem applyAcceptance_ok_iff :
    (∃ next, applyAcceptance floatOf reuse summaryOf state acceptance = .ok next) ↔
      Suits floatOf reuse summaryOf state.1 acceptance := by
  unfold applyAcceptance Suits
  cases hsummary : summaryOf acceptance.evidenceId with
  | none => exact ⟨fun _ _ h => absurd h (Option.not_mem_none _), fun _ => ⟨_, rfl⟩⟩
  | some summary =>
    simp only [Option.mem_some, forall_eq']
    have hok := @applyMetric_ok_iff floatOf state.1 acceptance summary _
      (sharedWeight_mem reuse acceptance (sampleSize floatOf summary))
    by_cases hweight : sharedWeight reuse acceptance (sampleSize floatOf summary) ≤ 0
    · rw [if_pos hweight]
      exact ⟨fun _ h => absurd h hweight.not_gt, fun _ => ⟨_, rfl⟩⟩
    · rw [if_neg hweight, ← hok]
      simp only [bind_ok, pure_ok, not_le.mp hweight, true_imp_iff]
      constructor
      · rintro ⟨-, base, hbase, -⟩
        exact ⟨base, hbase⟩
      · rintro ⟨base, hbase⟩
        exact ⟨_, base, hbase, rfl⟩

theorem applyAcceptance_frame
    (h : applyAcceptance floatOf reuse summaryOf state acceptance = .ok state') :
    state'.1.riskScore = state.1.riskScore ∧
      ∀ metric, metric ≠ acceptance.metric → Alike metric state.1 state'.1 := by
  rcases applyAcceptance_cases h with ⟨heq, -⟩ | ⟨summary, -, -, base, hbase, q, hq, heq⟩
  · rw [heq]
    exact ⟨rfl, fun _ _ => .refl⟩
  · obtain ⟨hrisk, -, hother⟩ := applyMetric_frame hbase
    rw [heq]
    exact ⟨hrisk, fun metric hne => (hother metric hne).trans (.of_confidence hq)⟩

theorem applyAcceptance_still
    (h : applyAcceptance floatOf reuse summaryOf state acceptance = .ok state')
    (hmetric : acceptance.metric = "correctness") :
    state'.1.successProbability = state.1.successProbability ∧
        state'.1.qualityScore = state.1.qualityScore ↔
      Still floatOf reuse summaryOf state.1 acceptance := by
  rcases applyAcceptance_cases h with ⟨heq, hweight⟩ | ⟨summary, hsummary, hw, base, hbase, q, hq, heq⟩
  · rw [heq]
    refine ⟨fun _ _ summary hsummary hpos => absurd hpos (hweight summary hsummary).not_gt,
      fun _ => ⟨rfl, rfl⟩⟩
  · obtain ⟨hsuccess, hquality⟩ := applyMetric_correctness hmetric hbase
    have hstill : Still floatOf reuse summaryOf state.1 acceptance ↔
        Unmoved (1 / 1000) state.1.successProbability (sharedRate floatOf summary) ∧
          Unmoved 0 state.1.qualityScore (sharedQuality floatOf summary) := by
      rw [Option.mem_def] at hsummary
      simp only [Still, hmetric, true_imp_iff, hsummary, Option.mem_some, forall_eq', hw]
    rw [hstill, heq]
    simp only [hsuccess, hquality]
    rw [blendedSuccess_eq_iff hw state.1.bounded.success,
      blendedQuality_eq_iff hw state.1.bounded.quality]

theorem Suits.congr {base base' : RouteEstimate} (h : Alike acceptance.metric base base')
    (hsuits : Suits floatOf reuse summaryOf base acceptance) :
    Suits floatOf reuse summaryOf base' acceptance :=
  fun summary hsummary hw => (hsuits summary hsummary hw).congr h

theorem Still.congr {base base' : RouteEstimate} (h : Alike acceptance.metric base base')
    (hstill : Still floatOf reuse summaryOf base acceptance) :
    Still floatOf reuse summaryOf base' acceptance := by
  intro hmetric summary hsummary hw
  rw [← h.success hmetric, ← h.quality hmetric]
  exact hstill hmetric summary hsummary hw

/-- The loop succeeds where the evidence of each metric fits the first estimate. -/
theorem applyAcceptances_ok_iff (hdistinct : (items.map (·.metric)).Nodup) :
    (∃ next, items.foldlM (applyAcceptance floatOf reuse summaryOf) state = .ok next) ↔
      ∀ item ∈ items, Suits floatOf reuse summaryOf state.1 item := by
  refine foldlM_ok_iff (fun _ _ => applyAcceptance_ok_iff) (fun state item next other h hne => ?_)
    hdistinct
  have halike := (applyAcceptance_frame h).2 other.metric hne
  exact ⟨fun hsuits => hsuits.congr halike.symm, fun hsuits => hsuits.congr halike⟩

/-- The loop leaves the fields of a metric without evidence. -/
theorem applyAcceptances_frame {metric : String} (hmetric : ∀ item ∈ items, metric ≠ item.metric)
    (h : items.foldlM (applyAcceptance floatOf reuse summaryOf) state = .ok state') :
    Alike metric state.1 state'.1 := by
  induction items generalizing state with
  | nil =>
    rw [List.foldlM_nil, pure_ok] at h
    exact h ▸ .refl
  | cons item items ih =>
    rw [List.foldlM_cons, bind_ok] at h
    obtain ⟨middle, hmiddle, hrest⟩ := h
    rw [List.forall_mem_cons] at hmetric
    exact ((applyAcceptance_frame hmiddle).2 metric hmetric.1).trans (ih hmetric.2 hrest)

theorem applyAcceptances_still (hdistinct : (items.map (·.metric)).Nodup)
    (h : items.foldlM (applyAcceptance floatOf reuse summaryOf) state = .ok state') :
    state'.1.successProbability = state.1.successProbability ∧
        state'.1.qualityScore = state.1.qualityScore ↔
      ∀ item ∈ items, Still floatOf reuse summaryOf state.1 item := by
  induction items generalizing state with
  | nil =>
    rw [List.foldlM_nil, pure_ok] at h
    exact h ▸ ⟨fun _ _ hmem => absurd hmem List.not_mem_nil, fun _ => ⟨rfl, rfl⟩⟩
  | cons item items ih =>
    rw [List.foldlM_cons, bind_ok] at h
    obtain ⟨middle, hmiddle, hrest⟩ := h
    rw [List.map_cons, List.nodup_cons] at hdistinct
    obtain ⟨hfresh, hdistinct⟩ := hdistinct
    rw [List.forall_mem_cons]
    by_cases hmetric : item.metric = "correctness"
    · have hothers : ∀ other ∈ items, "correctness" ≠ other.metric := fun other hother heq =>
        hfresh (hmetric.trans heq ▸ List.mem_map_of_mem hother)
      have halike := applyAcceptances_frame hothers hrest
      rw [← halike.success rfl, ← halike.quality rfl, applyAcceptance_still hmiddle hmetric]
      refine ⟨fun hstill => ⟨hstill, fun other hother hcorrectness => ?_⟩, fun hstill => hstill.1⟩
      exact absurd hcorrectness.symm (hothers other hother)
    · have halike := (applyAcceptance_frame hmiddle).2 "correctness" (Ne.symm hmetric)
      have hitem : Still floatOf reuse summaryOf state.1 item := fun hcorrectness =>
        absurd hcorrectness hmetric
      rw [halike.success rfl, halike.quality rfl, ih hdistinct hrest]
      constructor
      · intro hstill
        refine ⟨hitem, fun other hother hcorrectness => ?_⟩
        exact (hstill other hother).congr (hcorrectness ▸ halike.symm) hcorrectness
      · rintro ⟨-, hstill⟩ other hother hcorrectness
        exact (hstill other hother).congr (hcorrectness ▸ halike) hcorrectness

end Loop

/-! ## The shared prior -/

section Prior

variable {floatOf : String → Option ℚ} {reuse : EvidenceReuse} {records : List EvidenceRecord}
  {acceptances : List EvidenceAcceptance} {estimate prior : RouteEstimate}

theorem latest_distinct (acceptances : List EvidenceAcceptance) :
    ((latest acceptances).map (·.metric)).Nodup :=
  Table.nodup _

/-- The shared prior fails just where the evidence of some metric does not fit the estimate. -/
theorem sharedPrior_ok_iff :
    (∃ prior, sharedPrior floatOf reuse records acceptances estimate = .ok prior) ↔
      (reuse.enabled → ∀ item ∈ latest acceptances,
        Suits floatOf reuse (summaryOf records) estimate item) := by
  have hloop := @applyAcceptances_ok_iff floatOf reuse (summaryOf records) (estimate, 0) _
    (latest_distinct acceptances)
  unfold sharedPrior
  by_cases henabled : reuse.enabled
  · rw [if_neg (not_not.mpr henabled), ← hloop]
    simp only [bind_ok, pure_ok, henabled, true_imp_iff]
    constructor
    · rintro ⟨-, last, hlast, -⟩
      exact ⟨last, hlast⟩
    · rintro ⟨last, hlast⟩
      exact ⟨_, last, hlast, rfl⟩
  · rw [if_pos henabled]
    exact ⟨fun _ h => absurd h henabled, fun _ => ⟨estimate, rfl⟩⟩

/-- What the shared prior keeps of the estimate: always the risk, and the success probability and
the quality just where the evidence of correctness moves neither. -/
theorem sharedPrior_spec (h : sharedPrior floatOf reuse records acceptances estimate = .ok prior) :
    prior.riskScore = estimate.riskScore ∧
      (prior.successProbability = estimate.successProbability ∧
          prior.qualityScore = estimate.qualityScore ↔
        (reuse.enabled → ∀ item ∈ latest acceptances,
          Still floatOf reuse (summaryOf records) estimate item)) := by
  unfold sharedPrior at h
  by_cases henabled : reuse.enabled
  · rw [if_neg (not_not.mpr henabled)] at h
    simp only [bind_ok, pure_ok] at h
    obtain ⟨last, hlast, hprior⟩ := h
    have hrisk : last.1.riskScore = estimate.riskScore :=
      foldlM_invariant (P := fun state => state.1.riskScore = estimate.riskScore)
        (fun _ _ _ hs hstep => (applyAcceptance_frame hstep).1.trans hs) rfl hlast
    have hstill := applyAcceptances_still (latest_distinct acceptances) hlast
    have hfields : prior.riskScore = last.1.riskScore ∧
        prior.successProbability = last.1.successProbability ∧
          prior.qualityScore = last.1.qualityScore := by
      rw [← hprior]
      split <;> exact ⟨rfl, rfl, rfl⟩
    obtain ⟨hlastRisk, hsuccess, hquality⟩ := hfields
    rw [hlastRisk, hsuccess, hquality, hstill]
    exact ⟨hrisk, fun h _ => h, fun h => h henabled⟩
  · rw [if_pos henabled, pure_ok] at h
    exact h ▸ ⟨rfl, fun _ habsurd => absurd habsurd henabled, fun _ => ⟨rfl, rfl⟩⟩

end Prior

end AeepRouter.Estimator

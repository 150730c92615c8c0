import AeepRouter.Economic.Aggregation

/-!
# Route estimates

Resource vectors, cash estimates and route estimates with the bounds their validators check, and the
blends of two of them. In a blend with a weight between 0 and 1 no validator fails.
-/

namespace AeepRouter.Estimator

open Lib Evidence Aggregation

/-! ## Blends -/

def blend (a b weight : ℚ) : ℚ := a * (1 - weight) + b * weight

section Blend

variable {a b c w : ℚ}

theorem le_blend (h0 : 0 ≤ w) (h1 : w ≤ 1) (ha : c ≤ a) (hb : c ≤ b) : c ≤ blend a b w := by
  have := mul_le_mul_of_nonneg_right ha (sub_nonneg.mpr h1)
  have := mul_le_mul_of_nonneg_right hb h0
  unfold blend
  linarith

theorem blend_le (h0 : 0 ≤ w) (h1 : w ≤ 1) (ha : a ≤ c) (hb : b ≤ c) : blend a b w ≤ c := by
  have := mul_le_mul_of_nonneg_right ha (sub_nonneg.mpr h1)
  have := mul_le_mul_of_nonneg_right hb h0
  unfold blend
  linarith

theorem blend_mem_Icc {d : ℚ} (h0 : 0 ≤ w) (h1 : w ≤ 1) (ha : a ∈ Set.Icc c d)
    (hb : b ∈ Set.Icc c d) : blend a b w ∈ Set.Icc c d :=
  ⟨le_blend h0 h1 ha.1 hb.1, blend_le h0 h1 ha.2 hb.2⟩

end Blend

/-! ## Resources -/

/-- The fields of a `ResourceVector`. -/
inductive ResourceField where
  | monetaryUsd
  | latencyMs
  | cpuMs
  | memoryMbSeconds
  | peakMemoryMb
  | gpuMs
  | networkBytes
  | contextTokens
  | inputTokens
  | cachedInputTokens
  | cacheWriteInputTokens
  | outputTokens
  | reasoningOutputTokens
  | subscriptionUnits
  deriving DecidableEq, Repr

namespace ResourceField

/-- `ResourceVector.model_fields`. -/
def all : List ResourceField :=
  [monetaryUsd, latencyMs, cpuMs, memoryMbSeconds, peakMemoryMb, gpuMs, networkBytes, contextTokens,
    inputTokens, cachedInputTokens, cacheWriteInputTokens, outputTokens, reasoningOutputTokens,
    subscriptionUnits]

theorem mem_all (field : ResourceField) : field ∈ all := by
  cases field <;> decide

def integer : ResourceField → Bool
  | networkBytes | contextTokens | inputTokens | cachedInputTokens | cacheWriteInputTokens
  | outputTokens | reasoningOutputTokens => true
  | _ => false

/-- `round(value) if field in integer_fields else value`. -/
def rounded (field : ResourceField) (q : ℚ) : ℚ := if field.integer then Decimal.halfEven q else q

theorem rounded_nonneg (field : ResourceField) {q : ℚ} (h : 0 ≤ q) : 0 ≤ field.rounded q := by
  unfold rounded
  split
  · exact_mod_cast Decimal.le_halfEven (by exact_mod_cast h)
  · exact h

theorem rounded_den (field : ResourceField) (q : ℚ) (h : field.integer) :
    (field.rounded q).den = 1 := by
  rw [rounded, if_pos h]
  exact Rat.den_intCast _

theorem rounded_self (field : ResourceField) {q : ℚ} (h : field.integer → q.den = 1) :
    field.rounded q = q := by
  unfold rounded
  split
  · next hint =>
    rw [← Rat.coe_int_num_of_den_eq_one (h hint), Decimal.halfEven_intCast]
  · rfl

theorem rounded_mono (field : ResourceField) {p q : ℚ} (h : p ≤ q) :
    field.rounded p ≤ field.rounded q := by
  unfold rounded
  split
  · exact_mod_cast Decimal.halfEven_mono h
  · exact h

end ResourceField

structure ResourceVector where
  value : ResourceField → ℚ
  nonneg : ∀ field, 0 ≤ value field
  whole : ∀ field, field.integer → (value field).den = 1

namespace ResourceVector

@[ext] theorem ext {a b : ResourceVector} (h : ∀ field, a.value field = b.value field) : a = b := by
  cases a
  cases b
  congr
  exact funext h

/-- The values that the fields of a vector may have. -/
abbrev Valid (values : ResourceField → ℚ) : Prop :=
  ∀ field ∈ ResourceField.all, 0 ≤ values field ∧ (field.integer → (values field).den = 1)

def modelValidate (values : ResourceField → ℚ) : Result ResourceVector :=
  if h : Valid values then
    .ok ⟨values, fun field => (h field field.mem_all).1, fun field => (h field field.mem_all).2⟩
  else .error (.value "validation error for ResourceVector")

theorem modelValidate_ok {values : ResourceField → ℚ} {r : ResourceVector} :
    modelValidate values = .ok r ↔ r.value = values := by
  unfold modelValidate
  split
  · rw [Except.ok.injEq]
    constructor
    · rintro rfl
      rfl
    · exact fun h => ext fun field => congrFun h.symm field
  · next hnot =>
    constructor
    · intro h
      cases h
    · intro h
      exact absurd (h ▸ fun field _ => ⟨r.nonneg field, r.whole field⟩) hnot

theorem modelValidate_isOk {values : ResourceField → ℚ} (h : Valid values) :
    ∃ r : ResourceVector, modelValidate values = .ok r ∧ r.value = values :=
  ⟨_, dif_pos h, rfl⟩

theorem Valid.update {values : ResourceField → ℚ} (h : Valid values) {field : ResourceField} {q : ℚ}
    (h0 : 0 ≤ q) (h1 : field.integer → q.den = 1) : Valid (Function.update values field q) := by
  intro other hother
  by_cases heq : other = field
  · rw [heq, Function.update_self]
    exact ⟨h0, h1⟩
  · rw [Function.update_of_ne heq]
    exact h other hother

theorem valid (r : ResourceVector) : Valid r.value := fun field _ => ⟨r.nonneg field, r.whole field⟩

def assign (r : ResourceVector) (field : ResourceField) (q : ℚ) : Result ResourceVector :=
  modelValidate (Function.update r.value field q)

end ResourceVector

def blendResources (a b : ResourceVector) (weight : ℚ) : Result ResourceVector :=
  ResourceVector.modelValidate fun field => field.rounded (blend (a.value field) (b.value field) weight)

theorem blendResources_ok (a b : ResourceVector) {w : ℚ} (h0 : 0 ≤ w) (h1 : w ≤ 1) :
    ∃ r : ResourceVector, blendResources a b w = .ok r ∧
      ∀ field, r.value field = field.rounded (blend (a.value field) (b.value field) w) := by
  have hvalid : ResourceVector.Valid fun field =>
      field.rounded (blend (a.value field) (b.value field) w) := fun field _ =>
    ⟨field.rounded_nonneg (le_blend h0 h1 (a.nonneg field) (b.nonneg field)), field.rounded_den _⟩
  obtain ⟨r, hr, hvalue⟩ := ResourceVector.modelValidate_isOk hvalid
  exact ⟨r, hr, fun field => congrFun hvalue field⟩

/-! ## Cash -/

/-- What the validators ask of a cash estimate. -/
structure ValidBounds (amountUsd upperBoundUsd : Option ℚ) (evidence : MeasurementEvidence) : Prop where
  amount_nonneg : ∀ amount ∈ amountUsd, 0 ≤ amount
  upper_nonneg : ∀ upper ∈ upperBoundUsd, 0 ≤ upper
  known : amountUsd ≠ none → evidence.status ≠ .unavailable
  bounded : upperBoundUsd ≠ none → evidence.status ≠ .unavailable
  ordered : ∀ amount ∈ amountUsd, ∀ upper ∈ upperBoundUsd, amount ≤ upper

structure CashEstimate where
  amountUsd : Option ℚ
  upperBoundUsd : Option ℚ
  evidence : MeasurementEvidence
  valid : ValidBounds amountUsd upperBoundUsd evidence

namespace CashEstimate

/-- The constructor with its checks. -/
def make (amountUsd upperBoundUsd : Option ℚ) (evidence : MeasurementEvidence) :
    Result CashEstimate :=
  if hamount : ¬ ∀ amount ∈ amountUsd, 0 ≤ amount then
    .error (.value "validation error for CashEstimate")
  else if hupper : ¬ ∀ upper ∈ upperBoundUsd, 0 ≤ upper then
    .error (.value "validation error for CashEstimate")
  else if hknown : amountUsd ≠ none ∧ evidence.status = .unavailable then
    .error (.value "a cash amount requires evidence")
  else if hbounded : upperBoundUsd ≠ none ∧ evidence.status = .unavailable then
    .error (.value "a cash upper bound requires evidence")
  else if hordered : ¬ ∀ amount ∈ amountUsd, ∀ upper ∈ upperBoundUsd, amount ≤ upper then
    .error (.value "upper_bound_usd must be >= amount_usd")
  else .ok ⟨amountUsd, upperBoundUsd, evidence, not_not.mp hamount, not_not.mp hupper,
    not_and.mp hknown, not_and.mp hbounded, not_not.mp hordered⟩

theorem make_ok {amountUsd upperBoundUsd : Option ℚ} {evidence : MeasurementEvidence}
    (h : ValidBounds amountUsd upperBoundUsd evidence) :
    make amountUsd upperBoundUsd evidence = .ok ⟨amountUsd, upperBoundUsd, evidence, h⟩ := by
  have hknown : ¬ (amountUsd ≠ none ∧ evidence.status = .unavailable) := not_and.mpr h.known
  have hbounded : ¬ (upperBoundUsd ≠ none ∧ evidence.status = .unavailable) := not_and.mpr h.bounded
  unfold make
  rw [dif_neg (not_not.mpr h.amount_nonneg), dif_neg (not_not.mpr h.upper_nonneg), dif_neg hknown,
    dif_neg hbounded, dif_neg (not_not.mpr h.ordered)]

theorem fields_of_make {amountUsd upperBoundUsd : Option ℚ} {evidence : MeasurementEvidence}
    {cash : CashEstimate} (h : make amountUsd upperBoundUsd evidence = .ok cash) :
    cash.amountUsd = amountUsd ∧ cash.upperBoundUsd = upperBoundUsd := by
  unfold make at h
  split_ifs at h
  cases h
  exact ⟨rfl, rfl⟩

end CashEstimate

def blendCash (a b : CashEstimate) (weight : ℚ) : Result CashEstimate :=
  match a.amountUsd, b.amountUsd with
  | _, none => .ok a
  | none, some _ => .ok b
  | some x, some y =>
    let amount := blend x y weight
    let upper := match a.upperBoundUsd, b.upperBoundUsd with
      | some u, some v => some (max u v)
      | some u, none => some u
      | none, v => v
    CashEstimate.make (some amount) (upper.filter (amount ≤ ·)) b.evidence

theorem blendCash_ok (a b : CashEstimate) {w : ℚ} (h0 : 0 ≤ w) (h1 : w ≤ 1) :
    ∃ cash, blendCash a b w = .ok cash := by
  unfold blendCash
  split
  · exact ⟨a, rfl⟩
  · exact ⟨b, rfl⟩
  · next x y hx hy =>
    have hb : b.evidence.status ≠ .unavailable := b.valid.known (by simp [hy])
    have hx0 : 0 ≤ x := a.valid.amount_nonneg x hx
    have hy0 : 0 ≤ y := b.valid.amount_nonneg y hy
    refine ⟨_, CashEstimate.make_ok ⟨?_, ?_, fun _ => hb, fun _ => hb, ?_⟩⟩
    · rintro _ ⟨⟩
      exact le_blend h0 h1 hx0 hy0
    · intro upper hupper
      exact (le_blend h0 h1 hx0 hy0).trans (of_decide_eq_true (Option.filter_eq_some_iff.mp hupper).2)
    · rintro _ ⟨⟩ upper hupper
      exact of_decide_eq_true (Option.filter_eq_some_iff.mp hupper).2

/-! ## Estimates -/

inductive EstimateSource where
  | static
  | historical
  | blended
  | quote
  | observed
  deriving DecidableEq, Repr

structure EstimateUncertainty where
  sampleSize : ℕ
  cohortDigest : String
  resourcesP50 : ResourceVector
  resourcesP95 : ResourceVector
  cashP95Usd : Option ℚ
  successLowerBound : ℚ
  qualitySampleSize : ℕ
  qualityLowerBound : Option ℚ
  enough : 5 ≤ sampleSize
  cash_nonneg : ∀ amount ∈ cashP95Usd, 0 ≤ amount
  success_mem : successLowerBound ∈ Set.Icc 0 1
  quality_mem : ∀ bound ∈ qualityLowerBound, bound ∈ Set.Icc (0 : ℚ) 1

/-- The bounds of the fields of an estimate. -/
structure Bounded (successProbability qualityScore riskScore confidence : ℚ) : Prop where
  success : successProbability ∈ Set.Icc (1 / 1000) 1
  quality : qualityScore ∈ Set.Icc 0 1
  risk : riskScore ∈ Set.Icc 0 1
  confident : confidence ∈ Set.Icc 0 1

structure RouteEstimate where
  resources : ResourceVector
  cash : CashEstimate
  subscriptionUsage : List SubscriptionUsage
  successProbability : ℚ
  qualityScore : ℚ
  riskScore : ℚ
  confidence : ℚ
  source : EstimateSource
  sampleSize : ℕ
  uncertainty : Option EstimateUncertainty
  bounded : Bounded successProbability qualityScore riskScore confidence

/-- What an estimate measures besides cash. -/
inductive Measure where
  | successProbability
  | qualityScore
  | riskScore
  | confidence
  | resource (field : ResourceField)

/-- Token and byte fields are rounded. -/
def Measure.rounded : Measure → ℚ → ℚ
  | resource field, q => field.rounded q
  | _, q => q

def RouteEstimate.measure (estimate : RouteEstimate) : Measure → ℚ
  | .successProbability => estimate.successProbability
  | .qualityScore => estimate.qualityScore
  | .riskScore => estimate.riskScore
  | .confidence => estimate.confidence
  | .resource field => estimate.resources.value field

theorem Measure.rounded_mono (m : Measure) : Monotone m.rounded := by
  cases m with
  | resource field => exact fun _ _ h => field.rounded_mono h
  | _ => exact monotone_id

theorem RouteEstimate.rounded_measure (estimate : RouteEstimate) (m : Measure) :
    m.rounded (estimate.measure m) = estimate.measure m := by
  cases m with
  | resource field => exact field.rounded_self (estimate.resources.whole field)
  | _ => rfl

end AeepRouter.Estimator

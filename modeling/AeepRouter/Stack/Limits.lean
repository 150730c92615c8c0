import AeepRouter.Stack.Goal

/-!
# Estimates and limits of a configuration

`aggregate` adds up what the components of a configuration are estimated to take, retries included,
and `fits` compares the totals with the limits and constraints of the goal. Taking components out
of a configuration keeps it within its limits, which is why a partial configuration that does not
fit can be dropped.
-/

namespace AeepRouter.Stack

open Lib

structure ResourceVector where
  monetaryUsd : ℚ≥0 := 0
  latencyMs : ℚ≥0 := 0
  cpuMs : ℚ≥0 := 0
  memoryMbSeconds : ℚ≥0 := 0
  peakMemoryMb : ℚ≥0 := 0
  gpuMs : ℚ≥0 := 0
  networkBytes : ℕ := 0
  contextTokens : ℕ := 0
  inputTokens : ℕ := 0
  cachedInputTokens : ℕ := 0
  cacheWriteInputTokens : ℕ := 0
  outputTokens : ℕ := 0
  reasoningOutputTokens : ℕ := 0
  subscriptionUnits : ℚ≥0 := 0
  deriving DecidableEq, Inhabited

structure StackComponent where
  nodeId : String
  executorId : String
  score : ℚ
  estimated : ResourceVector
  expectedCashUsd : Option ℚ≥0
  maximumCashUsd : Option ℚ≥0
  setupIds : List String
  deriving DecidableEq, Inhabited

/-! ## Totals -/

section Totals

variable {M : Type} [AddCommMonoid M]

def total (dimension : ResourceVector → M) (components : List StackComponent) : M :=
  (components.map fun c => dimension c.estimated).sum

/-- `max(…, default=0)`. -/
def peak (components : List StackComponent) : ℚ≥0 :=
  (components.map fun c => c.estimated.peakMemoryMb).foldr max 0

/-- The sum of the amounts with its retries, unless one is unknown. -/
def cashTotal (amounts : List (Option ℚ≥0)) (factor : ℕ) : Option ℚ :=
  if none ∈ amounts then none
  else some (dec (decSum (amounts.reduceOption.map NNRat.cast) * factor))

/-- `_aggregate`. Execution is serial: peak memory is a maximum, the other dimensions add up. -/
def aggregate (components : List StackComponent) (retries : ℕ) :
    ResourceVector × Option ℚ × Option ℚ :=
  let factor := 1 + retries
  ({ monetaryUsd := total (·.monetaryUsd) components * factor
     latencyMs := total (·.latencyMs) components * factor
     cpuMs := total (·.cpuMs) components * factor
     memoryMbSeconds := total (·.memoryMbSeconds) components * factor
     peakMemoryMb := peak components
     gpuMs := total (·.gpuMs) components * factor
     networkBytes := total (·.networkBytes) components * factor
     contextTokens := total (·.contextTokens) components * factor
     inputTokens := total (·.inputTokens) components * factor
     cachedInputTokens := total (·.cachedInputTokens) components * factor
     cacheWriteInputTokens := total (·.cacheWriteInputTokens) components * factor
     outputTokens := total (·.outputTokens) components * factor
     reasoningOutputTokens := total (·.reasoningOutputTokens) components * factor
     subscriptionUnits := total (·.subscriptionUnits) components * factor },
   cashTotal (components.map (·.expectedCashUsd)) factor,
   cashTotal (components.map (·.maximumCashUsd)) factor)

end Totals

/-- A bound that is not set, or is not passed. -/
def Under {α : Type} [LE α] (bound : Option α) (value : α) : Prop := ∀ b ∈ bound, value ≤ b

instance {α : Type} [LE α] [DecidableLE α] (bound : Option α) (value : α) :
    Decidable (Under bound value) := inferInstanceAs (Decidable (∀ b ∈ bound, value ≤ b))

theorem Under.mono {α : Type} [Preorder α] {bound : Option α} {value value' : α}
    (h : Under bound value) (hle : value' ≤ value) : Under bound value' :=
  fun b hb => hle.trans (h b hb)

structure WithinLimits (goal : GoalSpec) (components : List StackComponent) : Prop where
  known : none ∉ components.map (·.maximumCashUsd)
  cash : ∀ maximum ∈ (aggregate components goal.limits.retryReserve).2.2,
    maximum ≤ goal.limits.maxCashUsd ∧ Under (goal.constraints.maxCostUsd.map NNRat.cast) maximum
  attempts : components.length * (1 + goal.limits.retryReserve) ≤ goal.limits.maxAttempts
  elapsed : (aggregate components goal.limits.retryReserve).1.latencyMs ≤
    goal.limits.maxElapsedSeconds * 1000
  latency : Under goal.constraints.maxLatencyMs
    (aggregate components goal.limits.retryReserve).1.latencyMs
  cpu : Under goal.constraints.maxCpuMs (aggregate components goal.limits.retryReserve).1.cpuMs
  memory : Under goal.constraints.maxMemoryMbSeconds
    (aggregate components goal.limits.retryReserve).1.memoryMbSeconds
  gpu : Under goal.constraints.maxGpuMs (aggregate components goal.limits.retryReserve).1.gpuMs
  network : Under goal.constraints.maxNetworkBytes
    (aggregate components goal.limits.retryReserve).1.networkBytes
  peakMemory : Under goal.constraints.maxPeakMemoryMb
    (aggregate components goal.limits.retryReserve).1.peakMemoryMb
  context : Under goal.constraints.maxContextTokens
    ((aggregate components goal.limits.retryReserve).1.contextTokens +
      (aggregate components goal.limits.retryReserve).1.inputTokens +
      (aggregate components goal.limits.retryReserve).1.outputTokens)

/-- The ceilings on the size of a configuration, whatever the goal. -/
structure WithinSize (components : List StackComponent) : Prop where
  steps : components.length ≤ 64
  executors : (components.map (·.executorId)).dedup.length ≤ 32

def fits (goal : GoalSpec) (configuration : List StackComponent) : Bool :=
  let (resources, _, maximum) := aggregate configuration goal.limits.retryReserve
  match maximum with
  | none => false
  | some maximum =>
    if goal.limits.maxCashUsd < maximum then false
    else if ¬ Under (goal.constraints.maxCostUsd.map NNRat.cast) maximum then false
    else if goal.limits.maxAttempts < configuration.length * (1 + goal.limits.retryReserve) then
      false
    else if 64 < configuration.length ∨ 32 < (configuration.map (·.executorId)).dedup.length then
      false
    else if goal.limits.maxElapsedSeconds * 1000 < resources.latencyMs then false
    else if ¬ (Under goal.constraints.maxLatencyMs resources.latencyMs ∧
        Under goal.constraints.maxCpuMs resources.cpuMs ∧
        Under goal.constraints.maxMemoryMbSeconds resources.memoryMbSeconds ∧
        Under goal.constraints.maxGpuMs resources.gpuMs ∧
        Under goal.constraints.maxNetworkBytes resources.networkBytes ∧
        Under goal.constraints.maxPeakMemoryMb resources.peakMemoryMb) then false
    else Under goal.constraints.maxContextTokens
      (resources.contextTokens + resources.inputTokens + resources.outputTokens)

theorem cashTotal_eq_none {amounts : List (Option ℚ≥0)} {factor : ℕ} :
    cashTotal amounts factor = none ↔ none ∈ amounts := by
  unfold cashTotal
  split <;> simp_all

theorem fits_iff {goal : GoalSpec} {components : List StackComponent} :
    fits goal components = true ↔ WithinLimits goal components ∧ WithinSize components := by
  unfold fits
  cases hmax : (aggregate components goal.limits.retryReserve).2.2 with
  | none =>
    have hnone := cashTotal_eq_none.mp hmax
    simp only [hmax, Bool.false_eq_true, false_iff, not_and]
    exact fun h => absurd hnone h.known
  | some maximum =>
    have hknown : none ∉ components.map (·.maximumCashUsd) := fun h => by
      have := (@cashTotal_eq_none _ (1 + goal.limits.retryReserve)).mpr h
      exact absurd (hmax.symm.trans this) (by simp)
    simp only [hmax, Bool.if_false_left, Bool.and_eq_true, Bool.not_eq_true',
      decide_eq_false_iff_not, decide_eq_true_eq, not_lt, not_not, not_or]
    constructor
    · rintro ⟨h1, h2, h3, ⟨h4, h5⟩, h6, ⟨h7, h8, h9, h10, h11, h12⟩, h13⟩
      refine ⟨⟨hknown, fun m hm => ?_, h3, h6, h7, h8, h9, h10, h11, h12, h13⟩, h4, h5⟩
      rw [hmax, Option.mem_some_iff] at hm
      exact hm ▸ ⟨h1, h2⟩
    · rintro ⟨h, h4, h5⟩
      obtain ⟨h1, h2⟩ := h.cash maximum hmax
      exact ⟨h1, h2, h.attempts, ⟨h4, h5⟩, h.elapsed,
        ⟨h.latency, h.cpu, h.memory, h.gpu, h.network, h.peakMemory⟩, h.context⟩

/-! ## Smaller configurations -/

section Smaller

variable {goal : GoalSpec} {xs ys : List StackComponent} {retries : ℕ}

theorem total_le_of_sublist {M : Type} [AddCommMonoid M] [PartialOrder M] [CanonicallyOrderedAdd M]
    [IsOrderedAddMonoid M] (dimension : ResourceVector → M) (h : xs.Sublist ys) :
    total dimension xs ≤ total dimension ys :=
  (h.map _).sum_le_sum fun _ _ => zero_le

theorem peak_le_iff {m : ℚ≥0} : peak xs ≤ m ↔ ∀ c ∈ xs, c.estimated.peakMemoryMb ≤ m := by
  unfold peak
  induction xs with
  | nil => simp
  | cons c xs ih => simp [ih]

theorem peak_le_of_sublist (h : xs.Sublist ys) : peak xs ≤ peak ys :=
  peak_le_iff.mpr fun c hc => peak_le_iff.mp le_rfl c (h.subset hc)

theorem cashTotal_le_of_sublist {xs ys : List (Option ℚ≥0)} (h : xs.Sublist ys) {factor : ℕ}
    {a b : ℚ} (ha : cashTotal xs factor = some a) (hb : cashTotal ys factor = some b) : a ≤ b := by
  unfold cashTotal at ha hb
  split at ha
  · simp at ha
  split at hb
  · simp at hb
  rw [Option.some_inj] at ha hb
  subst ha hb
  have hnonneg : ∀ zs : List ℚ≥0, ∀ z ∈ zs.map (NNRat.cast : ℚ≥0 → ℚ), 0 ≤ z := by
    intro zs z hz
    obtain ⟨q, -, rfl⟩ := List.mem_map.mp hz
    exact q.2
  refine dec_mono (mul_nonneg (decSum_nonneg (hnonneg _)) (by positivity)) ?_
  exact mul_le_mul_of_nonneg_right
    (decSum_le_of_sublist ((h.filterMap id).map _) (hnonneg _)) (by positivity)

theorem WithinLimits.of_sublist (h : xs.Sublist ys) (hy : WithinLimits goal ys) :
    WithinLimits goal xs where
  known hnone := hy.known ((h.map _).subset hnone)
  cash a ha := by
    obtain ⟨b, hb⟩ : ∃ b, (aggregate ys goal.limits.retryReserve).2.2 = some b :=
      Option.ne_none_iff_exists'.mp fun hn => hy.known (cashTotal_eq_none.mp hn)
    have hle : a ≤ b := cashTotal_le_of_sublist (h.map _) ha hb
    exact ⟨hle.trans (hy.cash b hb).1, (hy.cash b hb).2.mono hle⟩
  attempts := (Nat.mul_le_mul_right _ h.length_le).trans hy.attempts
  elapsed := (mul_le_mul_left (total_le_of_sublist _ h) _).trans hy.elapsed
  latency := hy.latency.mono (mul_le_mul_left (total_le_of_sublist _ h) _)
  cpu := hy.cpu.mono (mul_le_mul_left (total_le_of_sublist _ h) _)
  memory := hy.memory.mono (mul_le_mul_left (total_le_of_sublist _ h) _)
  gpu := hy.gpu.mono (mul_le_mul_left (total_le_of_sublist _ h) _)
  network := hy.network.mono (mul_le_mul_left (total_le_of_sublist _ h) _)
  peakMemory := hy.peakMemory.mono (peak_le_of_sublist h)
  context := hy.context.mono <| add_le_add (add_le_add
    (mul_le_mul_left (total_le_of_sublist _ h) _) (mul_le_mul_left (total_le_of_sublist _ h) _))
    (mul_le_mul_left (total_le_of_sublist _ h) _)

theorem WithinSize.of_sublist (h : xs.Sublist ys) (hy : WithinSize ys) : WithinSize xs where
  steps := h.length_le.trans hy.steps
  executors :=
    ((List.nodup_dedup _).subperm fun _ hc =>
      List.mem_dedup.mpr ((h.map _).subset (List.mem_dedup.mp hc))).length_le.trans hy.executors

theorem fits_of_sublist (h : xs.Sublist ys) (hy : fits goal ys = true) : fits goal xs = true :=
  have ⟨hlimits, hsize⟩ := fits_iff.mp hy
  fits_iff.mpr ⟨hlimits.of_sublist h, hsize.of_sublist h⟩

/-- Nothing costs nothing. -/
theorem fits_nil : fits goal [] = true := by
  have hcash : (aggregate [] goal.limits.retryReserve).2.2 = some 0 := by
    have hsum : decSum [] = 0 := rfl
    have hdec : dec 0 = 0 := by simp [dec, Decimal.round]
    have hamounts : ([] : List (Option ℚ≥0)).reduceOption = [] := rfl
    simp [aggregate, cashTotal, hamounts, hsum, hdec]
  refine fits_iff.mpr ⟨⟨by simp, fun m hm => ?_, by simp, ?_, ?_, ?_, ?_, ?_, ?_, ?_, ?_⟩, ?_⟩
  · rw [hcash, Option.mem_some_iff] at hm
    subst hm
    refine ⟨by positivity, fun b hb => ?_⟩
    obtain ⟨q, -, rfl⟩ := Option.mem_map.mp hb
    exact q.2
  all_goals first | exact ⟨by simp, by simp⟩ | simp [aggregate, total, peak, Under]

end Smaller

end AeepRouter.Stack

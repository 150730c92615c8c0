import AeepRouter.Economic.CashResolution
import AeepRouter.Economic.Evidence
import AeepRouter.Lib.Dictionary
import AeepRouter.Lib.Rollup
import Mathlib.Data.List.ReduceOption
import Mathlib.Data.Prod.Lex
import Mathlib.Data.String.Basic

/-!
# What the receipts of a run come to

`aggregateAccounting` counts every receipt that no other one names as its component, and adds up
their units, tokens and footprints. Where the units are exact, aggregates of parts aggregate to the
same as the parts do, but for a conflict, which stays one.
-/

namespace AeepRouter.Aggregation

open Lib Evidence

/-! ## Values that agree -/

section Agree

variable {α : Type} [DecidableEq α] {mixed a b c : α}

/-- Two values of which one is told: the value they have, or what is told of mixed ones. -/
def agree (mixed a b : α) : α := if a = b then a else mixed

theorem agree_comm : agree mixed a b = agree mixed b a := by
  unfold agree
  split_ifs with h h' h' <;> simp_all

theorem agree_assoc : agree mixed (agree mixed a b) c = agree mixed a (agree mixed b c) := by
  unfold agree
  split_ifs <;> simp_all

/-- Many values are told as the one they all have. -/
theorem foldl_agree (first : α) (rest : List α) :
    rest.foldl (agree mixed) first = if ∀ b ∈ rest, b = first then first else mixed := by
  induction rest generalizing first with
  | nil => simp
  | cons b rest ih =>
    rw [List.foldl_cons, ih, agree]
    simp only [List.forall_mem_cons]
    by_cases hb : first = b
    · subst hb
      simp
    · have hb' : b ≠ first := fun h => hb h.symm
      simp only [hb, hb', if_false, false_and]
      split <;> rfl

/-- Told by the set of the values. -/
theorem dedup_length_eq_one {first : α} {rest : List α} :
    (first :: rest).dedup.length = 1 ↔ ∀ b ∈ rest, b = first := by
  constructor
  · intro h b hb
    obtain ⟨x, hx⟩ := List.length_eq_one_iff.mp h
    have hmem : ∀ y ∈ first :: rest, y = x := fun y hy => by
      rw [← List.mem_dedup, hx] at hy
      exact List.mem_singleton.mp hy
    rw [hmem b (List.mem_cons_of_mem _ hb), hmem first List.mem_cons_self]
  · intro h
    have hall : (first :: rest).dedup = [first] := by
      refine List.perm_singleton.mp ((List.perm_ext_iff_of_nodup (List.nodup_dedup _)
        (List.nodup_singleton _)).mpr fun y => ?_)
      rw [List.mem_dedup, List.mem_singleton, List.mem_cons]
      exact ⟨fun hy => hy.elim id (h y), .inl⟩
    rw [hall, List.length_singleton]

end Agree

/-! ## Units of a subscription -/

inductive SubscriptionCharge where
  | included
  | paid
  | mixed
  | unknown
  deriving DecidableEq, Repr

/-- The evidence of amounts with different sources. -/
def mixedEvidence : MeasurementEvidence :=
  ⟨.partialEvidence, .operatorReport, .observed, none, none, none, none, consistent_mixed⟩

/-- What is consumed of a pool; known units have a source. -/
@[ext] structure SubscriptionAmount where
  consumed : Option ℚ
  source : MeasurementEvidence
  includedOrPaid : SubscriptionCharge
  nonneg : ∀ c ∈ consumed, 0 ≤ c
  known : consumed ≠ none → source.status ≠ .unavailable

instance : DecidableEq SubscriptionAmount := fun _ _ =>
  decidable_of_iff _ SubscriptionAmount.ext_iff.symm

@[ext] structure SubscriptionUsage extends SubscriptionAmount where
  provider : String
  resourcePool : String
  unit : String
  rateSnapshotId : Option String
  usageFingerprint : Option String
  deriving DecidableEq

abbrev PoolKey := String ×ₗ String ×ₗ String

def SubscriptionUsage.key (usage : SubscriptionUsage) : PoolKey :=
  toLex (usage.provider, toLex (usage.resourcePool, usage.unit))

namespace SubscriptionAmount

variable {a b : SubscriptionAmount}

theorem agree_known (h : Option.map₂ (· + ·) a.consumed b.consumed ≠ none) :
    (agree mixedEvidence a.source b.source).status ≠ .unavailable := by
  unfold agree
  split
  · refine a.known fun hnone => h ?_
    rw [hnone, Option.map₂_none_left]
  · simp [mixedEvidence]

theorem consumed_nonneg : ∀ c ∈ Option.map₂ (· + ·) a.consumed b.consumed, 0 ≤ c := by
  intro c hc
  obtain ⟨x, y, hx, hy, rfl⟩ := Option.mem_map₂_iff.mp hc
  exact add_nonneg (a.nonneg x hx) (b.nonneg y hy)

instance : AddCommSemigroup SubscriptionAmount where
  add a b := {
    consumed := Option.map₂ (· + ·) a.consumed b.consumed
    source := agree mixedEvidence a.source b.source
    includedOrPaid := agree .mixed a.includedOrPaid b.includedOrPaid
    nonneg := consumed_nonneg
    known := agree_known }
  add_assoc _ _ _ :=
    SubscriptionAmount.ext (Option.map₂_assoc add_assoc) agree_assoc agree_assoc
  add_comm _ _ := SubscriptionAmount.ext (Option.map₂_comm add_comm) agree_comm agree_comm

variable (a b)

theorem consumed_add : (a + b).consumed = Option.map₂ (· + ·) a.consumed b.consumed := rfl

theorem source_add : (a + b).source = agree mixedEvidence a.source b.source := rfl

theorem charge_add : (a + b).includedOrPaid = agree .mixed a.includedOrPaid b.includedOrPaid := rfl

end SubscriptionAmount

theorem foldl_field {α β : Type} [Add α] {f : α → β} {op : β → β → β}
    (hop : ∀ a b, f (a + b) = op (f a) (f b)) (first : α) (rest : List α) :
    f (rest.foldl (· + ·) first) = (rest.map f).foldl op (f first) := by
  rw [List.foldl_map, List.foldl_hom f fun a b => (hop a b).symm]

theorem foldl_count {α : Type} [Add α] {f : α → ℕ} (hf : ∀ a b, f (a + b) = f a + f b) (first : α)
    (rest : List α) : f (rest.foldl (· + ·) first) = ((first :: rest).map f).sum := by
  rw [foldl_field hf, List.map_cons, List.sum_cons]
  generalize f first = n
  generalize rest.map f = counts
  induction counts generalizing n with
  | nil => rfl
  | cons m counts ih => rw [List.foldl_cons, ih, List.sum_cons, Nat.add_assoc]

/-- Units are known if all of them are. -/
theorem foldl_map₂ (first : Option ℚ) (rest : List (Option ℚ)) :
    rest.foldl (Option.map₂ (· + ·)) first =
      if (first :: rest).reduceOption.length = (first :: rest).length then
        some (first :: rest).reduceOption.sum
      else none := by
  induction rest generalizing first with
  | nil => cases first <;> simp [List.reduceOption]
  | cons x rest ih =>
    rw [List.foldl_cons, ih]
    have hrest := List.reduceOption_length_le rest
    cases first with
    | none =>
      have hx := List.reduceOption_length_le (x :: rest)
      rw [List.length_cons] at hx
      rw [Option.map₂_none_left, List.reduceOption_cons_of_none, List.reduceOption_cons_of_none,
        List.length_cons, List.length_cons, List.length_cons, if_neg (by omega), if_neg (by omega)]
    | some a =>
      cases x with
      | none =>
        rw [Option.map₂_none_right, List.reduceOption_cons_of_none, List.reduceOption_cons_of_some,
          List.reduceOption_cons_of_none, List.length_cons, List.length_cons, List.length_cons,
          List.length_cons, if_neg (by omega), if_neg (by omega)]
      | some b =>
        simp only [Option.map₂_coe_coe, List.reduceOption_cons_of_some, List.length_cons,
          List.sum_cons, add_assoc, Nat.add_right_cancel_iff]

def knownUnits (group : List SubscriptionAmount) : List ℚ := (group.map (·.consumed)).reduceOption

theorem SubscriptionAmount.consumed_foldl (first : SubscriptionAmount)
    (rest : List SubscriptionAmount) : (rest.foldl (· + ·) first).consumed =
      if (knownUnits (first :: rest)).length = (first :: rest).length then
        some (knownUnits (first :: rest)).sum
      else none := by
  rw [foldl_field SubscriptionAmount.consumed_add, foldl_map₂, ← List.map_cons, List.length_map]
  rfl

section Merge

variable {first : SubscriptionAmount} {rest : List SubscriptionAmount}

theorem mem_knownUnits {group : List SubscriptionAmount} {c : ℚ} :
    c ∈ knownUnits group ↔ ∃ entry ∈ group, entry.consumed = some c := by
  rw [knownUnits, List.reduceOption_mem_iff, List.mem_map]

theorem knownUnits_nonneg {group : List SubscriptionAmount} : ∀ c ∈ knownUnits group, 0 ≤ c := by
  intro c hc
  obtain ⟨entry, -, hentry⟩ := mem_knownUnits.mp hc
  exact entry.nonneg c hentry

theorem mergeAmounts_nonneg : ∀ c ∈ (if (knownUnits (first :: rest)).length =
    (first :: rest).length then some (decSum (knownUnits (first :: rest))) else none), 0 ≤ c := by
  intro c hc
  rw [Option.mem_def, Option.ite_none_right_eq_some] at hc
  rw [← Option.some.inj hc.2]
  exact decSum_nonneg knownUnits_nonneg

theorem mergeAmounts_known (h : (if (knownUnits (first :: rest)).length =
      (first :: rest).length then some (decSum (knownUnits (first :: rest))) else none) ≠ none) :
    (if ∀ entry ∈ first :: rest, entry.source = first.source then first.source
      else mixedEvidence).status ≠ .unavailable := by
  have hlength : (knownUnits (first :: rest)).length = (first :: rest).length := by
    by_contra hne
    exact h (if_neg hne)
  split
  · refine first.known fun hnone => ?_
    rw [knownUnits, List.map_cons, hnone, List.reduceOption_cons_of_none] at hlength
    have hle := List.reduceOption_length_le (rest.map (·.consumed))
    rw [List.length_map] at hle
    rw [hlength, List.length_cons] at hle
    omega
  · simp [mixedEvidence]

end Merge

/-- The entries of a pool; the key of an aggregate has no snapshot and no fingerprint. -/
def pools : Rollup SubscriptionUsage PoolKey SubscriptionAmount where
  key := SubscriptionUsage.key
  summary := SubscriptionUsage.toSubscriptionAmount
  build key amount := ⟨amount, (ofLex key).1, (ofLex (ofLex key).2).1, (ofLex (ofLex key).2).2, none,
    none⟩
  key_build _ _ := rfl
  summary_build _ _ := rfl

/-- One entry of the loop over `grouped`. -/
def mergeAmounts (first : SubscriptionAmount) (rest : List SubscriptionAmount) :
    SubscriptionAmount where
  consumed :=
    if (knownUnits (first :: rest)).length = (first :: rest).length then
      some (decSum (knownUnits (first :: rest)))
    else none
  source := if ∀ entry ∈ first :: rest, entry.source = first.source then first.source else mixedEvidence
  includedOrPaid :=
    if ((first :: rest).map (·.includedOrPaid)).dedup.length = 1 then first.includedOrPaid else .mixed
  nonneg := mergeAmounts_nonneg
  known := mergeAmounts_known

def subscriptionUsage (entries : List SubscriptionUsage) : List SubscriptionUsage :=
  (pools.keys entries).filterMap fun key =>
    match (pools.group entries key).map (·.toSubscriptionAmount) with
    | [] => none
    | first :: rest => some (pools.build key (mergeAmounts first rest))

/-- Where no unit is rounded away, a group is the sum of its entries. -/
theorem mergeAmounts_eq {first : SubscriptionAmount} {rest : List SubscriptionAmount}
    (h : decSum (knownUnits (first :: rest)) = (knownUnits (first :: rest)).sum) :
    mergeAmounts first rest = rest.foldl (· + ·) first := by
  refine SubscriptionAmount.ext ?_ ?_ ?_
  · rw [SubscriptionAmount.consumed_foldl, ← h]
    rfl
  · rw [foldl_field SubscriptionAmount.source_add, foldl_agree]
    simp only [mergeAmounts, List.forall_mem_cons, true_and, List.forall_mem_map]
  · rw [foldl_field SubscriptionAmount.charge_add, foldl_agree]
    exact if_congr dedup_length_eq_one rfl rfl

def Exact (entries : List SubscriptionUsage) : Prop :=
  ∀ key, decSum (knownUnits ((pools.group entries key).map (·.toSubscriptionAmount))) =
    (knownUnits ((pools.group entries key).map (·.toSubscriptionAmount))).sum

theorem subscriptionUsage_eq {entries : List SubscriptionUsage} (h : Exact entries) :
    subscriptionUsage entries = pools.collect entries := by
  refine List.filterMap_congr fun key _ => ?_
  have hkey := h key
  cases hgroup : pools.group entries key with
  | nil => rfl
  | cons first rest =>
    rw [hgroup, List.map_cons] at hkey
    simp only [List.map_cons, mergeAmounts_eq hkey]
    rfl

/-! ## Tokens -/

/-- The counts of some calls of a model; cached tokens are part of the input. -/
@[ext] structure TokenCounts where
  inputTokens : ℕ
  cachedInputTokens : ℕ
  cacheWriteInputTokens : ℕ
  outputTokens : ℕ
  reasoningOutputTokens : ℕ
  evidence : MeasurementEvidence
  subsets : cachedInputTokens + cacheWriteInputTokens ≤ inputTokens
  reasoning : reasoningOutputTokens ≤ outputTokens
  deriving DecidableEq

@[ext] structure ModelTokenUsage extends TokenCounts where
  provider : String
  model : String
  accessChannel : ModelAccessChannel
  deriving DecidableEq

instance : LinearOrder ModelAccessChannel :=
  LinearOrder.lift' ModelAccessChannel.value ModelAccessChannel.value_injective

abbrev ModelKey := String ×ₗ String ×ₗ ModelAccessChannel

def ModelTokenUsage.key (usage : ModelTokenUsage) : ModelKey :=
  toLex (usage.provider, toLex (usage.model, usage.accessChannel))

namespace TokenCounts

theorem add_subsets (a b : TokenCounts) :
    (a.cachedInputTokens + b.cachedInputTokens) +
      (a.cacheWriteInputTokens + b.cacheWriteInputTokens) ≤ a.inputTokens + b.inputTokens := by
  have := a.subsets
  have := b.subsets
  omega

theorem add_reasoning (a b : TokenCounts) :
    a.reasoningOutputTokens + b.reasoningOutputTokens ≤ a.outputTokens + b.outputTokens :=
  Nat.add_le_add a.reasoning b.reasoning

instance : AddCommSemigroup TokenCounts where
  add a b := {
    inputTokens := a.inputTokens + b.inputTokens
    cachedInputTokens := a.cachedInputTokens + b.cachedInputTokens
    cacheWriteInputTokens := a.cacheWriteInputTokens + b.cacheWriteInputTokens
    outputTokens := a.outputTokens + b.outputTokens
    reasoningOutputTokens := a.reasoningOutputTokens + b.reasoningOutputTokens
    evidence := agree mixedEvidence a.evidence b.evidence
    subsets := add_subsets a b
    reasoning := add_reasoning a b }
  add_assoc _ _ _ :=
    TokenCounts.ext (Nat.add_assoc ..) (Nat.add_assoc ..) (Nat.add_assoc ..) (Nat.add_assoc ..)
      (Nat.add_assoc ..) agree_assoc
  add_comm _ _ :=
    TokenCounts.ext (Nat.add_comm ..) (Nat.add_comm ..) (Nat.add_comm ..) (Nat.add_comm ..)
      (Nat.add_comm ..) agree_comm

theorem evidence_add (a b : TokenCounts) :
    (a + b).evidence = agree mixedEvidence a.evidence b.evidence := rfl

end TokenCounts

def models : Rollup ModelTokenUsage ModelKey TokenCounts where
  key := ModelTokenUsage.key
  summary := ModelTokenUsage.toTokenCounts
  build key counts := ⟨counts, (ofLex key).1, (ofLex (ofLex key).2).1, (ofLex (ofLex key).2).2⟩
  key_build _ _ := rfl
  summary_build _ _ := rfl

theorem mergeTokens_subsets (group : List TokenCounts) :
    (group.map (·.cachedInputTokens)).sum + (group.map (·.cacheWriteInputTokens)).sum ≤
      (group.map (·.inputTokens)).sum := by
  rw [← List.sum_map_add]
  exact List.sum_le_sum fun entry _ => entry.subsets

theorem mergeTokens_reasoning (group : List TokenCounts) :
    (group.map (·.reasoningOutputTokens)).sum ≤ (group.map (·.outputTokens)).sum :=
  List.sum_le_sum fun entry _ => entry.reasoning

/-- One entry of the loop over `model_groups`; the evidence is compared by its text. -/
def mergeTokens (first : TokenCounts) (rest : List TokenCounts) : TokenCounts where
  inputTokens := ((first :: rest).map (·.inputTokens)).sum
  cachedInputTokens := ((first :: rest).map (·.cachedInputTokens)).sum
  cacheWriteInputTokens := ((first :: rest).map (·.cacheWriteInputTokens)).sum
  outputTokens := ((first :: rest).map (·.outputTokens)).sum
  reasoningOutputTokens := ((first :: rest).map (·.reasoningOutputTokens)).sum
  evidence :=
    if ((first :: rest).map (·.evidence)).dedup.length = 1 then first.evidence else mixedEvidence
  subsets := mergeTokens_subsets (first :: rest)
  reasoning := mergeTokens_reasoning (first :: rest)

theorem mergeTokens_eq (first : TokenCounts) (rest : List TokenCounts) :
    mergeTokens first rest = rest.foldl (· + ·) first := by
  have hcount {f : TokenCounts → ℕ} (hf : ∀ a b, f (a + b) = f a + f b) :=
    (foldl_count hf first rest).symm
  refine TokenCounts.ext (hcount fun _ _ => rfl) (hcount fun _ _ => rfl) (hcount fun _ _ => rfl)
    (hcount fun _ _ => rfl) (hcount fun _ _ => rfl) ?_
  rw [foldl_field TokenCounts.evidence_add, foldl_agree]
  exact if_congr dedup_length_eq_one rfl rfl

def modelUsage (entries : List ModelTokenUsage) : List ModelTokenUsage :=
  (models.keys entries).filterMap fun key =>
    match (models.group entries key).map (·.toTokenCounts) with
    | [] => none
    | first :: rest => some (models.build key (mergeTokens first rest))

theorem modelUsage_eq (entries : List ModelTokenUsage) :
    modelUsage entries = models.collect entries := by
  refine List.filterMap_congr fun key _ => ?_
  cases models.group entries key with
  | nil => rfl
  | cons first rest =>
    simp only [List.map_cons, mergeTokens_eq]
    rfl

/-! ## Footprints -/

@[ext] structure ToolFootprint where
  schemaBytes : ℕ
  schemaApproxTokens : ℕ
  rawResultBytes : ℕ
  rawResultApproxTokens : ℕ
  filteredResultBytes : ℕ
  filteredResultApproxTokens : ℕ
  exposedToModel : Bool
  deriving DecidableEq

namespace ToolFootprint

instance : AddCommSemigroup ToolFootprint where
  add a b := {
    schemaBytes := a.schemaBytes + b.schemaBytes
    schemaApproxTokens := a.schemaApproxTokens + b.schemaApproxTokens
    rawResultBytes := a.rawResultBytes + b.rawResultBytes
    rawResultApproxTokens := a.rawResultApproxTokens + b.rawResultApproxTokens
    filteredResultBytes := a.filteredResultBytes + b.filteredResultBytes
    filteredResultApproxTokens := a.filteredResultApproxTokens + b.filteredResultApproxTokens
    exposedToModel := a.exposedToModel || b.exposedToModel }
  add_assoc _ _ _ :=
    ToolFootprint.ext (Nat.add_assoc ..) (Nat.add_assoc ..) (Nat.add_assoc ..) (Nat.add_assoc ..)
      (Nat.add_assoc ..) (Nat.add_assoc ..) (Bool.or_assoc ..)
  add_comm _ _ :=
    ToolFootprint.ext (Nat.add_comm ..) (Nat.add_comm ..) (Nat.add_comm ..) (Nat.add_comm ..)
      (Nat.add_comm ..) (Nat.add_comm ..) (Bool.or_comm ..)

end ToolFootprint

/-- The footprint of all receipts that have one. -/
def toolFootprint (footprints : List ToolFootprint) : Option ToolFootprint :=
  if footprints = [] then none
  else some {
    schemaBytes := (footprints.map (·.schemaBytes)).sum
    schemaApproxTokens := (footprints.map (·.schemaApproxTokens)).sum
    rawResultBytes := (footprints.map (·.rawResultBytes)).sum
    rawResultApproxTokens := (footprints.map (·.rawResultApproxTokens)).sum
    filteredResultBytes := (footprints.map (·.filteredResultBytes)).sum
    filteredResultApproxTokens := (footprints.map (·.filteredResultApproxTokens)).sum
    exposedToModel := footprints.any (·.exposedToModel) }

theorem ToolFootprint.exposed_add (a b : ToolFootprint) :
    (a + b).exposedToModel = (a.exposedToModel || b.exposedToModel) := rfl

theorem foldl_or (first : Bool) (rest : List Bool) :
    rest.foldl (· || ·) first = (first :: rest).any id := by
  induction rest generalizing first with
  | nil => simp
  | cons b rest ih =>
    rw [List.foldl_cons, ih]
    simp only [List.any_cons, id, Bool.or_assoc]

theorem toolFootprint_eq (footprints : List ToolFootprint) :
    toolFootprint footprints = (show Option ToolFootprint from Rollup.sum footprints) := by
  cases footprints with
  | nil => rfl
  | cons first rest =>
    have hcount {f : ToolFootprint → ℕ} (hf : ∀ a b, f (a + b) = f a + f b) :=
      (foldl_count hf first rest).symm
    rw [toolFootprint, if_neg (List.cons_ne_nil first rest), Rollup.sum_cons]
    refine congrArg some (ToolFootprint.ext (hcount fun _ _ => rfl) (hcount fun _ _ => rfl)
      (hcount fun _ _ => rfl) (hcount fun _ _ => rfl) (hcount fun _ _ => rfl)
      (hcount fun _ _ => rfl) ?_)
    rw [foldl_field ToolFootprint.exposed_add, foldl_or, ← List.map_cons, List.any_map]
    rfl

end AeepRouter.Aggregation

import AeepRouter.Assessment.Reporting
import AeepRouter.Lib.Table

/-!
# The costs of an assessment

`applyAssessmentCosts` adds up what the trials of a campaign and the other operations of a ledger cost,
key by key, and writes the sums into a report. A total is known only where every part of it is. The
costs are applied to a fitted report again when its own cost is in the ledger, so an application leaves
nothing behind of the one before. `operationLedger` reads a ledger from the records of the operations.
-/

namespace AeepRouter.Reporting

open Lib Benchmark

/-! ## Keys of measurements -/

namespace Measurements

def keys (result : Measurements) : List String := result.map (·.1)

variable {result : Measurements} {key other : String} {value : Option ℚ}

theorem mem_keys_put : other ∈ (result.put key value).keys ↔ other ∈ result.keys ∨ other = key := by
  by_cases h : other = key
  · simp [put, keys, h]
  · simp [put, keys, h]

theorem mem_keys_add : other ∈ (result.add key value).keys ↔ other ∈ result.keys ∨ other = key := by
  unfold add
  split
  · exact mem_keys_put
  · exact mem_keys_put

theorem mem_keys_foldl {α : Type} {step : Measurements → α → Measurements} (name : α → String)
    (hstep : ∀ result a, other ∈ (step result a).keys ↔ other ∈ result.keys ∨ other = name a)
    (l : List α) : other ∈ (l.foldl step result).keys ↔ other ∈ result.keys ∨ other ∈ l.map name := by
  induction l generalizing result with
  | nil => simp
  | cons a l ih => rw [List.foldl_cons, ih, hstep, List.map_cons, List.mem_cons, or_assoc]

theorem get_of_not_mem (h : key ∉ result.keys) : result.get key = none := by
  have hfind : result.find? (·.1 = key) = none := by
    refine List.find?_eq_none.mpr fun entry hentry => ?_
    rw [decide_eq_true_eq]
    exact fun heq => h (List.mem_map.mpr ⟨entry, hentry, heq⟩)
  rw [get, hfind]
  rfl

end Measurements

def usedKeys (accounting : Benchmark.ResourceAccounting) : List String :=
  accounting.cash.components.map (fun item => "cash." ++ item.currency) ++
    (accounting.modelUsage.flatMap usageMeasurements ++
      accounting.subscriptionUsage.map subscriptionMeasurement).map (·.1)

def localKeys : List String :=
  ["cpu_ms", "memory_mb_seconds", "gpu_ms", "network_bytes"].map ("local." ++ ·)

theorem mem_keys_resourceMeasurements {accounting : Benchmark.ResourceAccounting}
    {resources : ResourceVector} {key : String} :
    key ∈ (resourceMeasurements accounting resources).keys ↔
      key ∈ usedKeys accounting ∨ key ∈ localKeys := by
  refine (Measurements.mem_keys_foldl (fun entry : String × ℚ => "local." ++ entry.1)
    (fun result entry => Measurements.mem_keys_put) _).trans (or_congr ?_ Iff.rfl)
  refine (Measurements.mem_keys_foldl (fun entry : String × Option ℚ => entry.1)
    (fun result entry => Measurements.mem_keys_add) _).trans ?_
  rw [usedKeys, List.mem_append]
  refine or_congr ?_ Iff.rfl
  simp [Measurements.keys, List.mem_map]

theorem dot_mem_keys {accounting : Benchmark.ResourceAccounting} {resources : ResourceVector}
    {key : String} (h : key ∈ (resourceMeasurements accounting resources).keys) :
    '.' ∈ key.toList := by
  rcases mem_keys_resourceMeasurements.mp h with h | h
  · rcases List.mem_append.mp h with h | h
    · obtain ⟨item, -, rfl⟩ := List.mem_map.mp h
      simp
    · obtain ⟨entry, hentry, rfl⟩ := List.mem_map.mp h
      rcases List.mem_append.mp hentry with hentry | hentry
      · obtain ⟨usage, -, hentry⟩ := List.mem_flatMap.mp hentry
        obtain ⟨⟨field, count⟩, -, rfl⟩ := List.mem_map.mp hentry
        simp [toString]
      · obtain ⟨subscription, -, rfl⟩ := List.mem_map.mp hentry
        unfold subscriptionMeasurement
        simp [toString]
  · obtain ⟨field, -, rfl⟩ := List.mem_map.mp h
    simp

/-! ## Campaigns and ledgers -/

/-- A trial with the times that routing and the guard took of it. -/
structure CampaignTrial extends BenchmarkTrial where
  routingOverheadMs : Option ℚ
  invocationGuardMs : Option ℚ
  deriving DecidableEq

/-- A campaign has its trials by their identifiers. -/
structure BenchmarkCampaignReport where
  trials : List CampaignTrial
  distinct : (trials.map (·.trialId)).Nodup

/-- An operation, by what its cost is read from. -/
structure AssessmentOperation where
  operationId : String
  planId : String
  stage : String
  elapsedSeconds : Option ℚ
  accounting : Option Benchmark.ResourceAccounting
  resources : Option ResourceVector
  deriving DecidableEq

structure AssessmentOperationLedger where
  planId : String
  operations : List AssessmentOperation
  distinct : (operations.map (·.operationId)).Nodup

def unmeasured : Benchmark.ResourceAccounting := ⟨⟨.unavailable, []⟩, [], []⟩

def zeroVector : ResourceVector := ⟨0, 0, 0, 0⟩

def AssessmentOperation.measurements (operation : AssessmentOperation) : Measurements :=
  resourceMeasurements (operation.accounting.getD unmeasured) (operation.resources.getD zeroVector)

namespace AssessmentOperationLedger

variable (ledger : AssessmentOperationLedger)

def IsTrial (operation : AssessmentOperation) : Prop :=
  operation.stage = "trial" ∧ operation.planId = ledger.planId

instance : DecidablePred ledger.IsTrial := fun _ => inferInstanceAs (Decidable (_ ∧ _))

def overhead : List AssessmentOperation :=
  ledger.operations.filter fun operation => ¬ ledger.IsTrial operation

end AssessmentOperationLedger

/-! ## Reports with costs -/

/-- The usage that has one entry in a report. -/
inductive UsageField where
  | campaignWallTimeMs
  | knownCampaignWallTimeMs
  | knownOverheadWallTimeMs
  | assessmentWallTimeMs
  | includedRoutingOverheadMs
  | includedInvocationGuardMs
  deriving DecidableEq, Repr

inductive UsageMeasure where
  | knownCampaignSubtotal
  | campaignTotal
  | knownOverheadSubtotal
  | assessmentTotal
  deriving DecidableEq, Repr

inductive UsageKey where
  | field (name : UsageField)
  | measure (name : UsageMeasure) (key : String)
  deriving DecidableEq, Repr

@[ext] structure CostedReport (δ : Type) where
  report : AssessmentReport
  measuredUsage : UsageKey → Option (Option ℚ)
  measurementCoverage : String → Option String
  breakEvenUses : String → Option (Option ℚ)
  operationLedgerDigest : Option δ

def AssessmentReport.uncosted {δ : Type} (report : AssessmentReport) : CostedReport δ where
  report := report
  measuredUsage _ := none
  measurementCoverage _ := none
  breakEvenUses _ := none
  operationLedgerDigest := none

/-! ## The sums -/

def sumIfKnown (values : List (Option ℚ)) : Option ℚ :=
  if values ≠ [] ∧ ∀ value ∈ values, value ≠ none then some (values.filterMap id).sum else none

def breakEven (total savings : Option ℚ) : Option ℚ :=
  total.bind fun total => savings.bind fun saved => if 0 < saved then some (total / saved) else none

section Sums

variable (campaign : BenchmarkCampaignReport) (ledger : Option AssessmentOperationLedger)

def overheadOf : List AssessmentOperation := (ledger.map (·.overhead)).getD []

def CompleteCampaign : Prop :=
  campaign.trials ≠ [] ∧ ∀ trial ∈ campaign.trials, trial.wallTimeMs ≠ none

instance : Decidable (CompleteCampaign campaign) := inferInstanceAs (Decidable (_ ∧ _))

def Uncertain : Prop :=
  (∃ operation ∈ (ledger.map (·.operations)).getD [], operation.elapsedSeconds = none) ∨
    ¬ CompleteCampaign campaign

instance : Decidable (Uncertain campaign ledger) := inferInstanceAs (Decidable (_ ∨ _))

def knownCampaignMs : ℚ := (campaign.trials.filterMap (·.wallTimeMs)).sum

def knownOverheadMs : ℚ :=
  ((overheadOf ledger).map fun operation => operation.elapsedSeconds.getD 0 * 1000).sum

def wallTotal : Option ℚ :=
  if Uncertain campaign ledger then none
  else some (knownCampaignMs campaign + knownOverheadMs ledger)

def UsageField.value : UsageField → Option ℚ
  | campaignWallTimeMs =>
    if CompleteCampaign campaign then some (knownCampaignMs campaign) else none
  | knownCampaignWallTimeMs => some (knownCampaignMs campaign)
  | knownOverheadWallTimeMs => some (knownOverheadMs ledger)
  | assessmentWallTimeMs => wallTotal campaign ledger
  | includedRoutingOverheadMs => sumIfKnown (campaign.trials.map (·.routingOverheadMs))
  | includedInvocationGuardMs => sumIfKnown (campaign.trials.map (·.invocationGuardMs))

def costKeys : List String :=
  (campaign.trials.flatMap (fun trial => (nativeMeasurements trial.toBenchmarkTrial).keys) ++
    (overheadOf ledger).flatMap (·.measurements.keys)).dedup.insertionSort (· ≤ ·)

variable (key : String)

def knownCampaign : List ℚ :=
  campaign.trials.filterMap fun trial => (nativeMeasurements trial.toBenchmarkTrial).get key

def knownOverhead : List ℚ := (overheadOf ledger).filterMap (·.measurements.get key)

def subtotal : Option ℚ :=
  if knownCampaign campaign key = [] then none else some (knownCampaign campaign key).sum

/-- `complete`. -/
def campaignTotal : Option ℚ :=
  if (knownCampaign campaign key).length = campaign.trials.length then subtotal campaign key else none

def assessmentTotal : Option ℚ :=
  (campaignTotal campaign key).bind fun complete =>
    if (knownOverhead ledger key).length = (overheadOf ledger).length ∧ ¬ Uncertain campaign ledger then
      some (complete + (knownOverhead ledger key).sum)
    else none

def UsageMeasure.value : UsageMeasure → Option ℚ
  | knownCampaignSubtotal => subtotal campaign key
  | campaignTotal => Reporting.campaignTotal campaign key
  | knownOverheadSubtotal =>
    if knownOverhead ledger key = [] then none else some (knownOverhead ledger key).sum
  | assessmentTotal => Reporting.assessmentTotal campaign ledger key

def coverage : String := s!"{(knownCampaign campaign key).length}/{campaign.trials.length}"

/-! ## The application of costs -/

variable {δ : Type}

/-- `report.paired_savings.get(key)`. -/
def CostedReport.savings (report : CostedReport δ) (key : String) : Option ℚ :=
  (report.report.pairedSavings key).join

/-- One turn of the loop over the keys. -/
def applyKey (report : CostedReport δ) : CostedReport δ :=
  { report with
    measuredUsage := fun
      | .field name => report.measuredUsage (.field name)
      | .measure name other =>
        if other = key then some (name.value campaign ledger key)
        else report.measuredUsage (.measure name other)
    measurementCoverage := Function.update report.measurementCoverage key
      (some (coverage campaign key))
    breakEvenUses := Function.update report.breakEvenUses key
      (some (breakEven (assessmentTotal campaign ledger key) (report.savings key))) }

/-- What is written before the loop. -/
def applyFields (report : CostedReport δ) : CostedReport δ :=
  { report with
    measuredUsage := fun
      | .field name => some (name.value campaign ledger)
      | .measure name key => report.measuredUsage (.measure name key)
    breakEvenUses := Function.update report.breakEvenUses "wall_time_ms"
      (some (breakEven (wallTotal campaign ledger) (report.savings "wall_time_ms"))) }

def applyAssessmentCosts (contentDigest : AssessmentOperationLedger → δ)
    (report : CostedReport δ) : CostedReport δ :=
  { (costKeys campaign ledger).foldl (fun report key => applyKey campaign ledger key report)
      (applyFields campaign ledger report) with
    operationLedgerDigest := ledger.map contentDigest }

end Sums

/-! ## An application in closed form -/

section Application

variable {δ : Type} {campaign : BenchmarkCampaignReport} {ledger : Option AssessmentOperationLedger}
  {report : CostedReport δ} {keys : List String} {key : String}
  {contentDigest : AssessmentOperationLedger → δ}

variable (campaign ledger) in
/-- What the loop over the keys writes. -/
def written (keys : List String) (report : CostedReport δ) : CostedReport δ :=
  { report with
    measuredUsage := fun
      | .field name => report.measuredUsage (.field name)
      | .measure name key =>
        if key ∈ keys then some (name.value campaign ledger key)
        else report.measuredUsage (.measure name key)
    measurementCoverage := fun key =>
      if key ∈ keys then some (coverage campaign key) else report.measurementCoverage key
    breakEvenUses := fun key =>
      if key ∈ keys then some (breakEven (assessmentTotal campaign ledger key) (report.savings key))
      else report.breakEvenUses key }

theorem written_nil : written campaign ledger [] report = report := by
  refine CostedReport.ext rfl ?_ ?_ ?_ rfl
  · funext u
    cases u <;> rfl
  · funext key
    rfl
  · funext key
    rfl

theorem written_cons : written campaign ledger keys (applyKey campaign ledger key report) =
    written campaign ledger (key :: keys) report := by
  refine CostedReport.ext rfl ?_ ?_ ?_ rfl
  · funext u
    cases u with
    | field name => rfl
    | measure name other =>
      by_cases hkey : other = key
      · simp [written, applyKey, hkey]
      · simp [written, applyKey, hkey]
  · funext other
    by_cases hkey : other = key
    · simp [written, applyKey, hkey]
    · simp [written, applyKey, hkey]
  · funext other
    by_cases hkey : other = key
    · simp [written, applyKey, hkey, CostedReport.savings]
    · simp [written, applyKey, hkey, CostedReport.savings]

theorem foldl_applyKey :
    keys.foldl (fun report key => applyKey campaign ledger key report) report =
      written campaign ledger keys report := by
  induction keys generalizing report with
  | nil => exact written_nil.symm
  | cons key keys ih => rw [List.foldl_cons, ih, written_cons]

theorem mem_costKeys : key ∈ costKeys campaign ledger ↔
    (∃ trial ∈ campaign.trials, key ∈ (nativeMeasurements trial.toBenchmarkTrial).keys) ∨
      ∃ operation ∈ overheadOf ledger, key ∈ operation.measurements.keys := by
  simp [costKeys, List.mem_insertionSort, List.mem_dedup]

theorem wall_time_not_key : "wall_time_ms" ∉ costKeys campaign ledger := by
  rw [mem_costKeys]
  rintro (⟨trial, -, hkey⟩ | ⟨operation, -, hkey⟩)
  · exact absurd (dot_mem_keys hkey) (by decide)
  · exact absurd (dot_mem_keys hkey) (by decide)

/-! ## Totals -/

def totalKey (dimension : String) : UsageKey :=
  if dimension = "wall_time_ms" then .field .assessmentWallTimeMs
  else .measure .assessmentTotal dimension

def CostedReport.total (report : CostedReport δ) (dimension : String) : Option ℚ :=
  (report.measuredUsage (totalKey dimension)).join

def CostedReport.uses (report : CostedReport δ) (dimension : String) : Option ℚ :=
  (report.breakEvenUses dimension).join

def trialCost (dimension : String) (trial : CampaignTrial) : Option ℚ :=
  if dimension = "wall_time_ms" then trial.wallTimeMs
  else (nativeMeasurements trial.toBenchmarkTrial).get dimension

def operationCost (dimension : String) (operation : AssessmentOperation) : Option ℚ :=
  if dimension = "wall_time_ms" then operation.elapsedSeconds.map (· * 1000)
  else operation.measurements.get dimension

/-- The dimension is known of everything that a total counts, and the time of every operation is. -/
structure Known (campaign : BenchmarkCampaignReport) (ledger : Option AssessmentOperationLedger)
    (dimension : String) : Prop where
  certain : ¬ Uncertain campaign ledger
  trials : ∀ trial ∈ campaign.trials, trialCost dimension trial ≠ none
  overhead : ∀ operation ∈ overheadOf ledger, operationCost dimension operation ≠ none

def cost (campaign : BenchmarkCampaignReport) (ledger : Option AssessmentOperationLedger)
    (dimension : String) : ℚ :=
  (campaign.trials.map fun trial => (trialCost dimension trial).getD 0).sum +
    ((overheadOf ledger).map fun operation => (operationCost dimension operation).getD 0).sum

theorem sum_filterMap {α : Type} (f : α → Option ℚ) (l : List α) :
    (l.filterMap f).sum = (l.map fun a => (f a).getD 0).sum := by
  induction l with
  | nil => rfl
  | cons a l ih =>
    cases h : f a with
    | none => rw [List.filterMap_cons_none h, List.map_cons, List.sum_cons, ih, h]; simp
    | some x => rw [List.filterMap_cons_some h, List.map_cons, List.sum_cons, List.sum_cons, ih, h]; rfl

theorem length_filterMap_iff {α : Type} {f : α → Option ℚ} {l : List α} :
    (l.filterMap f).length = l.length ↔ ∀ a ∈ l, f a ≠ none := by
  simp only [List.filterMap_length_eq_length, Option.isSome_iff_ne_none]

theorem trials_ne_nil (h : ¬ Uncertain campaign ledger) : campaign.trials ≠ [] :=
  (not_not.mp fun hnot => h (.inr hnot)).1

theorem wallTotal_eq_some {total : ℚ} : wallTotal campaign ledger = some total ↔
    Known campaign ledger "wall_time_ms" ∧ total = cost campaign ledger "wall_time_ms" := by
  have hsum : knownCampaignMs campaign + knownOverheadMs ledger =
      cost campaign ledger "wall_time_ms" := by
    rw [knownCampaignMs, knownOverheadMs, cost, sum_filterMap]
    congr 2
    refine List.map_congr_left fun operation _ => ?_
    cases h : operation.elapsedSeconds with
    | none => simp [operationCost, h]
    | some seconds => simp [operationCost, h]
  unfold wallTotal
  split
  · rename_i huncertain
    exact iff_of_false (by simp) fun h => h.1.certain huncertain
  · rename_i hcertain
    rw [Option.some.injEq, hsum, eq_comm (a := cost _ _ _)]
    refine (and_iff_right ⟨hcertain, ?_, ?_⟩).symm
    · intro trial htrial
      exact (not_not.mp fun hnot => hcertain (.inr hnot)).2 trial htrial
    · intro operation hoperation hnone
      refine hcertain (.inl ⟨operation, ?_, by simpa [operationCost] using hnone⟩)
      cases ledger with
      | none => exact absurd hoperation List.not_mem_nil
      | some ledger => exact List.mem_of_mem_filter hoperation

theorem knownCampaign_eq (hkey : key ≠ "wall_time_ms") :
    knownCampaign campaign key = campaign.trials.filterMap (trialCost key) := by
  unfold knownCampaign
  congr 1
  funext trial
  rw [trialCost, if_neg hkey]

theorem knownOverhead_eq (hkey : key ≠ "wall_time_ms") :
    knownOverhead ledger key = (overheadOf ledger).filterMap (operationCost key) := by
  unfold knownOverhead
  congr 1
  funext operation
  rw [operationCost, if_neg hkey]

theorem campaignTotal_eq_some {total : ℚ} (hkey : key ≠ "wall_time_ms") :
    campaignTotal campaign key = some total ↔
      campaign.trials ≠ [] ∧ (∀ trial ∈ campaign.trials, trialCost key trial ≠ none) ∧
        total = (campaign.trials.map fun trial => (trialCost key trial).getD 0).sum := by
  unfold campaignTotal subtotal
  rw [knownCampaign_eq hkey, sum_filterMap]
  by_cases hall : ∀ trial ∈ campaign.trials, trialCost key trial ≠ none
  · rw [if_pos (length_filterMap_iff.mpr hall)]
    have hnil : campaign.trials.filterMap (trialCost key) = [] ↔ campaign.trials = [] := by
      rw [← List.length_eq_zero_iff, length_filterMap_iff.mpr hall, List.length_eq_zero_iff]
    by_cases htrials : campaign.trials = []
    · rw [if_pos (hnil.mpr htrials)]
      exact iff_of_false (by simp) fun h => h.1 htrials
    · rw [if_neg fun h => htrials (hnil.mp h), Option.some.injEq, eq_comm]
      exact ⟨fun h => ⟨htrials, hall, h⟩, fun h => h.2.2⟩
  · rw [if_neg fun h => hall (length_filterMap_iff.mp h)]
    exact iff_of_false (by simp) fun h => hall h.2.1

theorem assessmentTotal_eq_some {total : ℚ} (hkey : key ≠ "wall_time_ms") :
    assessmentTotal campaign ledger key = some total ↔
      Known campaign ledger key ∧ total = cost campaign ledger key := by
  unfold assessmentTotal
  rw [Option.bind_eq_some_iff, knownOverhead_eq hkey, sum_filterMap]
  constructor
  · rintro ⟨complete, hcomplete, htotal⟩
    obtain ⟨-, htrials, rfl⟩ := (campaignTotal_eq_some hkey).mp hcomplete
    obtain ⟨⟨hlength, hcertain⟩, hsum⟩ := Option.ite_none_right_eq_some.mp htotal
    exact ⟨⟨hcertain, htrials, length_filterMap_iff.mp hlength⟩, (Option.some.inj hsum).symm⟩
  · rintro ⟨h, rfl⟩
    refine ⟨_, (campaignTotal_eq_some hkey).mpr ⟨trials_ne_nil h.certain, h.trials, rfl⟩, ?_⟩
    rw [if_pos ⟨length_filterMap_iff.mpr h.overhead, h.certain⟩]
    rfl

/-! ## Reports to which costs were applied -/

/-- A total that is known is one of a dimension that the campaign measured, and where a total is not
known, nor is when it breaks even. -/
structure CostsSettled (campaign : BenchmarkCampaignReport) (report : CostedReport δ) : Prop where
  measured : ∀ key, key ≠ "wall_time_ms" → report.total key ≠ none →
    ∃ trial ∈ campaign.trials, key ∈ (nativeMeasurements trial.toBenchmarkTrial).keys
  uses : ∀ dimension, report.total dimension = none → report.uses dimension = none

theorem costsSettled_uncosted (fitted : AssessmentReport) :
    CostsSettled campaign (fitted.uncosted : CostedReport δ) :=
  ⟨fun _ _ h => absurd rfl h, fun _ _ => rfl⟩

theorem Known.measured (h : Known campaign ledger key) (hkey : key ≠ "wall_time_ms") :
    ∃ trial ∈ campaign.trials, key ∈ (nativeMeasurements trial.toBenchmarkTrial).keys := by
  obtain ⟨trial, htrial⟩ := List.exists_mem_of_ne_nil _ (trials_ne_nil h.certain)
  refine ⟨trial, htrial, by_contra fun hmem => ?_⟩
  have hknown := h.trials trial htrial
  rw [trialCost, if_neg hkey] at hknown
  exact hknown (Measurements.get_of_not_mem hmem)

theorem applyAssessmentCosts_eq : applyAssessmentCosts campaign ledger contentDigest report =
    { written campaign ledger (costKeys campaign ledger) (applyFields campaign ledger report) with
      operationLedgerDigest := ledger.map contentDigest } := by
  rw [applyAssessmentCosts, foldl_applyKey]

section Applied

variable (contentDigest campaign ledger report)

theorem total_wall : (applyAssessmentCosts campaign ledger contentDigest report).total "wall_time_ms" =
    wallTotal campaign ledger := by
  rw [applyAssessmentCosts_eq]
  rfl

theorem uses_wall : (applyAssessmentCosts campaign ledger contentDigest report).uses "wall_time_ms" =
    breakEven (wallTotal campaign ledger) (report.savings "wall_time_ms") := by
  rw [applyAssessmentCosts_eq, CostedReport.uses]
  simp [written, applyFields, wall_time_not_key]

theorem total_of_mem (h : key ∈ costKeys campaign ledger) :
    (applyAssessmentCosts campaign ledger contentDigest report).total key =
      assessmentTotal campaign ledger key := by
  have hkey : key ≠ "wall_time_ms" := fun heq => wall_time_not_key (heq ▸ h)
  rw [applyAssessmentCosts_eq, CostedReport.total, totalKey, if_neg hkey]
  simp [written, h, UsageMeasure.value]

theorem uses_of_mem (h : key ∈ costKeys campaign ledger) :
    (applyAssessmentCosts campaign ledger contentDigest report).uses key =
      breakEven (assessmentTotal campaign ledger key) (report.savings key) := by
  rw [applyAssessmentCosts_eq, CostedReport.uses]
  simp [written, h, applyFields, CostedReport.savings]

theorem total_of_not_mem (hkey : key ≠ "wall_time_ms") (h : key ∉ costKeys campaign ledger) :
    (applyAssessmentCosts campaign ledger contentDigest report).total key = report.total key := by
  rw [applyAssessmentCosts_eq, CostedReport.total, CostedReport.total, totalKey, if_neg hkey]
  simp [written, h, applyFields]

theorem uses_of_not_mem (hkey : key ≠ "wall_time_ms") (h : key ∉ costKeys campaign ledger) :
    (applyAssessmentCosts campaign ledger contentDigest report).uses key = report.uses key := by
  rw [applyAssessmentCosts_eq, CostedReport.uses, CostedReport.uses]
  simp [written, h, applyFields, hkey]

end Applied

/-- After an application the total of a dimension is the sum of what is known, and nothing else. -/
theorem total_apply {total : ℚ} {dimension : String} (h : CostsSettled campaign report) :
    (applyAssessmentCosts campaign ledger contentDigest report).total dimension = some total ↔
      Known campaign ledger dimension ∧ total = cost campaign ledger dimension := by
  by_cases hwall : dimension = "wall_time_ms"
  · rw [hwall, total_wall]
    exact wallTotal_eq_some
  · by_cases hmem : dimension ∈ costKeys campaign ledger
    · rw [total_of_mem _ _ _ _ hmem]
      exact assessmentTotal_eq_some hwall
    · -- what an earlier application left is not known
      rw [total_of_not_mem _ _ _ _ hwall hmem]
      refine iff_of_false (fun htotal => ?_) fun hknown => ?_
      · have hne : report.total dimension ≠ none := by
          rw [htotal]
          exact Option.some_ne_none _
        exact hmem (mem_costKeys.mpr (.inl (h.measured dimension hwall hne)))
      · exact hmem (mem_costKeys.mpr (.inl (hknown.1.measured hwall)))

theorem breakEven_none (savings : Option ℚ) : breakEven none savings = none := rfl

theorem CostsSettled.apply (h : CostsSettled campaign report) :
    CostsSettled campaign (applyAssessmentCosts campaign ledger contentDigest report) := by
  constructor
  · intro key hwall htotal
    obtain ⟨total, htotal⟩ := Option.ne_none_iff_exists'.mp htotal
    exact ((total_apply h).mp htotal).1.measured hwall
  · intro dimension htotal
    by_cases hwall : dimension = "wall_time_ms"
    · rw [hwall, uses_wall]
      rw [hwall, total_wall] at htotal
      rw [htotal, breakEven_none]
    · by_cases hmem : dimension ∈ costKeys campaign ledger
      · rw [uses_of_mem _ _ _ _ hmem]
        rw [total_of_mem _ _ _ _ hmem] at htotal
        rw [htotal, breakEven_none]
      · rw [uses_of_not_mem _ _ _ _ hwall hmem]
        rw [total_of_not_mem _ _ _ _ hwall hmem] at htotal
        exact h.uses dimension htotal

theorem CostsSettled.foldl (h : CostsSettled campaign report)
    (ledgers : List (Option AssessmentOperationLedger)) :
    CostsSettled campaign (ledgers.foldl
      (fun report ledger => applyAssessmentCosts campaign ledger contentDigest report) report) := by
  induction ledgers generalizing report with
  | nil => exact h
  | cons ledger ledgers ih => exact ih h.apply

/-! ## Ledgers that grow -/

structure AssessmentOperationLedger.Extends (ledger later : AssessmentOperationLedger) : Prop where
  plan : later.planId = ledger.planId
  operations : ∀ operation ∈ ledger.operations, ∃ other ∈ later.operations,
    other.operationId = operation.operationId ∧ other.planId = operation.planId ∧
      other.stage = operation.stage ∧ (other = operation ∨ operation.accounting = none)

theorem keys_of_unmeasured {operation other : AssessmentOperation} (h : operation.accounting = none)
    (hkey : key ∈ operation.measurements.keys) : key ∈ other.measurements.keys := by
  rw [AssessmentOperation.measurements, h, mem_keys_resourceMeasurements] at hkey
  refine mem_keys_resourceMeasurements.mpr (.inr (hkey.resolve_left ?_))
  exact List.not_mem_nil

theorem costKeys_mono {ledger later : AssessmentOperationLedger} (h : ledger.Extends later)
    (hkey : key ∈ costKeys campaign (some ledger)) : key ∈ costKeys campaign (some later) := by
  rw [mem_costKeys] at hkey ⊢
  refine hkey.imp_right ?_
  rintro ⟨operation, hoperation, hkey⟩
  obtain ⟨hmem, hoverhead⟩ := List.mem_filter.mp hoperation
  obtain ⟨other, hother, -, hplan, hstage, heq⟩ := h.operations operation hmem
  refine ⟨other, List.mem_filter.mpr ⟨hother, ?_⟩, ?_⟩
  · rw [decide_eq_true_eq] at hoverhead ⊢
    rwa [AssessmentOperationLedger.IsTrial, hplan, hstage, h.plan]
  · rcases heq with rfl | hnone
    · exact hkey
    · exact keys_of_unmeasured hnone hkey

/-- Costs that are applied again with a ledger that has grown are as if they were applied once. -/
theorem apply_apply {ledger later : AssessmentOperationLedger} (h : ledger.Extends later) :
    applyAssessmentCosts campaign (some later) contentDigest
        (applyAssessmentCosts campaign (some ledger) contentDigest report) =
      applyAssessmentCosts campaign (some later) contentDigest report := by
  have hkeys {key : String} (hkey : key ∉ costKeys campaign (some later)) :
      key ∉ costKeys campaign (some ledger) := fun hmem => hkey (costKeys_mono h hmem)
  rw [applyAssessmentCosts_eq, applyAssessmentCosts_eq, applyAssessmentCosts_eq]
  refine CostedReport.ext rfl ?_ ?_ ?_ rfl
  · funext u
    cases u with
    | field name => rfl
    | measure name key =>
      by_cases hkey : key ∈ costKeys campaign (some later)
      · simp [written, hkey]
      · simp [written, applyFields, hkey, hkeys hkey]
  · funext key
    by_cases hkey : key ∈ costKeys campaign (some later)
    · simp [written, hkey]
    · simp [written, applyFields, hkey, hkeys hkey]
  · funext key
    by_cases hkey : key ∈ costKeys campaign (some later)
    · simp [written, applyFields, CostedReport.savings, hkey]
    · by_cases hwall : key = "wall_time_ms"
      · simp [written, applyFields, CostedReport.savings, hwall]
      · simp [written, applyFields, hkey, hkeys hkey, hwall]

end Application

/-! ## The ledger of a repository -/

theorem AssessmentOperationLedger.Extends.refl (ledger : AssessmentOperationLedger) :
    ledger.Extends ledger :=
  ⟨rfl, fun operation h => ⟨operation, h, rfl, rfl, rfl, .inl rfl⟩⟩

/-- The records of the kinds `operation_start` and `operation_measurement`. No id of an operation is the
digest of a start, so a start is found by its id. -/
structure OperationRecords where
  starts : Table AssessmentOperation (·.operationId)
  measurements : Table AssessmentOperation (·.operationId)
  unmeasured : ∀ start ∈ starts, start.accounting = none
  started : ∀ measured ∈ measurements, ∃ start ∈ starts,
    measured.operationId = start.operationId ∧ measured.planId = start.planId ∧
      measured.stage = start.stage

inductive OperationCall where
  | reserve (operationId planId stage : String)
  | finishOperation (operationId : String) (elapsedSeconds : ℚ)
      (accounting : Option Benchmark.ResourceAccounting) (resources : Option ResourceVector)

namespace OperationRecords

theorem empty_unmeasured : ∀ start ∈ (∅ : Table AssessmentOperation (·.operationId)),
    start.accounting = none := fun _ h => absurd h Table.not_mem_empty

theorem empty_started : ∀ measured ∈ (∅ : Table AssessmentOperation (·.operationId)),
    ∃ start ∈ (∅ : Table AssessmentOperation (·.operationId)),
      measured.operationId = start.operationId ∧ measured.planId = start.planId ∧
        measured.stage = start.stage := fun _ h => absurd h Table.not_mem_empty

def empty : OperationRecords := ⟨∅, ∅, empty_unmeasured, empty_started⟩

variable (records : OperationRecords)

def start (operationId planId stage : String) : AssessmentOperation :=
  ⟨operationId, planId, stage, none, none, none⟩

theorem reserve_unmeasured (operationId planId stage : String) :
    ∀ other ∈ records.starts.insert (start operationId planId stage), other.accounting = none := by
  intro other hother
  rcases Table.mem_or_eq_of_mem_insert hother with hother | rfl
  · exact records.unmeasured other hother
  · rfl

theorem reserve_started (operationId planId stage : String) :
    ∀ measured ∈ records.measurements,
      ∃ other ∈ records.starts.insert (start operationId planId stage),
        measured.operationId = other.operationId ∧ measured.planId = other.planId ∧
          measured.stage = other.stage := by
  intro measured hmeasured
  obtain ⟨other, hother, hsame⟩ := records.started measured hmeasured
  exact ⟨other, Table.mem_insert_of_mem hother, hsame⟩

theorem finish_started {begun measured : AssessmentOperation} (hbegun : begun ∈ records.starts)
    (hsame : measured.operationId = begun.operationId ∧ measured.planId = begun.planId ∧
      measured.stage = begun.stage) :
    ∀ other ∈ records.measurements.insert measured, ∃ start ∈ records.starts,
      other.operationId = start.operationId ∧ other.planId = start.planId ∧
        other.stage = start.stage := by
  intro other hother
  rcases Table.mem_or_eq_of_mem_insert hother with hother | rfl
  · exact records.started other hother
  · exact ⟨begun, hbegun, hsame⟩

/-- A call for an operation that is reserved raises, and leaves the records. -/
def reserve (operationId planId stage : String) : OperationRecords :=
  { records with
    starts := records.starts.insert (start operationId planId stage)
    unmeasured := records.reserve_unmeasured operationId planId stage
    started := records.reserve_started operationId planId stage }

/-- A call without a start, a second one or one for less than no time raises, and leaves the records. -/
def finishOperation (operationId : String) (elapsedSeconds : ℚ)
    (accounting : Option Benchmark.ResourceAccounting) (resources : Option ResourceVector) :
    OperationRecords :=
  match h : records.starts.find? operationId with
  | none => records
  | some begun =>
    if elapsedSeconds < 0 then records
    else
      { records with
        measurements := records.measurements.insert
          { begun with elapsedSeconds, accounting, resources }
        started := records.finish_started (Table.mem_of_find? h) ⟨rfl, rfl, rfl⟩ }

def step : OperationCall → OperationRecords
  | .reserve operationId planId stage => records.reserve operationId planId stage
  | .finishOperation operationId elapsedSeconds accounting resources =>
    records.finishOperation operationId elapsedSeconds accounting resources

def run (calls : List OperationCall) : OperationRecords := calls.foldl step records

/-- `COALESCE(measured.payload_json, started.payload_json)`. -/
def latest (start : AssessmentOperation) : AssessmentOperation :=
  (records.measurements.find? start.operationId).getD start

theorem latest_same {start : AssessmentOperation} (h : start ∈ records.starts) :
    (records.latest start).operationId = start.operationId ∧
      (records.latest start).planId = start.planId ∧ (records.latest start).stage = start.stage := by
  unfold latest
  cases hfind : records.measurements.find? start.operationId with
  | none => exact ⟨rfl, rfl, rfl⟩
  | some measured =>
    obtain ⟨other, hother, hid, hplan, hstage⟩ := records.started measured (Table.mem_of_find? hfind)
    obtain rfl := Table.eq_of_key_eq hother h (hid.symm.trans (Table.key_of_find? hfind))
    exact ⟨hid, hplan, hstage⟩

/-- The rows of the query, in its order. -/
def selected (plans identities : List String) : List AssessmentOperation :=
  (records.starts.rows.filter fun start =>
    start.planId ∈ plans ∨ start.operationId ∈ identities).insertionSort
      fun a b => a.operationId ≤ b.operationId

theorem mem_selected {plans identities : List String} {start : AssessmentOperation} :
    start ∈ records.selected plans identities ↔
      start ∈ records.starts ∧ (start.planId ∈ plans ∨ start.operationId ∈ identities) := by
  rw [selected, List.mem_insertionSort, List.mem_filter, decide_eq_true_eq, Table.mem_def]

theorem operationLedger_distinct (plans identities : List String) :
    (((records.selected plans identities).map records.latest).map (·.operationId)).Nodup := by
  have hids : ((records.selected plans identities).map records.latest).map (·.operationId) =
      (records.selected plans identities).map (·.operationId) := by
    rw [List.map_map]
    exact List.map_congr_left fun start h => (records.latest_same (records.mem_selected.mp h).1).1
  rw [hids, selected, ((List.perm_insertionSort _ _).map _).nodup_iff]
  exact (List.filter_sublist.map _).nodup records.starts.nodup

def operationLedger (planId : String) (includeIds sourcePlanIds : List String) :
    AssessmentOperationLedger where
  planId := planId
  operations := (records.selected (planId :: sourcePlanIds) includeIds).map records.latest
  distinct := records.operationLedger_distinct (planId :: sourcePlanIds) includeIds

/-- No record goes away. -/
structure Grows (records later : OperationRecords) : Prop where
  starts : ∀ start ∈ records.starts, start ∈ later.starts
  measurements : ∀ measured ∈ records.measurements, measured ∈ later.measurements

theorem Grows.refl : records.Grows records := ⟨fun _ h => h, fun _ h => h⟩

variable {records}

theorem Grows.trans {later latest : OperationRecords} (h : records.Grows later)
    (h' : later.Grows latest) : records.Grows latest :=
  ⟨fun start hstart => h'.starts start (h.starts start hstart),
    fun measured hmeasured => h'.measurements measured (h.measurements measured hmeasured)⟩

theorem grows_step (call : OperationCall) : records.Grows (records.step call) := by
  cases call with
  | reserve operationId planId stage =>
    exact ⟨fun _ h => Table.mem_insert_of_mem h, fun _ h => h⟩
  | finishOperation operationId elapsedSeconds accounting resources =>
    unfold step finishOperation
    dsimp only
    split
    · exact .refl records
    · split
      · exact .refl records
      · exact ⟨fun _ h => h, fun _ h => Table.mem_insert_of_mem h⟩

theorem grows_run (calls : List OperationCall) : records.Grows (records.run calls) := by
  induction calls generalizing records with
  | nil => exact .refl records
  | cons call calls ih => exact (grows_step call).trans ih

theorem operationLedger_extends (calls : List OperationCall) (planId : String)
    {includeIds includeIds' sourcePlanIds sourcePlanIds' : List String}
    (hids : includeIds ⊆ includeIds') (hsources : sourcePlanIds ⊆ sourcePlanIds') :
    (records.operationLedger planId includeIds sourcePlanIds).Extends
      ((records.run calls).operationLedger planId includeIds' sourcePlanIds') := by
  refine ⟨rfl, fun operation hoperation => ?_⟩
  obtain ⟨start, hstart, rfl⟩ := List.mem_map.mp hoperation
  obtain ⟨hmem, hselected⟩ := records.mem_selected.mp hstart
  have hgrows : records.Grows (records.run calls) := grows_run calls
  have hlater := hgrows.starts start hmem
  obtain ⟨hid, hplan, hstage⟩ := records.latest_same hmem
  obtain ⟨hid', hplan', hstage'⟩ := (records.run calls).latest_same hlater
  refine ⟨(records.run calls).latest start, List.mem_map_of_mem ?_, hid'.trans hid.symm,
    hplan'.trans hplan.symm, hstage'.trans hstage.symm, ?_⟩
  · refine (mem_selected _).mpr ⟨hlater, hselected.imp (fun h => ?_) fun h => hids h⟩
    exact List.cons_subset_cons planId hsources h
  · cases hfind : records.measurements.find? start.operationId with
    | none =>
      have hstarted : records.latest start = start := by
        rw [latest, hfind]
        rfl
      rw [hstarted]
      exact .inr (records.unmeasured start hmem)
    | some measured =>
      -- a measurement is never replaced
      have hkept := Table.find?_of_mem (hgrows.measurements measured (Table.mem_of_find? hfind))
      rw [Table.key_of_find? hfind] at hkept
      rw [latest, latest, hfind, hkept]
      exact .inl rfl

end OperationRecords

/-! ## What a report says of costs -/

section Law

variable {δ : Type} (contentDigest : AssessmentOperationLedger → δ)
  (campaign : BenchmarkCampaignReport)

def Holds (ledger : AssessmentOperationLedger) : Prop :=
  ∀ trial ∈ campaign.trials, ∃ operation ∈ ledger.operations,
    operation.operationId = trial.trialId ∧ ledger.IsTrial operation

instance (ledger : AssessmentOperationLedger) : Decidable (Holds campaign ledger) := by
  unfold Holds
  infer_instance

variable {campaign} in
theorem counted_once {ledger : AssessmentOperationLedger} (h : Holds campaign ledger) :
    (campaign.trials.map (·.trialId) ++ ledger.overhead.map (·.operationId)).Nodup := by
  refine List.nodup_append.mpr ⟨campaign.distinct,
    (List.filter_sublist.map _).nodup ledger.distinct, ?_⟩
  intro id hid id' hid' heq
  obtain ⟨trial, htrial, rfl⟩ := List.mem_map.mp hid
  obtain ⟨other, hother, rfl⟩ := List.mem_map.mp hid'
  obtain ⟨hmem, hoverhead⟩ := List.mem_filter.mp hother
  obtain ⟨operation, hoperation, hsame, hstage⟩ := h trial htrial
  obtain rfl := List.inj_on_of_nodup_map ledger.distinct hoperation hmem (hsame.trans heq)
  exact of_decide_eq_true hoverhead hstage

/-- A report to which costs were applied, once or after others. -/
def costed (fitted : AssessmentReport) (ledgers : List (Option AssessmentOperationLedger)) :
    CostedReport δ :=
  ledgers.foldl (fun report ledger => applyAssessmentCosts campaign ledger contentDigest report)
    fitted.uncosted

/-- After any applications, one with a ledger reports the total of a dimension just when it is known of
every trial and every other operation and every time is known, and then the sum over these, each
counted once; nothing breaks even without a total; and a ledger that extends this one gives the report
it would have given without it. -/
theorem assessment_costs_law (fitted : AssessmentReport)
    (earlier : List (Option AssessmentOperationLedger)) {ledger : AssessmentOperationLedger}
    (hholds : Holds campaign ledger) :
    (∀ dimension total,
      (costed contentDigest campaign fitted (earlier ++ [some ledger])).total dimension = some total ↔
        Known campaign (some ledger) dimension ∧ total = cost campaign (some ledger) dimension) ∧
      (campaign.trials.map (·.trialId) ++ ledger.overhead.map (·.operationId)).Nodup ∧
      (∀ dimension,
        (costed contentDigest campaign fitted (earlier ++ [some ledger])).total dimension = none →
          (costed contentDigest campaign fitted (earlier ++ [some ledger])).uses dimension = none) ∧
      ∀ later, ledger.Extends later →
        costed contentDigest campaign fitted (earlier ++ [some ledger, some later]) =
          costed contentDigest campaign fitted (earlier ++ [some later]) := by
  have hsettled : CostsSettled campaign (costed contentDigest campaign fitted earlier) :=
    (costsSettled_uncosted fitted).foldl earlier
  have happly (ledgers : List (Option AssessmentOperationLedger)) :
      costed contentDigest campaign fitted (earlier ++ ledgers) =
        ledgers.foldl (fun report ledger => applyAssessmentCosts campaign ledger contentDigest report)
          (costed contentDigest campaign fitted earlier) :=
    List.foldl_append
  rw [happly]
  refine ⟨fun dimension total => total_apply hsettled, counted_once hholds, hsettled.apply.uses,
    fun later hextends => ?_⟩
  rw [happly, happly]
  exact apply_apply hextends

end Law

/-! ## Two trials and their report -/

def timedTrial (trialId : String) (wallTimeMs cpuMs : ℚ) : CampaignTrial where
  trialId := trialId
  caseId := "case"
  routeId := "candidate"
  condition := .routerFresh
  repetition := 0
  phase := .holdout
  ok := true
  valid := some true
  wallTimeMs := some wallTimeMs
  actualResources := ⟨cpuMs, 0, 0, 0⟩
  accounting := unmeasured
  hostModels := none
  correctnessFailed := none
  capabilityDiscovery := none
  routingOverheadMs := none
  invocationGuardMs := none

def timedTrials : List CampaignTrial := [timedTrial "first" 1000 5, timedTrial "second" 500 7]

theorem timedCampaign_distinct : (timedTrials.map (·.trialId)).Nodup := by decide

def timedCampaign : BenchmarkCampaignReport := ⟨timedTrials, timedCampaign_distinct⟩

/-- The trials were measured and the report is being generated. -/
def startedRecords : OperationRecords :=
  OperationRecords.empty.run
    [.reserve "first" "plan" "trial", .finishOperation "first" 1 (some unmeasured) (some ⟨5, 0, 0, 0⟩),
      .reserve "second" "plan" "trial", .reserve "report" "plan" "report_generation",
      .finishOperation "second" 1 (some unmeasured) (some ⟨7, 0, 0, 0⟩)]

def reportCalls : List OperationCall := [.finishOperation "report" 2 none (some ⟨3, 0, 0, 0⟩)]

def startedLedger : AssessmentOperationLedger := startedRecords.operationLedger "plan" [] []

def timedLedger : AssessmentOperationLedger :=
  (startedRecords.run reportCalls).operationLedger "plan" [] []

theorem timed_known : Known timedCampaign (some timedLedger) "local.cpu_ms" :=
  ⟨by decide +kernel, by decide +kernel, by decide +kernel⟩

/-- A report that saves nothing. -/
def savelessReport : AssessmentReport where
  outcome := .noMeasuredBenefit
  qualificationPassed := true
  pairedSavings _ := none
  savingsInterval _ := none
  utilityEvidence := none

/-- Each trial counts once, with the report beside them, also where the costs were applied before the
report was measured. -/
theorem assessment_costs_of_report :
    (costed (·.planId) timedCampaign savelessReport [some startedLedger, some timedLedger]).total
        "local.cpu_ms" = some 15 ∧
      costed (·.planId) timedCampaign savelessReport [some startedLedger, some timedLedger] =
        costed (·.planId) timedCampaign savelessReport [some timedLedger] :=
  ⟨((assessment_costs_law (·.planId) timedCampaign savelessReport [some startedLedger]
      (by decide +kernel)).1 "local.cpu_ms" 15).mpr ⟨timed_known, by decide +kernel⟩,
    (assessment_costs_law (·.planId) timedCampaign savelessReport [] (by decide +kernel)).2.2.2
      timedLedger
      (OperationRecords.operationLedger_extends reportCalls "plan" (List.Subset.refl [])
        (List.Subset.refl []))⟩

end AeepRouter.Reporting

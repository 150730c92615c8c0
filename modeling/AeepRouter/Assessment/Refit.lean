import AeepRouter.Assessment.TrialOrder
import AeepRouter.Lib.Draws

/-!
# Fitting a report again

An admission fits the report again from the stored trials. Whatever the generator of the resamples, it
finds the same when every interval the report rests on is settled (`Settled`): too few cases, a case
without a family, or cases that all agree. For any other report there is a generator with which the
order of the trials shows, and CPython's own does it for a campaign of twenty cases.
-/

namespace AeepRouter.Reporting

open Lib Benchmark

section Refit

variable (plan : AssessmentPlan) (recipe : RecipeDefinition) (trials : List BenchmarkTrial)

/-- Whether what a report says does not depend on the order of the trials and the positions. -/
def Agrees (g : Generator) : Prop :=
  ∀ (trials' : List BenchmarkTrial) (order order' : List (String × ℕ)),
    trials.Perm trials' → order.Perm plan.positions → order'.Perm plan.positions →
    fitReport g plan recipe order trials = fitReport g plan recipe order' trials'

/-- Whether differences show a benefit whatever the resamples. -/
def Beneficial (family : String → Option String) (differences : List (String × ℚ)) : Prop :=
  minimumPairedCases ≤ (aggregates Aggregate.median differences).length ∧
    ∀ case ∈ aggregates Aggregate.median differences, family case.1 ≠ none ∧ 0 < case.2

/-- Whether the sign of a bound is the same in any order. -/
def OneSided (family : String → Option String) (differences : List (String × ℚ)) : Prop :=
  (aggregates Aggregate.median differences).length < minimumPairedCases ∨
    (∃ case ∈ aggregates Aggregate.median differences, family case.1 = none) ∨
    (∀ case ∈ aggregates Aggregate.median differences, 0 < case.2) ∨
    ∀ case ∈ aggregates Aggregate.median differences, case.2 ≤ 0

instance (family : String → Option String) (differences : List (String × ℚ)) :
    Decidable (Beneficial family differences) := by
  unfold Beneficial
  infer_instance

instance (family : String → Option String) (differences : List (String × ℚ)) :
    Decidable (OneSided family differences) := by
  unfold OneSided
  infer_instance

/-- The condition under which a report does not depend on the order. -/
structure Settled : Prop where
  metrics : ∀ key ∈ reported trials,
    Steady .median plan.family (differences plan trials (reportedMeasure trials key))
  utility : ∀ comparison ∈ plan.comparison, ∀ experiment ∈ comparison.experiment,
    UtilitySteady plan comparison.primaryCondition experiment trials
  /-- The reference only matters to a candidate that is useful without it. -/
  reference : plan.pilot = false → plan.experiment = none → Qualified plan recipe trials →
    Beneficial plan.family (differences plan trials (·.wallTimeMs)) →
    ∀ reference ∈ plan.referenceId.filter (· ≠ ""),
      OneSided plan.family (referenceDifferences plan trials reference)

instance : Decidable (Settled plan recipe trials) :=
  decidable_of_iff ((∀ key ∈ reported trials,
      Steady .median plan.family (differences plan trials (reportedMeasure trials key))) ∧
    (∀ comparison ∈ plan.comparison, ∀ experiment ∈ comparison.experiment,
      UtilitySteady plan comparison.primaryCondition experiment trials) ∧
    (plan.pilot = false → plan.experiment = none → Qualified plan recipe trials →
      Beneficial plan.family (differences plan trials (·.wallTimeMs)) →
      ∀ reference ∈ plan.referenceId.filter (· ≠ ""),
        OneSided plan.family (referenceDifferences plan trials reference)))
    ⟨fun ⟨h₁, h₂, h₃⟩ => ⟨h₁, h₂, h₃⟩, fun ⟨h₁, h₂, h₃⟩ => ⟨h₁, h₂, h₃⟩⟩

end Refit

section Sufficiency

variable {g : Generator} {plan : AssessmentPlan} {recipe : RecipeDefinition}
  {trials trials' : List BenchmarkTrial} {order order' : List (String × ℕ)}

theorem differences_perm (h : trials.Perm trials') (hpos : Positioned trials)
    (measure : BenchmarkTrial → Option ℚ) :
    (differences plan trials measure).Perm (differences plan trials' measure) :=
  (paired_perm h hpos).filterMap _

theorem interval_perm {differences differences' : List (String × ℚ)}
    (h : differences.Perm differences') (hs : Steady .median plan.family differences) :
    interval g plan differences = interval g plan differences' :=
  pairedInterval_perm h (by norm_num) hs

theorem saving_perm (h : trials.Perm trials') (hpos : Positioned trials)
    (hids : (trials.map (·.trialId)).Nodup) (hs : Settled plan recipe trials) {key : String}
    (hkey : key ∈ reported trials) : saving g plan trials key = saving g plan trials' key := by
  unfold saving
  rw [← reportedMeasure_perm h hids]
  exact interval_perm (differences_perm h hpos _) (hs.metrics key hkey)

theorem utilityEvidence_perm (h : trials.Perm trials') (hpos : Positioned trials)
    (horder : order.Perm plan.positions) (horder' : order'.Perm plan.positions)
    (hs : Settled plan recipe trials) :
    utilityEvidence g plan order trials = utilityEvidence g plan order' trials' := by
  unfold utilityEvidence
  cases hcomparison : plan.comparison with
  | none => rw [Option.bind_none, Option.bind_none]
  | some comparison =>
    rw [Option.bind_some, Option.bind_some]
    cases hexperiment : comparison.experiment with
    | none => rw [Option.map_none, Option.map_none]
    | some experiment =>
      rw [Option.map_some, Option.map_some]
      exact congrArg some (incrementalUtility_perm h hpos horder horder'
        (hs.utility comparison hcomparison experiment hexperiment))

theorem preferred_perm {differences differences' : List (String × ℚ)}
    (h : differences.Perm differences') (hone : OneSided plan.family differences) :
    ((interval g plan differences).2.any fun (lower, _) => 0 < lower) =
      (interval g plan differences').2.any fun (lower, _) => 0 < lower := by
  unfold interval
  by_cases hr : Resampled .median plan.family differences
  · have hr' := (Resampled.perm h).mp hr
    have hcases := aggregates_perm (f := Aggregate.median) (fun _ _ => Aggregate.perm _) h
    obtain ⟨bounds, hbounds⟩ : ∃ bounds, (pairedInterval g .median plan.family plan.suite.seed
        (1 / 20) differences).2 = some bounds := ⟨_, congrArg Prod.snd (pairedInterval_eq hr)⟩
    obtain ⟨bounds', hbounds'⟩ : ∃ bounds, (pairedInterval g .median plan.family plan.suite.seed
        (1 / 20) differences').2 = some bounds := ⟨_, congrArg Prod.snd (pairedInterval_eq hr')⟩
    rw [hbounds, hbounds', Option.any_some, Option.any_some, decide_eq_decide]
    rcases hone with hlength | ⟨case, hcase, hnone⟩ | hpositive | hnegative
    · exact absurd hr.enough (not_le.mpr hlength)
    · exact absurd hnone (hr.known case hcase)
    · have hlow := pairedInterval_mem Set.ordConnected_Ioi (by norm_num) hpositive hbounds
      have hlow' := pairedInterval_mem Set.ordConnected_Ioi (by norm_num)
        (fun case hcase => hpositive case (hcases.mem_iff.mpr hcase)) hbounds'
      exact iff_of_true hlow.1 hlow'.1
    · have hlow := pairedInterval_mem Set.ordConnected_Iic (by norm_num) hnegative hbounds
      have hlow' := pairedInterval_mem Set.ordConnected_Iic (by norm_num)
        (fun case hcase => hnegative case (hcases.mem_iff.mpr hcase)) hbounds'
      exact iff_of_false (not_lt.mpr hlow.1) (not_lt.mpr hlow'.1)
  · have hr' := (not_congr (Resampled.perm h)).mp hr
    rw [pairedInterval_none hr, pairedInterval_none hr']

theorem beneficial_of_lower {differences : List (String × ℚ)}
    (hs : Steady .median plan.family differences)
    (h : ((interval g plan differences).2.any fun (lower, _) => 0 < lower) = true) :
    Beneficial plan.family differences := by
  unfold interval at h
  by_cases hr : Resampled .median plan.family differences
  · refine ⟨hr.enough, fun case hcase => ⟨hr.known case hcase, ?_⟩⟩
    obtain ⟨bounds, hbounds⟩ : ∃ bounds, (pairedInterval g .median plan.family plan.suite.seed
        (1 / 20) differences).2 = some bounds := ⟨_, congrArg Prod.snd (pairedInterval_eq hr)⟩
    rw [hbounds, Option.any_some] at h
    have hall : ∀ other ∈ aggregates Aggregate.median differences, other.2 ∈ ({case.2} : Set ℚ) :=
      fun other hother => (hr.agree hs case hcase other hother).symm
    have hlow : bounds.1 = case.2 :=
      (pairedInterval_mem Set.ordConnected_singleton (by norm_num) hall hbounds).1
    exact hlow ▸ of_decide_eq_true h
  · rw [pairedInterval_none hr] at h
    cases h

theorem wallBenefit_perm (h : trials.Perm trials') (hpos : Positioned trials)
    (hids : (trials.map (·.trialId)).Nodup) (hs : Settled plan recipe trials)
    (hpilot : plan.pilot = false) (hexperiment : plan.experiment = none)
    (hq : Qualified plan recipe trials) :
    wallBenefit g plan trials = wallBenefit g plan trials' := by
  have hsaving : saving g plan trials "wall_time_ms" = saving g plan trials' "wall_time_ms" :=
    saving_perm h hpos hids hs List.mem_cons_self
  have hdifferences : (differences plan trials (·.wallTimeMs)).Perm
      (differences plan trials' (·.wallTimeMs)) := differences_perm h hpos _
  have hpairs := (aggregates_perm (f := Aggregate.median) (fun _ _ => Aggregate.perm _)
    hdifferences).length_eq
  rw [← groups_length, ← groups_length] at hpairs
  unfold wallBenefit
  rw [← hsaving, ← hpairs]
  by_cases hlower : ((saving g plan trials "wall_time_ms").2.any fun (lower, _) => 0 < lower) = true
  · have hbeneficial : Beneficial plan.family (differences plan trials (·.wallTimeMs)) :=
      beneficial_of_lower (hs.metrics _ List.mem_cons_self) hlower
    have hreference : referencePreferred g plan trials = referencePreferred g plan trials' := by
      unfold referencePreferred
      cases hid : plan.referenceId.filter (· ≠ "") with
      | none => rw [Option.any_none, Option.any_none]
      | some reference =>
        rw [Option.any_some, Option.any_some]
        exact preferred_perm (referenceDifferences_perm h hpos reference)
          (hs.reference hpilot hexperiment hq hbeneficial reference hid)
    rw [hreference]
  · rw [Bool.not_eq_true] at hlower
    simp only [hlower, Bool.and_false, Bool.false_and]

theorem useful_perm (h : trials.Perm trials') (hpos : Positioned trials)
    (hids : (trials.map (·.trialId)).Nodup) (horder : order.Perm plan.positions)
    (horder' : order'.Perm plan.positions) (hs : Settled plan recipe trials)
    (hpilot : plan.pilot = false) :
    useful g plan recipe order trials = useful g plan recipe order' trials' := by
  have hutility := utilityEvidence_perm (g := g) h hpos horder horder' hs
  unfold useful
  rw [← hutility]
  simp only [← qualified_perm h]
  by_cases hq : Qualified plan recipe trials
  · cases he : utilityEvidence g plan order trials with
    | some utility => rfl
    | none =>
      have hexperiment : plan.experiment = none := by
        unfold utilityEvidence at he
        unfold AssessmentPlan.experiment
        cases hcomparison : plan.comparison with
        | none => rfl
        | some comparison =>
          rw [hcomparison, Option.bind_some, Option.map_eq_none_iff] at he
          exact he
      simp only [wallBenefit_perm h hpos hids hs hpilot hexperiment hq]
  · simp only [hq, decide_false, Bool.false_and]

/-- A settled report is the same whatever the order. -/
theorem Settled.agrees (hpos : Positioned trials) (hids : (trials.map (·.trialId)).Nodup)
    (hs : Settled plan recipe trials) (g : Generator) : Agrees plan recipe trials g := by
  intro trials' order order' h horder horder'
  have hutility := utilityEvidence_perm (g := g) h hpos horder horder' hs
  have hsaving : ∀ key ∈ reported trials, saving g plan trials key = saving g plan trials' key :=
    fun key hkey => saving_perm h hpos hids hs hkey
  have hreported := mem_reported_perm h hids
  unfold fitReport
  congr 1
  · by_cases hpilot : plan.pilot = true
    · rw [if_pos hpilot, if_pos hpilot]
    · rw [Bool.not_eq_true] at hpilot
      unfold outcome measuredInFull
      rw [useful_perm h hpos hids horder horder' hs hpilot, failures_perm h, ← hutility,
        ← hsaving _ List.mem_cons_self]
      simp only [← qualified_perm h]
  · simp only [← qualified_perm h]
  · funext key
    simp only [← hreported]
    split
    next hkey => rw [hsaving key hkey]
    next => rfl
  · funext key
    simp only [← hreported]
    split
    next hkey => rw [hsaving key hkey]
    next => rfl

end Sufficiency

/-! ## Bringing a case to the front -/

section Front

variable {plan : AssessmentPlan} {recipe : RecipeDefinition} {trials : List BenchmarkTrial}
  {f : Aggregate} {family : String → Option String} {seed : Int} {alpha : ℚ}

theorem not_steady {differences : List (String × ℚ)} (h : ¬ Steady f family differences) :
    Resampled f family differences ∧ ∃ case ∈ aggregates f differences,
      ∃ other ∈ aggregates f differences, case.2 ≠ other.2 := by
  have hr : Resampled f family differences := by
    by_contra hr
    exact h (steady_or hr)
  refine ⟨hr, ?_⟩
  by_contra hagree
  push Not at hagree
  exact h (.inr (.inr hagree))

theorem pairedInterval_front {differences differences' : List (String × ℚ)}
    (h : differences.Perm differences') (halpha : alpha ≤ 1) (hr : Resampled f family differences)
    {case : String × ℚ} (hcase : case ∈ aggregates f differences) {x : ℚ}
    {rest : List (String × ℚ)} (hfront : differences' = (case.1, x) :: rest) :
    (pairedInterval .first f family seed alpha differences').2 = some (case.2, case.2) := by
  have hvalue : case.2 = f (valuesOf case.1 differences') := by
    obtain ⟨group, hgroup, rfl⟩ := List.mem_map.mp hcase
    obtain ⟨key, -, rfl⟩ := List.mem_map.mp hgroup
    exact f.perm (h.filterMap _)
  rw [hvalue]
  subst hfront
  exact pairedInterval_first halpha ((Resampled.perm h).mp hr)

theorem mem_of_aggregates {differences : List (String × ℚ)} {case : String × ℚ}
    (h : case ∈ aggregates f differences) : ∃ x, (case.1, x) ∈ differences := by
  obtain ⟨group, hgroup, rfl⟩ := List.mem_map.mp h
  obtain ⟨key, hkey, rfl⟩ := List.mem_map.mp hgroup
  obtain ⟨pair, hpair, rfl⟩ := List.mem_map.mp (List.mem_eraseDups.mp hkey)
  exact ⟨pair.2, hpair⟩

theorem mem_paired {case : String} {candidate baseline : BenchmarkTrial}
    (h : (case, candidate, baseline) ∈ paired plan trials) :
    candidate ∈ trials ∧ comparable plan trials candidate ∧ candidate.routeId = plan.candidateId ∧
      case = candidate.caseId ∧ plan.candidateId ≠ plan.baselineId ∧
      runAt trials (comparable plan trials) (onRoute plan.baselineId (position candidate)) =
        some baseline := by
  obtain ⟨at_, hat, h⟩ := List.mem_filterMap.mp h
  split at h
  next => cases h
  next hne =>
    obtain ⟨found, hfound, h⟩ := Option.bind_eq_some_iff.mp h
    obtain ⟨base, hbase, h⟩ := Option.map_eq_some_iff.mp h
    cases h
    obtain ⟨trial, -, rfl⟩ := List.mem_map.mp (List.mem_eraseDups.mp hat)
    obtain ⟨hin, hposition⟩ := mem_of_lastAt hfound
    obtain ⟨hmem, hcomparable⟩ := List.mem_filter.mp hin
    refine ⟨hmem, hcomparable, congrArg Position.routeId hposition,
      (congrArg Position.caseId hposition).symm, hne, ?_⟩
    rw [hposition]
    exact hbase

theorem paired_cons {candidate baseline : BenchmarkTrial} (hpos : Positioned (candidate :: trials))
    (hcomparable : comparable plan (candidate :: trials) candidate)
    (hroute : candidate.routeId = plan.candidateId) (hne : plan.candidateId ≠ plan.baselineId)
    (hbaseline : runAt (candidate :: trials) (comparable plan (candidate :: trials))
      (onRoute plan.baselineId (position candidate)) = some baseline) :
    ∃ rest, paired plan (candidate :: trials) = (candidate.caseId, candidate, baseline) :: rest := by
  have hat : onRoute plan.candidateId (position candidate) = position candidate := by
    rw [← hroute]
    rfl
  have hself := runAt_self hpos (fun trial => comparable_holdout trial) List.mem_cons_self hcomparable
  unfold paired
  rw [List.filter_cons_of_pos hcomparable, List.map_cons, List.eraseDups_cons, hat,
    List.filterMap_cons_some (b := (candidate.caseId, candidate, baseline))]
  · exact ⟨_, rfl⟩
  · rw [if_neg hne, hself, Option.bind_some, hbaseline]
    rfl

theorem differences_front (hpos : Positioned trials) {measure : BenchmarkTrial → Option ℚ}
    {case : String} {x : ℚ} (h : (case, x) ∈ differences plan trials measure) :
    ∃ trials', trials.Perm trials' ∧ ∃ rest, differences plan trials' measure = (case, x) :: rest := by
  obtain ⟨⟨case', candidate, baseline⟩, hpair, hsaved⟩ := List.mem_filterMap.mp h
  obtain ⟨hmem, hcomparable, hroute, rfl, hne, hbaseline⟩ := mem_paired hpair
  have hperm := List.perm_cons_erase hmem
  have hpos' := positioned_perm hperm hpos
  rw [comparable_perm hperm] at hcomparable hbaseline
  rw [runAt_perm hperm hpos fun trial => comparable_holdout trial] at hbaseline
  obtain ⟨rest, hrest⟩ := paired_cons hpos' hcomparable hroute hne hbaseline
  refine ⟨_, hperm, ?_⟩
  unfold differences
  rw [hrest, List.filterMap_cons_some hsaved]
  exact ⟨_, rfl⟩

theorem referenceDifferences_front (hpos : Positioned trials) {reference case : String} {x : ℚ}
    (h : (case, x) ∈ referenceDifferences plan trials reference) :
    ∃ trials', trials.Perm trials' ∧
      ∃ rest, referenceDifferences plan trials' reference = (case, x) :: rest := by
  obtain ⟨trial, htrial, hover⟩ := List.mem_filterMap.mp h
  obtain ⟨hmem, hselected⟩ := List.mem_filter.mp htrial
  have hperm := List.perm_cons_erase hmem
  refine ⟨_, hperm, ?_⟩
  rw [overReference_perm hperm hpos] at hover
  have hcons : selected plan (trial :: trials.erase trial) =
      trial :: selected plan (trials.erase trial) :=
    List.filter_cons_of_pos (p := fun other : BenchmarkTrial =>
      other.routeId = plan.candidateId ∧ other.phase = .holdout) hselected
  unfold referenceDifferences
  rw [hcons, List.filterMap_cons_some hover]
  exact ⟨_, rfl⟩

theorem gains_front {condition : TrialCondition} {metric candidate base case : String} {x : ℚ}
    {order : List (String × ℕ)}
    (h : (case, x) ∈ gains condition trials order metric candidate base) :
    ∃ order', order.Perm order' ∧
      ∃ rest, gains condition trials order' metric candidate base = (case, x) :: rest := by
  obtain ⟨at_, hat, hgain⟩ := List.mem_filterMap.mp h
  refine ⟨_, List.perm_cons_erase hat, ?_⟩
  unfold gains
  rw [List.filterMap_cons_some hgain]
  exact ⟨_, rfl⟩

end Front

section Necessity

variable {plan : AssessmentPlan} {recipe : RecipeDefinition} {trials : List BenchmarkTrial}

theorem two_intervals {f : Aggregate} {family : String → Option String} (seed : Int) {alpha : ℚ}
    {differences : List (String × ℚ)} (halpha : alpha ≤ 1) (h : ¬ Steady f family differences)
    {α : Type} (reorder : α → List (String × ℚ))
    (hperm : ∀ a, differences.Perm (reorder a))
    (hfront : ∀ case x, (case, x) ∈ differences → ∃ a rest, reorder a = (case, x) :: rest) :
    ∃ a b, (pairedInterval .first f family seed alpha (reorder a)).2 ≠
      (pairedInterval .first f family seed alpha (reorder b)).2 := by
  obtain ⟨hr, case, hcase, other, hother, hne⟩ := not_steady h
  obtain ⟨x, hx⟩ := mem_of_aggregates hcase
  obtain ⟨y, hy⟩ := mem_of_aggregates hother
  obtain ⟨a, _, ha⟩ := hfront case.1 x hx
  obtain ⟨b, _, hb⟩ := hfront other.1 y hy
  refine ⟨a, b, ?_⟩
  rw [pairedInterval_front (hperm a) halpha hr hcase ha,
    pairedInterval_front (hperm b) halpha hr hother hb]
  intro heq
  exact hne (congrArg Prod.fst (Option.some_inj.mp heq))

theorem Agrees.interval_eq {g : Generator} {trials₁ trials₂ : List BenchmarkTrial}
    (h : Agrees plan recipe trials g) (hids : (trials.map (·.trialId)).Nodup) {key : String}
    (hkey : key ∈ reported trials) (h₁ : trials.Perm trials₁) (h₂ : trials.Perm trials₂) :
    (interval g plan (differences plan trials₁ (reportedMeasure trials key))).2 =
      (interval g plan (differences plan trials₂ (reportedMeasure trials key))).2 := by
  have hsame : ∀ trials', trials.Perm trials' → (fitReport g plan recipe plan.positions
      trials').savingsInterval key = (interval g plan
        (differences plan trials' (reportedMeasure trials key))).2 := by
    intro trials' hperm
    unfold fitReport saving
    dsimp only
    rw [if_pos ((mem_reported_perm hperm hids key).mp hkey), reportedMeasure_perm hperm hids]
  have hrefl := List.Perm.refl plan.positions
  exact (hsame trials₁ h₁).symm.trans ((congrArg (·.savingsInterval key)
    ((h trials₁ _ _ h₁ hrefl hrefl).symm.trans (h trials₂ _ _ h₂ hrefl hrefl))).trans
      (hsame trials₂ h₂))

theorem Agrees.metrics (hpos : Positioned trials) (hids : (trials.map (·.trialId)).Nodup)
    (h : Agrees plan recipe trials .first) {key : String} (hkey : key ∈ reported trials) :
    Steady .median plan.family (differences plan trials (reportedMeasure trials key)) := by
  by_contra hs
  obtain ⟨⟨trials₁, h₁⟩, ⟨trials₂, h₂⟩, hne⟩ := two_intervals plan.suite.seed
    (show (1 / 20 : ℚ) ≤ 1 by norm_num) hs
    (fun trials' : {trials' : List BenchmarkTrial // trials.Perm trials'} =>
      differences plan trials'.1 (reportedMeasure trials key))
    (fun trials' => differences_perm trials'.2 hpos _)
    (fun case x hx => by
      obtain ⟨trials', hperm, rest, hrest⟩ := differences_front hpos hx
      exact ⟨⟨trials', hperm⟩, rest, hrest⟩)
  exact hne (h.interval_eq hids hkey h₁ h₂)

theorem measure_of_incrementalUtility {g : Generator} {condition : TrialCondition}
    {experiment : IncrementalExperiment} {order order' : List (String × ℕ)}
    (h : incrementalUtility plan condition experiment trials g order =
      incrementalUtility plan condition experiment trials g order') {routes : String × String}
    (hroutes : routes ∈ comparedRoutes plan experiment) {metric : String}
    (hmetric : metric ∈ dimensions experiment) :
    measure plan condition experiment trials g order metric routes.1 routes.2 =
      measure plan condition experiment trials g order' metric routes.1 routes.2 := by
  have hcompare : compare plan condition experiment trials g order routes.1 routes.2 =
      compare plan condition experiment trials g order' routes.1 routes.2 := by
    rcases List.mem_append.mp hroutes with hroutes | hroutes
    · rcases List.mem_cons.mp hroutes with rfl | hroutes
      · exact congrArg (·.primary) h
      · obtain ⟨challenger, hchallenger, rfl⟩ := List.mem_map.mp hroutes
        have hmap := List.map_inj_left.mp (congrArg (·.challengers) h) challenger hchallenger
        exact congrArg Prod.snd hmap
    · have hnormal := congrArg (·.discoveryVsNormal) h
      unfold incrementalUtility at hnormal
      dsimp only at hnormal
      cases hstage : experiment.stage with
      | aeepValue normalHost =>
        rw [hstage] at hroutes hnormal
        cases List.mem_singleton.mp hroutes
        exact Option.some_inj.mp hnormal
      | _ =>
        rw [hstage] at hroutes
        exact absurd hroutes List.not_mem_nil
  have hmetrics := List.map_inj_left.mp (congrArg (·.metrics) hcompare) metric hmetric
  exact congrArg Prod.snd hmetrics

theorem Agrees.utility (h : Agrees plan recipe trials .first) {comparison : AssessmentComparison}
    (hcomparison : plan.comparison = some comparison) {experiment : IncrementalExperiment}
    (hexperiment : comparison.experiment = some experiment) :
    UtilitySteady plan comparison.primaryCondition experiment trials := by
  intro routes hroutes metric hmetric
  by_contra hs
  obtain ⟨⟨order₁, h₁⟩, ⟨order₂, h₂⟩, hne⟩ := two_intervals plan.suite.seed
    (show alpha plan experiment ≤ 1 from alpha_le_one) hs
    (fun order : {order : List (String × ℕ) // plan.positions.Perm order} =>
      gains comparison.primaryCondition trials order.1 metric routes.1 routes.2)
    (fun order => order.2.filterMap _)
    (fun case x hx => by
      obtain ⟨order, hperm, rest, hrest⟩ := gains_front hx
      exact ⟨⟨order, hperm⟩, rest, hrest⟩)
  have hutility : incrementalUtility plan comparison.primaryCondition experiment trials .first order₁ =
      incrementalUtility plan comparison.primaryCondition experiment trials .first order₂ := by
    have hreport := congrArg (·.utilityEvidence) (h trials _ _ (List.Perm.refl _) h₁.symm h₂.symm)
    unfold fitReport utilityEvidence at hreport
    rw [hcomparison] at hreport
    dsimp only [Option.bind_some] at hreport
    rw [hexperiment] at hreport
    exact Option.some_inj.mp hreport
  exact hne (congrArg (·.interval) (measure_of_incrementalUtility hutility hroutes hmetric))

theorem beneficial_perm {family : String → Option String} {differences differences' : List (String × ℚ)}
    (h : differences.Perm differences') (hb : Beneficial family differences) :
    Beneficial family differences' := by
  have hcases := aggregates_perm (f := Aggregate.median) (fun _ _ => Aggregate.perm _) h
  exact ⟨hcases.length_eq ▸ hb.1, fun case hcase => hb.2 case (hcases.mem_iff.mpr hcase)⟩

theorem lower_of_beneficial {g : Generator} {differences : List (String × ℚ)}
    (hb : Beneficial plan.family differences) :
    ((interval g plan differences).2.any fun (lower, _) => 0 < lower) = true := by
  have hr : Resampled .median plan.family differences :=
    ⟨hb.1, fun case hcase => (hb.2 case hcase).1⟩
  obtain ⟨bounds, hbounds⟩ : ∃ bounds, (interval g plan differences).2 = some bounds :=
    ⟨_, congrArg Prod.snd (pairedInterval_eq hr)⟩
  rw [hbounds, Option.any_some]
  exact decide_eq_true (pairedInterval_mem Set.ordConnected_Ioi (by norm_num)
    (fun case hcase => (hb.2 case hcase).2) hbounds).1

theorem outcome_useful_iff {g : Generator} {order : List (String × ℕ)} :
    outcome g plan recipe order trials = .usefulWithinScope ↔
      useful g plan recipe order trials = true := by
  unfold outcome
  constructor
  · intro h
    by_contra hnot
    rw [if_neg hnot] at h
    split at h
    · cases h
    · split at h <;> cases h
  · exact fun h => if_pos h

theorem useful_of_beneficial {g : Generator} {order : List (String × ℕ)}
    (hexperiment : plan.experiment = none) (hq : Qualified plan recipe trials)
    (hb : Beneficial plan.family (differences plan trials (·.wallTimeMs))) :
    useful g plan recipe order trials = !referencePreferred g plan trials := by
  have hutility : utilityEvidence g plan order trials = none := by
    unfold utilityEvidence
    unfold AssessmentPlan.experiment at hexperiment
    cases hcomparison : plan.comparison with
    | none => rfl
    | some comparison =>
      rw [hcomparison, Option.bind_some] at hexperiment
      rw [Option.bind_some, hexperiment]
      rfl
  have henough : minimumPairedCases ≤ (groups (differences plan trials (·.wallTimeMs))).length := by
    rw [groups_length Aggregate.median]
    exact hb.1
  have hlower : ((saving g plan trials "wall_time_ms").2.any fun (lower, _) => 0 < lower) = true :=
    lower_of_beneficial hb
  unfold useful wallBenefit
  rw [hutility]
  simp only [hq, henough, hlower, decide_true, Bool.true_and]

theorem Agrees.reference (hpos : Positioned trials) (h : Agrees plan recipe trials .first)
    (hpilot : plan.pilot = false) (hexperiment : plan.experiment = none)
    (hq : Qualified plan recipe trials)
    (hb : Beneficial plan.family (differences plan trials (·.wallTimeMs))) {reference : String}
    (hid : plan.referenceId.filter (· ≠ "") = some reference) :
    OneSided plan.family (referenceDifferences plan trials reference) := by
  by_contra hone
  have hr : Resampled .median plan.family (referenceDifferences plan trials reference) := by
    refine ⟨not_lt.mp fun hlength => hone (.inl hlength), fun case hcase hnone => ?_⟩
    exact hone (.inr (.inl ⟨case, hcase, hnone⟩))
  obtain ⟨slower, hslower, hnonpos⟩ : ∃ case ∈ aggregates Aggregate.median
      (referenceDifferences plan trials reference), ¬ 0 < case.2 := by
    by_contra hall
    push Not at hall
    exact hone (.inr (.inr (.inl hall)))
  obtain ⟨faster, hfaster, hpos'⟩ : ∃ case ∈ aggregates Aggregate.median
      (referenceDifferences plan trials reference), 0 < case.2 := by
    by_contra hall
    push Not at hall
    exact hone (.inr (.inr (.inr hall)))
  -- the bound of the first draws has the sign of the case at the front
  have hpreferred : ∀ case ∈ aggregates Aggregate.median (referenceDifferences plan trials reference),
      ∃ trials', trials.Perm trials' ∧
        referencePreferred .first plan trials' = decide (0 < case.2) := by
    intro case hcase
    obtain ⟨x, hx⟩ := mem_of_aggregates hcase
    obtain ⟨trials', hperm, rest, hrest⟩ := referenceDifferences_front hpos hx
    refine ⟨trials', hperm, ?_⟩
    unfold referencePreferred interval
    rw [hid, Option.any_some, pairedInterval_front (referenceDifferences_perm hperm hpos reference)
      (by norm_num) hr hcase hrest, Option.any_some]
  have huseful : ∀ trials', trials.Perm trials' →
      ((fitReport .first plan recipe plan.positions trials').outcome = .usefulWithinScope ↔
        referencePreferred .first plan trials' = false) := by
    intro trials' hperm
    unfold fitReport
    dsimp only
    rw [hpilot, if_neg Bool.false_ne_true, outcome_useful_iff, useful_of_beneficial hexperiment
      (hq.perm hperm) (beneficial_perm (differences_perm hperm hpos _) hb), Bool.not_eq_true']
  obtain ⟨trials₁, h₁, hfirst⟩ := hpreferred slower hslower
  obtain ⟨trials₂, h₂, hsecond⟩ := hpreferred faster hfaster
  have hrefl := List.Perm.refl plan.positions
  have hsame := (h trials₁ _ _ h₁ hrefl hrefl).symm.trans (h trials₂ _ _ h₂ hrefl hrefl)
  have hgood := (huseful trials₁ h₁).mpr (hfirst.trans (decide_eq_false hnonpos))
  rw [hsame, huseful trials₂ h₂, hsecond, decide_eq_false_iff_not] at hgood
  exact hgood hpos'

end Necessity

/-- The cases of a campaign, of four families. -/
def exampleCases (families : List (String × ℕ)) : List String :=
  families.flatMap fun (family, size) => (List.range size).map fun i => family ++ "-" ++ toString i

/-- Two families of eight cases, and the small ones of two. -/
def exampleFamilies (small : List String) : List (String × ℕ) :=
  [("a", 8), ("b", 8)] ++ small.map (·, 2)

def exampleSuite : BenchmarkSuite where
  suiteId := "suite"
  seed := 7
  repetitions := 1
  routes := ["x", "y"]
  conditions := [.routerFresh]
  cases := (exampleCases (exampleFamilies ["c", "d"])).map fun case => ⟨case, .holdout, none, none⟩
  sequentialStages := false
  stopOnScreeningFailure := false
  warmupCases := []
  pairedOrder := false
  repeated := by decide
  routes_nodup := by decide
  cases_nodup := by decide +kernel
  warmup_nodup := List.nodup_nil
  warmup_separate _ h := absurd h List.not_mem_nil
  staged_warmup h := nomatch h

def examplePlan : AssessmentPlan where
  candidateId := "x"
  baselineId := "y"
  referenceId := none
  suite := exampleSuite
  comparison := none
  pilot := false

def exampleTrial (route case : String) (time : ℚ) : BenchmarkTrial where
  trialId := route ++ case
  caseId := case
  routeId := route
  condition := .routerFresh
  repetition := 0
  phase := .holdout
  ok := true
  valid := some true
  wallTimeMs := some time
  actualResources := ⟨0, 0, 0, 0⟩
  accounting := ⟨⟨.unavailable, []⟩, [], []⟩
  hostModels := none
  correctnessFailed := none
  capabilityDiscovery := none

/-- A campaign with the time the baseline takes in each case. -/
def exampleTrials (small : List String) (time : String → ℚ) : List BenchmarkTrial :=
  (exampleCases (exampleFamilies small)).flatMap fun case =>
    [exampleTrial "x" case 10, exampleTrial "y" case (time case)]

theorem exampleTrials_keys : measurementKeys (exampleTrials ["c", "d"] fun _ => 30) =
    ["local.cpu_ms", "local.memory_mb_seconds", "local.gpu_ms", "local.network_bytes"] := by
  decide +kernel

/-- The groups that `choices` of CPython's `random.Random(7)` takes in 2000 resamples of four groups
with 8, 8, 2 and 2 values, two bits each, 160 in a row. -/
def recordedGroups : List ℕ :=
  [
    0x733a67c40003fba7471fdc0b466f414cfbd51a0dc58e2261e0f85a8943693300874068047b8b8a21,
    0x8373cd27dfd4badd99bec56fe0c8a03767d306c29f1f6aaae698c4254d4ccf696630aa6978642456,
    0x40eb0f0f21eabcce1906eb6b45e1ba14422ceb9c66a304247be0fbda974f96a560abe202d6b2cae8,
    0xa6bde5bbb1f659fb1c623b52e31833d9f9dcc8fdfc1c2451d397e5e3d1bc598bc3a88b7c368d90c5,
    0x56cd7eeec632fbdfe3b46e9fc8fb17153cfd0ea90c59320e8dd438270d2820c119a8fcfd29180730,
    0x476c8f168e49709b29c69a8c505aa4400a1b0a0738642c0b300390417a19a84dfff25c11e5962181,
    0xbac154c4eb9d0e14219043269867684be5de2a7cec4773c3cdd2d02fb7e48ee5db952d8ad93771aa,
    0x27cf32aa8470590e0053cb77d98158d04c41ad1413b53bf4e45d648c8af345023012440ec594dd17,
    0x2ff44749ae6a379f2ecc44b25cf6e3650734aacf56b60888d33810fddc2d943d3a573324c7806a22,
    0x5107c06fbd77bc53b7b8d6b3d7364a21856a2bff5b98aad517e7431f1e5d947d08090a904daa08c9,
    0x76966d7eb569c15b4b6ab07625b620cdff5d4f34a81b618617d03029562259f21dcc70196fdd7428,
    0x5669e23de6510450a25b33d022e6cd9b85ae3ff10c9e36bf4ca3300772f9393cc959225aec5686f9,
    0xf0292ccaa87a268e6cd6f6ac9eaecbb7c233997c18a1e339524aa0f11ea3bfb1039e99c446bc3753,
    0x67087ac307970efce2121d024f4138196d559aea490a9f1bec2d0a93437a255845b81c318bcc6d7c,
    0x1b2f5a8e02ad7779fdc3563dbc72eb4c4e5e86c556a5d19c30aa5249240035e09b3ec79179585f99,
    0x19ee946e6c92e87d45659d2bb58284dc882de312e1fccce8722c9ebec59779ffa1f0b15ba301363d,
    0x99a3b1b7ac764b94e4287c77ecfe188fdd12cbd9aedee771ee003fd4bd7ef9d5feb3a9de6b5a33d3,
    0x397be33822db4961d80a1d5bc079b2b37674026c916d3d5c0d847e3fe44d2a50519a802f0257c68f,
    0xcad8db8fbf2aa254b8ee1e97a9cdf49dd106ceae1a21f8413c3ecc198ab292fa15868658545a628b,
    0xba52e9aed83a04864151128687211648bff19f1a011f10dd58d64a94961a0147bd455ed1d77e6c56,
    0xf93e3afd1940a069e1df83906bfa97dfd291e3bc12c4bd2599b7a4cbbf4f6875d1d8099d7af6ec04,
    0x36b7dc5c50049a702dcc6feac8732bcb064c7a900f6a084ea2a3663c4a1cbb823c8bc0f4ef739695,
    0xca2a0baf66fca09b2112de524720ed4249719622c8ed2adb32db24c2ed776d90ff0b6fb28ae68241,
    0xf176d26b03248358c19582b0a688e1554a88c9f79b552f51ed1e8297652aefdaefe54e8cfe0171e5,
    0xc6a65a18367058699335b93ebb8a943875a7929d15aee649063326c94fc658055209ca8b7272fe14,
    0x2332a6bcc36a4ee4f4c9f5ac685d74f2812948508d1dd90cea42fe62c31f12d71b168ebc2105ccc7,
    0xc5e17a9649635e976c73bcbada24eb030ab80027172d1ffe304b33fb0764cff918cff0c700248ad7,
    0x2ea3c3da339e2bf284b875d96898cae84918eca08110bca3e957f3521935752c0233d39cb799e15d,
    0x300543cccffc2bc098a82a5eb352277a4c4c7ca399fa3650e43747f209e74401d5096d29a6433c80,
    0x7f750bea6677de8e1aa0db1057715220a84a4d331caaab51f6d383895721def46e79fbf4280a2e37,
    0x8300cc262be42f2fbd37dfcf4009a5790452eaa9912e0579dce2d1bc4eda368449f2fd5ffe6245ec,
    0xf20966c4537f5543530f9722019323bb9477c100273bec22efae1d93944d34ad8c8c0f4054c4d83b,
    0xdf3a384feb6a8a0ded145b82a048d05b1f0e1effb31ac194b1c84ca2f35957fe92febdf04705ab7e,
    0x2639198a1360014483a3ccf701f8c5759e133a0c5c3030f609bea1bc1d8aa04b9cd1c9ad76b0577,
    0x8244a9acef11e895f380f0ff551ec975daa0f2df8cbf24099626d26a6f9a0e485d5653c7c8a8dd64,
    0x5da42c5e1646a4a442a33ba1146f89b342a101ae31f9761afc3008baa5be5d9f1deede9183594915,
    0xda1eaf6a9acb9851fa4e656aec6cefb04af88871f9e904eaf8de9febc32910231663d42386c8840e,
    0x3f5f930f97d0a4c33b044000e59228d304abef3863fda75662ce3ac53d44f3287757ba8ecb70053b,
    0xc465397d87e6fa659856f2b04d8dc2a7f0c06972607ef091244ef0440eb5be805a7ee6c78655a45,
    0xf7b041c108a6389767fcfe572034f3a828e3ec484bbfec91014f228cbbc4851cc542c5d3345eb4c,
    0xb572f349ebbb716686a8e10c236c35137d75bcbea0e63e5b8ea46297bc267fbfab612a94ce709cce,
    0x69de50fefe9ab60bf8fb34b0e78809e84568dbf48017ed47bf24c3159cb549757ee7256f3b50ab0e,
    0xe094267d85be3de7766a4745e82f989850a5263d1e11b59bfff7be9c542ee5daa9098be9177a918f,
    0xd8974616e82cd70e4851f5dedfd1ca14c7de7650ff7cf2d352d337c554911697d11d06412d137e0e,
    0x2696b5dd42135bc6fd7fedea929434bd7e2b3754a5aa09bb0a5ea33bf65dee80909bef3d537db3dc,
    0x970d4ce987f07c79a3dfd7c8539950fef9da96b0a778395db502de5390b327263b02253ad73b7dbb,
    0xa4a37dc01f5fd5763f0c4d5e6da209e0e3a9a6b1d358e822f32579ff89418fb90e8236029a6ae91c,
    0xffdeb3975538dfb9faf919192f3e438ba0abca439debced8e16f9651d43dd906ecb05be5a7a66722,
    0x833bb455f59ce69ce9e054f39befc68d587097be777bfebe5708308853294284ce491e273b5bd245,
    0x518c5bac6a993f35ca185a754b8b4465760c1fdc0e56005d51959cbe8ac260a7168ce68d1b753959]

/-- The index of one of the groups taken. -/
def recordedDraw (s : ℕ) : ℕ := recordedGroups.getD (s / 160) 0 / 4 ^ (s % 160) % 4

section Recorded

variable {plan : AssessmentPlan} {draws : ℕ → ℕ} {within : ℕ → ℕ → ℕ}
  {differences : List (String × ℚ)} {gs : List (List ℚ)} {v : ℚ}

theorem lower_recorded (hr : Resampled .median plan.family differences)
    (hgroups : (groups (familyMembers .median plan.family differences)).map (·.2) = gs) (hgs : gs ≠ [])
    (huniform : ∀ group ∈ gs, Uniform group)
    (hlow : ∀ group ∈ gs, group ≠ [] ∧ ∀ x ∈ group, v ≤ x) :
    ∃ bounds, (interval (.recorded draws within) plan differences).2 = some bounds ∧
      (bounds.1 ≤ v ↔ 49 < (List.range resampleCount).countP fun r => lowMajority draws
        (gs.map fun group => (group.length, group.countP (· ≤ v))) (gs.length * r)) := by
  have hindex : lowerIndex (1 / 20) = 49 := by decide +kernel
  refine ⟨_, congrArg Prod.snd (pairedInterval_eq hr), ?_⟩
  rw [hgroups, hindex]
  have hcount : 49 < resampleCount := hindex ▸ lowerIndex_lt (by norm_num)
  dsimp only
  exact getD_resamples_recorded hcount hgs huniform hlow _

end Recorded

/-- The baseline is faster than the candidate in the cases of one small family. -/
def exampleTime (case : String) : ℚ := if caseStem case = "c" then 5 else 30

theorem exampleTrials_perm :
    (exampleTrials ["c", "d"] exampleTime).Perm (exampleTrials ["d", "c"] exampleTime) :=
  ((((List.Perm.swap "d" "c" []).map (·, 2)).append_left _).flatMap_right _).flatMap_right _

/-- What the cases of the families save, by the order of the small ones. -/
def exampleGroups (small : List String) : List (List ℚ) :=
  [List.replicate 8 20, List.replicate 8 20] ++
    small.map fun family => List.replicate 2 (if family = "c" then -5 else 20)

theorem exampleTrials_groups (small : List String) (h : small ∈ [["c", "d"], ["d", "c"]]) :
    Resampled .median examplePlan.family
      (differences examplePlan (exampleTrials small exampleTime) (·.wallTimeMs)) ∧
    (groups (familyMembers .median examplePlan.family
      (differences examplePlan (exampleTrials small exampleTime) (·.wallTimeMs)))).map (·.2) =
      exampleGroups small := by
  rcases List.mem_pair.mp h with rfl | rfl
  · exact ⟨⟨by decide +kernel, by decide +kernel⟩, by decide +kernel⟩
  · exact ⟨⟨by decide +kernel, by decide +kernel⟩, by decide +kernel⟩

theorem exampleGroups_uniform {small : List String} {group : List ℚ}
    (h : group ∈ exampleGroups small) :
    ∃ n x, group = List.replicate (n + 1) x ∧ (-5 : ℚ) ≤ x := by
  simp only [exampleGroups, List.mem_append, List.mem_pair, List.mem_map] at h
  rcases h with (rfl | rfl) | ⟨family, -, rfl⟩
  · exact ⟨7, 20, rfl, by norm_num⟩
  · exact ⟨7, 20, rfl, by norm_num⟩
  · refine ⟨1, _, rfl, ?_⟩
    split <;> norm_num

/-- The resamples that are mostly of the slow family. -/
def slowResamples (small : List String) : ℕ :=
  (List.range resampleCount).countP fun r => lowMajority recordedDraw
    ((exampleGroups small).map fun group => (group.length, group.countP (· ≤ -5)))
    ((exampleGroups small).length * r)

theorem slowResamples_last : slowResamples ["d", "c"] = 53 := by
  have hsizes : (exampleGroups ["d", "c"]).map (fun group : List ℚ =>
      (group.length, group.countP (· ≤ -5))) = [(8, 0), (8, 0), (2, 0), (2, 2)] := by decide +kernel
  rw [slowResamples, hsizes]
  decide +kernel

theorem slowResamples_third : slowResamples ["c", "d"] = 43 := by
  have hsizes : (exampleGroups ["c", "d"]).map (fun group : List ℚ =>
      (group.length, group.countP (· ≤ -5))) = [(8, 0), (8, 0), (2, 2), (2, 0)] := by decide +kernel
  rw [slowResamples, hsizes]
  decide +kernel

theorem exampleTrials_lower (small : List String) (h : small ∈ [["c", "d"], ["d", "c"]])
    (within : ℕ → ℕ → ℕ) :
    ∃ bounds, (interval (.recorded recordedDraw within) examplePlan
      (differences examplePlan (exampleTrials small exampleTime) (·.wallTimeMs))).2 = some bounds ∧
      (bounds.1 ≤ -5 ↔ 49 < slowResamples small) := by
  obtain ⟨hr, hgroups⟩ := exampleTrials_groups small h
  refine lower_recorded hr hgroups (List.cons_ne_nil _ _) (fun group hgroup => ?_)
    fun group hgroup => ?_
  · obtain ⟨n, x, rfl, -⟩ := exampleGroups_uniform hgroup
    exact uniform_replicate _ _
  · obtain ⟨n, x, rfl, hx⟩ := exampleGroups_uniform hgroup
    exact ⟨List.cons_ne_nil _ _, fun y hy => List.eq_of_mem_replicate hy ▸ hx⟩

end AeepRouter.Reporting

import AeepRouter.Assessment.Refit

/-!
# What a report covers

A report that passes has no failure, and with a comparison a passing trial at every position of the
held-out cases. Without one only their number and their cases are checked (`Counted`), which repeated
trials can make up for missing ones. A report that finds the candidate useful rests on an interval of
enough distinct cases that both routes ran (`Supported`).
-/

namespace AeepRouter.Reporting

open Lib Benchmark

/-! ## Coverage -/

section Coverage

variable (plan : AssessmentPlan) (recipe : RecipeDefinition) (trials : List BenchmarkTrial)

/-- A held-out trial of a route at a position that passed. -/
def PassedAt (route case : String) (condition : TrialCondition) (repetition : ℕ) : Prop :=
  ∃ trial ∈ trials, trial.phase = .holdout ∧ trial.routeId = route ∧ trial.caseId = case ∧
    trial.condition = condition ∧ trial.repetition = repetition ∧ trial.ok ∧
    trial.valid = some true

/-- What every report that passes says of the candidate. -/
structure Faultless : Prop where
  correct : ∀ trial ∈ trials, trial.routeId = plan.candidateId → trial.phase ≠ .setup →
    ¬ failed trial
  distinct : plan.expected.Nodup
  enough : minimumHoldoutCases ≤ plan.expected.length

structure FullyCovered : Prop where
  positions : ∀ case ∈ plan.expected, ∀ condition ∈ plan.suite.conditions,
    ∀ repetition < plan.suite.repetitions,
      PassedAt trials plan.candidateId case condition repetition
  variations : ∀ variation ∈ recipe.variations, ∃ case ∈ plan.suite.cases,
    case.split = .holdout ∧ case.variation = some variation

/-- As many trials passed as there are positions, and every case has one; the text of every
variation is in the id of a case. -/
structure Counted : Prop where
  cases : ∀ case ∈ plan.expected, ∃ condition repetition,
    PassedAt trials plan.candidateId case condition repetition
  passed : ∀ trial ∈ selected plan trials, trial.caseId ∈ plan.expected ∧ trial.ok ∧
    trial.valid = some true
  count : (selected plan trials).length =
    plan.expected.length * plan.suite.repetitions * plan.suite.conditions.length
  variations : ∀ variation ∈ recipe.variations, ∃ case ∈ plan.expected,
    ("-" ++ variation ++ "-").toList <:+: case.toList

end Coverage

section Qualified

variable {plan : AssessmentPlan} {recipe : RecipeDefinition} {trials : List BenchmarkTrial}

theorem mem_selected {trial : BenchmarkTrial} :
    trial ∈ selected plan trials ↔
      trial ∈ trials ∧ trial.routeId = plan.candidateId ∧ trial.phase = .holdout := by
  simp [selected]

theorem passed_iff {trial : BenchmarkTrial} : passed trial ↔ trial.ok ∧ trial.valid = some true := by
  simp [passed]

theorem expected_nodup (plan : AssessmentPlan) : plan.expected.Nodup :=
  plan.suite.cases_nodup.sublist (List.filter_sublist.map _)

theorem mem_expected {case : String} :
    case ∈ plan.expected ↔ ∃ c ∈ plan.suite.cases, c.split = .holdout ∧ c.caseId = case := by
  simp [AssessmentPlan.expected, and_assoc]

theorem holdout_of_expected {case : BenchmarkCase} (hcase : case ∈ plan.suite.cases)
    (h : case.caseId ∈ plan.expected) : case.split = .holdout := by
  obtain ⟨other, hother, hsplit, hid⟩ := mem_expected.mp h
  exact List.inj_on_of_nodup_map plan.suite.cases_nodup hother hcase hid ▸ hsplit

theorem Qualified.faultless (h : Qualified plan recipe trials) : Faultless plan trials where
  correct trial htrial hroute hphase hfailed := by
    have hnone := List.length_eq_zero_iff.mp h.correct
    rw [List.filter_eq_nil_iff] at hnone
    refine hnone trial htrial (decide_eq_true ⟨hroute, hphase, hfailed⟩)
  distinct := expected_nodup plan
  enough := by
    refine h.enough.trans (List.Nodup.subperm (nodup_eraseDups _) ?_).length_le
    exact h.within

theorem passedAt_of_selected (h : Qualified plan recipe trials) {trial : BenchmarkTrial}
    (htrial : trial ∈ selected plan trials) :
    PassedAt trials plan.candidateId trial.caseId trial.condition trial.repetition := by
  obtain ⟨hmem, hroute, hphase⟩ := mem_selected.mp htrial
  obtain ⟨hok, hvalid⟩ := passed_iff.mp (h.passed trial htrial)
  exact ⟨trial, hmem, hphase, hroute, rfl, rfl, rfl, hok, hvalid⟩

theorem Qualified.fullyCovered (h : Qualified plan recipe trials) (hcomparison : plan.comparison.isSome) :
    FullyCovered plan recipe trials where
  positions case hcase condition hcondition repetition hrepetition := by
    obtain ⟨trial, htrial, rfl, rfl, rfl⟩ := (h.positions hcomparison).2 case hcase condition hcondition
      repetition (List.mem_range.mpr hrepetition)
    exact passedAt_of_selected h htrial
  variations variation hvariation := by
    obtain ⟨case, hcase, hin, hcovers⟩ := h.variations variation hvariation
    rw [if_pos hcomparison] at hcovers
    exact ⟨case, hcase, holdout_of_expected hcase (h.within _ hin), hcovers⟩

theorem Qualified.counted (h : Qualified plan recipe trials) (hcomparison : plan.comparison = none) :
    Counted plan recipe trials where
  cases case hcase := by
    have hin := List.mem_eraseDups.mp (h.covers case hcase)
    obtain ⟨trial, htrial, rfl⟩ := List.mem_map.mp hin
    exact ⟨_, _, passedAt_of_selected h htrial⟩
  passed trial htrial := by
    have hin : trial.caseId ∈ cases plan trials :=
      List.mem_eraseDups.mpr (List.mem_map_of_mem htrial)
    exact ⟨h.within _ hin, passed_iff.mp (h.passed trial htrial)⟩
  count := h.complete
  variations variation hvariation := by
    obtain ⟨case, -, hin, hcovers⟩ := h.variations variation hvariation
    rw [if_neg (by simp [hcomparison])] at hcovers
    exact ⟨case.caseId, h.within _ hin, hcovers⟩

end Qualified

/-! ## Benefits -/

/-- Differences of enough distinct cases, each of two held-out trials at one position that count. -/
structure Supported (trials : List BenchmarkTrial) (counts : BenchmarkTrial → Prop)
    (candidate base : String) (differences : List (String × ℚ)) : Prop where
  enough : minimumPairedCases ≤ (differences.map (·.1)).eraseDups.length
  paired : ∀ difference ∈ differences, ∃ left ∈ trials, ∃ right ∈ trials,
    left.phase = .holdout ∧ right.phase = .holdout ∧ left.routeId = candidate ∧
      right.routeId = base ∧ left.caseId = difference.1 ∧ right.caseId = difference.1 ∧
      left.condition = right.condition ∧ left.repetition = right.repetition ∧ counts left ∧
      counts right

def Graded (trial : BenchmarkTrial) : Prop := passed trial ∨ trial.correctnessFailed = some true

section Benefit

variable (g : Generator) (plan : AssessmentPlan) (order : List (String × ℕ))
  (trials : List BenchmarkTrial)

/-- The wall time has a lower bound above zero. -/
def WallBenefit : Prop :=
  ∃ lower upper, (interval g plan (differences plan trials (·.wallTimeMs))).2 = some (lower, upper) ∧
    0 < lower ∧ Supported trials (fun trial => passed trial) plan.candidateId plan.baselineId
      (differences plan trials (·.wallTimeMs))

/-- A declared benefit has a lower bound at its threshold or better. -/
def DeclaredBenefit (condition : TrialCondition) (experiment : IncrementalExperiment) : Prop :=
  ∃ metric ∈ experiment.utility.benefitDimensions, ∃ lower upper,
    (pairedInterval g (aggregateOf metric) plan.templateFamily plan.suite.seed
      (alpha plan experiment)
      (gains condition trials order metric plan.candidateId plan.baselineId)).2 =
        some (lower, upper) ∧
    (if metric = "task_success" then experiment.utility.minimumSuccessGain
      else experiment.utility.minimumResourceBenefit) ≤ lower ∧
    Supported trials Graded plan.candidateId plan.baselineId
      (gains condition trials order metric plan.candidateId plan.baselineId)

/-- What a candidate that is useful has shown. -/
def BenefitShown : Prop :=
  match plan.comparison.bind fun comparison => comparison.experiment.map (comparison, ·) with
  | some (comparison, experiment) =>
    DeclaredBenefit g plan order trials comparison.primaryCondition experiment
  | none => WallBenefit g plan trials

variable {g plan order trials} {condition : TrialCondition} {experiment : IncrementalExperiment}

theorem enough_of_pairedInterval {f : Aggregate} {family : String → Option String} {seed : Int}
    {alpha : ℚ} {differences : List (String × ℚ)} {bounds : ℚ × ℚ}
    (h : (pairedInterval g f family seed alpha differences).2 = some bounds) :
    minimumPairedCases ≤ (differences.map (·.1)).eraseDups.length := by
  have hlength : (aggregates f differences).length = (differences.map (·.1)).eraseDups.length := by
    rw [aggregates, groups, List.length_map, List.length_map]
  rw [← hlength]
  by_contra hfew
  unfold pairedInterval at h
  dsimp only at h
  split at h
  · cases h
  · rw [if_pos (not_le.mp hfew)] at h
    cases h

theorem mem_differences {measure : BenchmarkTrial → Option ℚ} {difference : String × ℚ}
    (h : difference ∈ differences plan trials measure) :
    ∃ left ∈ trials, ∃ right ∈ trials, left.phase = .holdout ∧ right.phase = .holdout ∧
      left.routeId = plan.candidateId ∧ right.routeId = plan.baselineId ∧
      left.caseId = difference.1 ∧ right.caseId = difference.1 ∧ left.condition = right.condition ∧
      left.repetition = right.repetition ∧ passed left ∧ passed right := by
  obtain ⟨⟨case, left, right⟩, hpair, hsaved⟩ := List.mem_filterMap.mp h
  obtain ⟨hleft, hcomparable, hroute, rfl, -, hright⟩ := mem_paired hpair
  obtain ⟨hin, hposition⟩ := mem_of_lastAt hright
  obtain ⟨hmem, hcomparable'⟩ := List.mem_filter.mp hin
  have hcase : difference.1 = left.caseId := by
    obtain ⟨_, -, hmap⟩ := Option.bind_eq_some_iff.mp hsaved
    obtain ⟨_, -, rfl⟩ := Option.map_eq_some_iff.mp hmap
    rfl
  simp only [comparable, decide_eq_true_eq, Bool.decide_and, Bool.and_eq_true] at hcomparable hcomparable'
  refine ⟨left, hleft, right, hmem, hcomparable.1, hcomparable'.1, hroute,
    congrArg Position.routeId hposition, hcase.symm, ?_, ?_, ?_, hcomparable.2.1, hcomparable'.2.1⟩
  · exact (congrArg Position.caseId hposition).trans hcase.symm
  · exact (congrArg Position.condition hposition).symm
  · exact (congrArg Position.repetition hposition).symm

theorem graded_of_value {metric : String} {trial : BenchmarkTrial} {q : ℚ}
    (h : value metric trial = some q) : Graded trial := by
  unfold value at h
  unfold Graded
  by_contra hnot
  rw [not_or] at hnot
  split at h
  · rw [if_neg hnot.1, if_neg hnot.2] at h
    cases h
  · cases h

theorem mem_run {route : String} {at_ : String × ℕ} {trial : BenchmarkTrial}
    (h : run condition trials route at_ = some trial) :
    trial ∈ trials ∧ trial.phase = .holdout ∧ trial.routeId = route ∧ trial.caseId = at_.1 ∧
      trial.condition = condition ∧ trial.repetition = at_.2 := by
  obtain ⟨hin, hposition⟩ := mem_of_lastAt h
  obtain ⟨hmem, hassigned⟩ := List.mem_filter.mp hin
  simp only [assigned, decide_eq_true_eq] at hassigned
  exact ⟨hmem, hassigned.1, congrArg Position.routeId hposition,
    congrArg Position.caseId hposition, hassigned.2, congrArg Position.repetition hposition⟩

/-- A gain is of two trials at one position that passed or failed the task. -/
theorem mem_gains {metric candidate base : String} {difference : String × ℚ}
    (h : difference ∈ gains condition trials order metric candidate base) :
    ∃ left ∈ trials, ∃ right ∈ trials, left.phase = .holdout ∧ right.phase = .holdout ∧
      left.routeId = candidate ∧ right.routeId = base ∧ left.caseId = difference.1 ∧
      right.caseId = difference.1 ∧ left.condition = right.condition ∧
      left.repetition = right.repetition ∧ Graded left ∧ Graded right := by
  obtain ⟨at_, -, hgain⟩ := List.mem_filterMap.mp h
  obtain ⟨values, hvalues, hmap⟩ := Option.bind_eq_some_iff.mp hgain
  obtain ⟨_, -, rfl⟩ := Option.map_eq_some_iff.mp hmap
  obtain ⟨left, hleft, hvalues⟩ := Option.bind_eq_some_iff.mp hvalues
  obtain ⟨right, hright, hvalues⟩ := Option.bind_eq_some_iff.mp hvalues
  obtain ⟨_, hleftValue, hvalues⟩ := Option.bind_eq_some_iff.mp hvalues
  obtain ⟨_, hrightValue, -⟩ := Option.map_eq_some_iff.mp hvalues
  obtain ⟨hleftMem, hleftPhase, hleftRoute, hleftCase, hleftCondition, hleftRepetition⟩ := mem_run hleft
  obtain ⟨hmem, hphase, hroute, hcase, hcondition, hrepetition⟩ := mem_run hright
  exact ⟨left, hleftMem, right, hmem, hleftPhase, hphase, hleftRoute, hroute, hleftCase, hcase,
    hleftCondition.trans hcondition.symm, hleftRepetition.trans hrepetition.symm,
    graded_of_value hleftValue, graded_of_value hrightValue⟩

theorem exists_of_any {α : Type} {p : α → Bool} {o : Option α} (h : o.any p = true) :
    ∃ a, o = some a ∧ p a = true := by
  cases o with
  | none => cases h
  | some a => exact ⟨a, rfl, h⟩

theorem wallBenefit_shown (h : wallBenefit g plan trials = true) : WallBenefit g plan trials := by
  simp only [wallBenefit, Bool.and_eq_true] at h
  obtain ⟨⟨-, hlower⟩, -⟩ := h
  obtain ⟨bounds, hbounds, hpos⟩ := exists_of_any hlower
  rw [saving, reportedMeasure, if_pos rfl] at hbounds
  exact ⟨bounds.1, bounds.2, hbounds, of_decide_eq_true hpos, enough_of_pairedInterval hbounds,
    fun difference => mem_differences⟩

theorem declaredBenefit_shown
    (h : (incrementalUtility plan condition experiment trials g order).benefit = true) :
    DeclaredBenefit g plan order trials condition experiment := by
  simp only [incrementalUtility, compare, Bool.and_eq_true, List.any_eq_true] at h
  obtain ⟨⟨metric, hmetric, hreaches⟩, -⟩ := h
  obtain ⟨bounds, hbounds, hthreshold⟩ := exists_of_any hreaches
  exact ⟨metric, hmetric, bounds.1, bounds.2, hbounds, of_decide_eq_true hthreshold,
    enough_of_pairedInterval hbounds, fun difference => mem_gains⟩

theorem useful_shown {recipe : RecipeDefinition} (h : useful g plan recipe order trials = true) :
    BenefitShown g plan order trials := by
  unfold useful utilityEvidence at h
  unfold BenefitShown
  cases hcomparison : plan.comparison with
  | none =>
    simp only [hcomparison, Option.bind_none, Bool.and_eq_true] at h
    exact wallBenefit_shown h.2
  | some comparison =>
    cases hexperiment : comparison.experiment with
    | none =>
      simp only [hcomparison, hexperiment, Option.bind_some, Option.map_none, Bool.and_eq_true] at h
      simp only [Option.bind_some, hexperiment, Option.map_none]
      exact wallBenefit_shown h.2
    | some experiment =>
      simp only [hcomparison, hexperiment, Option.bind_some, Option.map_some, Bool.and_eq_true] at h
      simp only [Option.bind_some, hexperiment, Option.map_some]
      exact declaredBenefit_shown h.2.1.1.1

end Benefit

/-- What a report says when it passes, and when it finds the candidate useful. -/
theorem report_coverage (g : Generator) (plan : AssessmentPlan) (recipe : RecipeDefinition)
    (order : List (String × ℕ)) (trials : List BenchmarkTrial) :
    ((fitReport g plan recipe order trials).qualificationPassed = true →
        Faultless plan trials ∧ (plan.comparison.isSome → FullyCovered plan recipe trials) ∧
          (plan.comparison = none → Counted plan recipe trials)) ∧
      ((fitReport g plan recipe order trials).outcome = .usefulWithinScope →
        BenefitShown g plan order trials) := by
  constructor
  · intro h
    simp only [fitReport, Bool.and_eq_true, decide_eq_true_eq] at h
    exact ⟨h.2.faultless, h.2.fullyCovered, h.2.counted⟩
  · intro h
    simp only [fitReport] at h
    split at h
    · cases h
    · exact useful_shown (outcome_useful_iff.mp h)

/-! ## Trials at another repetition -/

section Counting

/-- A case id with a variation and a number of marks. -/
def plainCase (marks : ℕ) : String := "-plain-" ++ String.ofList (List.replicate marks 'x')

theorem plainCase_injective : Function.Injective plainCase := by
  intro a b h
  have hlist := congrArg String.toList h
  rw [plainCase, plainCase, String.toList_append, String.toList_append, List.append_cancel_left_eq,
    String.toList_ofList, String.toList_ofList] at hlist
  simpa using congrArg List.length hlist

def hundredCases : List String := (List.range 100).map plainCase

theorem hundredCases_nodup : hundredCases.Nodup := List.nodup_range.map plainCase_injective

def plainCases : List BenchmarkCase := hundredCases.map fun case => ⟨case, .holdout, none, none⟩

theorem plainCases_ids : plainCases.map (·.caseId) = hundredCases := by
  rw [plainCases, List.map_map]
  exact List.map_id hundredCases

def countedSuite : BenchmarkSuite where
  suiteId := "suite"
  seed := 7
  repetitions := 1
  routes := ["x", "y"]
  conditions := [.routerFresh]
  cases := plainCases
  sequentialStages := false
  stopOnScreeningFailure := false
  warmupCases := []
  pairedOrder := false
  repeated := exampleSuite.repeated
  routes_nodup := exampleSuite.routes_nodup
  cases_nodup := plainCases_ids ▸ hundredCases_nodup
  warmup_nodup := List.nodup_nil
  warmup_separate _ h := absurd h List.not_mem_nil
  staged_warmup := exampleSuite.staged_warmup

/-- A plan of an earlier version, without a comparison. -/
def countedPlan : AssessmentPlan where
  candidateId := "x"
  baselineId := "y"
  referenceId := none
  suite := countedSuite
  comparison := none
  pilot := false

/-- A trial of the second repetition, of which the plan has one. -/
def misplacedTrial (case : String) : BenchmarkTrial :=
  { exampleTrial "x" case 10 with
    repetition := 1 }

def misplacedTrials : List BenchmarkTrial := hundredCases.map misplacedTrial

theorem expected_counted : countedPlan.expected = hundredCases := by
  have hall : plainCases.filter (·.split = .holdout) = plainCases := by
    rw [List.filter_eq_self]
    intro case hcase
    obtain ⟨id, -, rfl⟩ := List.mem_map.mp hcase
    rfl
  exact (congrArg (List.map (·.caseId)) hall).trans plainCases_ids

theorem selected_misplaced : selected countedPlan misplacedTrials = misplacedTrials := by
  refine List.filter_eq_self.mpr fun trial htrial => ?_
  obtain ⟨case, -, rfl⟩ := List.mem_map.mp htrial
  rfl

theorem mem_cases_misplaced {case : String} :
    case ∈ cases countedPlan misplacedTrials ↔ case ∈ hundredCases := by
  have hids : misplacedTrials.map (·.caseId) = hundredCases := by
    rw [misplacedTrials, List.map_map]
    exact List.map_id hundredCases
  rw [cases, List.mem_eraseDups, selected_misplaced, hids]

theorem misplaced_qualified : Qualified countedPlan ⟨["plain"]⟩ misplacedTrials where
  correct := by
    refine List.length_eq_zero_iff.mpr (List.filter_eq_nil_iff.mpr fun trial htrial => ?_)
    obtain ⟨case, -, rfl⟩ := List.mem_map.mp htrial
    simp [failed, misplacedTrial, exampleTrial]
  enough := by
    have hsub : hundredCases ⊆ cases countedPlan misplacedTrials := fun case =>
      mem_cases_misplaced.mpr
    have hlength := (hundredCases_nodup.subperm hsub).length_le
    rwa [hundredCases, List.length_map, List.length_range] at hlength
  within case hcase := expected_counted ▸ mem_cases_misplaced.mp hcase
  covers case hcase := mem_cases_misplaced.mpr (expected_counted ▸ hcase)
  complete := by
    rw [selected_misplaced, expected_counted, misplacedTrials, List.length_map]
    rfl
  positions h := nomatch h
  passed trial htrial := by
    rw [selected_misplaced] at htrial
    obtain ⟨case, -, rfl⟩ := List.mem_map.mp htrial
    rfl
  variations variation h := by
    have hfirst : plainCase 0 ∈ hundredCases := List.mem_map_of_mem (List.mem_range.mpr (by decide))
    rw [List.mem_singleton.mp h]
    refine ⟨_, List.mem_map_of_mem hfirst, mem_cases_misplaced.mpr hfirst, ?_⟩
    rw [if_neg (by decide)]
    exact ⟨[], List.replicate 0 'x', by rw [plainCase, String.toList_append, String.toList_ofList]; rfl⟩
  models comparison h := nomatch h

/-- A report passes although no position has a trial. -/
theorem report_coverage_fails :
    (fitReport .first countedPlan ⟨["plain"]⟩ countedPlan.positions misplacedTrials).qualificationPassed
        = true ∧
      ¬ FullyCovered countedPlan ⟨["plain"]⟩ misplacedTrials := by
  refine ⟨?_, fun h => ?_⟩
  · have hpilot : countedPlan.pilot = false := rfl
    simp only [fitReport, hpilot, Bool.not_false, Bool.true_and, decide_eq_true_eq]
    exact misplaced_qualified
  have hcase : plainCase 0 ∈ countedPlan.expected :=
    expected_counted ▸ List.mem_map_of_mem (List.mem_range.mpr (by decide))
  obtain ⟨trial, htrial, -, -, -, -, hrepetition, -⟩ :=
    h.positions _ hcase .routerFresh List.mem_cons_self 0 Nat.zero_lt_one
  obtain ⟨case, -, rfl⟩ := List.mem_map.mp htrial
  cases hrepetition

end Counting

/-! ## A candidate that saves in every case -/

section Useful

def comparedCases : List BenchmarkCase :=
  hundredCases.map fun case => ⟨case, .holdout, some "plain", some "family"⟩

theorem comparedCases_ids : comparedCases.map (·.caseId) = hundredCases := by
  rw [comparedCases, List.map_map]
  exact List.map_id hundredCases

theorem comparedCases_nodup : (comparedCases.map (·.caseId)).Nodup :=
  comparedCases_ids ▸ hundredCases_nodup

def comparedSuite : BenchmarkSuite :=
  { countedSuite with
    cases := comparedCases
    cases_nodup := comparedCases_nodup
    warmup_separate := fun _ h => absurd h List.not_mem_nil }

def comparedPlan : AssessmentPlan where
  candidateId := "x"
  baselineId := "y"
  referenceId := none
  suite := comparedSuite
  comparison := some ⟨.direct, false, .routerFresh, none⟩
  pilot := false

/-- The candidate saves 20 ms in each case. -/
def comparedTrials : List BenchmarkTrial :=
  hundredCases.flatMap fun case => [exampleTrial "x" case 10, exampleTrial "y" case 30]

theorem mem_compared {trial : BenchmarkTrial} : trial ∈ comparedTrials ↔
    ∃ case ∈ hundredCases, trial = exampleTrial "x" case 10 ∨ trial = exampleTrial "y" case 30 := by
  simp [comparedTrials]

theorem expected_compared : comparedPlan.expected = hundredCases := by
  have hall : comparedCases.filter (·.split = .holdout) = comparedCases := by
    rw [List.filter_eq_self]
    intro case hcase
    obtain ⟨id, -, rfl⟩ := List.mem_map.mp hcase
    rfl
  exact (congrArg (List.map (·.caseId)) hall).trans comparedCases_ids

theorem selected_compared :
    selected comparedPlan comparedTrials = hundredCases.map (exampleTrial "x" · 10) := by
  unfold selected comparedTrials
  rw [List.filter_flatMap, List.map_eq_flatMap]
  rfl

theorem mem_cases_compared {case : String} :
    case ∈ cases comparedPlan comparedTrials ↔ case ∈ hundredCases := by
  rw [cases, List.mem_eraseDups, selected_compared, List.map_map]
  exact Iff.of_eq (congrArg (case ∈ ·) (List.map_id hundredCases))

theorem models_compared : ModelsMatch comparedPlan comparedTrials := by
  intro comparison hcomparison hagents
  obtain rfl := Option.some.inj hcomparison
  rcases hagents with h | h
  · cases h
  · cases h

theorem compared_qualified : Qualified comparedPlan ⟨["plain"]⟩ comparedTrials where
  correct := by
    refine List.length_eq_zero_iff.mpr (List.filter_eq_nil_iff.mpr fun trial htrial => ?_)
    obtain ⟨case, -, rfl | rfl⟩ := mem_compared.mp htrial
    · simp [failed, exampleTrial]
    · simp [failed, exampleTrial]
  enough := by
    have hsub : hundredCases ⊆ cases comparedPlan comparedTrials := fun case =>
      mem_cases_compared.mpr
    have hlength := (hundredCases_nodup.subperm hsub).length_le
    rwa [hundredCases, List.length_map, List.length_range] at hlength
  within case hcase := expected_compared ▸ mem_cases_compared.mp hcase
  covers case hcase := mem_cases_compared.mpr (expected_compared ▸ hcase)
  complete := by
    rw [selected_compared, expected_compared, List.length_map]
    rfl
  positions _ := by
    constructor
    · intro trial htrial
      rw [selected_compared] at htrial
      obtain ⟨case, hcase, rfl⟩ := List.mem_map.mp htrial
      exact ⟨expected_compared ▸ hcase, List.mem_cons_self, Nat.zero_lt_one⟩
    · intro case hcase condition hcondition repetition hrepetition
      rw [selected_compared]
      refine ⟨_, List.mem_map_of_mem (expected_compared ▸ hcase), rfl,
        (List.mem_singleton.mp hcondition).symm, ?_⟩
      exact (Nat.lt_one_iff.mp (List.mem_range.mp hrepetition)).symm
  passed trial htrial := by
    rw [selected_compared] at htrial
    obtain ⟨case, -, rfl⟩ := List.mem_map.mp htrial
    rfl
  variations variation h := by
    have hfirst : plainCase 0 ∈ hundredCases := List.mem_map_of_mem (List.mem_range.mpr (by decide))
    rw [List.mem_singleton.mp h]
    exact ⟨_, List.mem_map_of_mem hfirst, mem_cases_compared.mpr hfirst, rfl⟩
  models := models_compared

theorem compared_comparable {trial : BenchmarkTrial} (h : trial ∈ comparedTrials) :
    comparable comparedPlan comparedTrials trial = true := by
  refine decide_eq_true ?_
  obtain ⟨case, -, rfl | rfl⟩ := mem_compared.mp h
  · refine ⟨rfl, rfl, List.mem_cons_self, models_compared, fun condition hcondition => ?_⟩
    exact Option.some.inj hcondition
  · refine ⟨rfl, rfl, List.mem_cons_of_mem _ List.mem_cons_self, models_compared,
      fun condition hcondition => ?_⟩
    exact Option.some.inj hcondition

theorem compared_positioned : Positioned comparedTrials := by
  have hmap : (comparedTrials.map position) = hundredCases.flatMap fun case =>
      [⟨"x", case, .routerFresh, 0⟩, ⟨"y", case, .routerFresh, 0⟩] := List.map_flatMap
  refine (List.filter_sublist.map position).nodup ?_
  rw [hmap, List.nodup_flatMap]
  refine ⟨fun case _ => by simp, hundredCases_nodup.imp fun hne => ?_⟩
  intro at_ hleft hright
  simp only [List.mem_cons, List.not_mem_nil, or_false] at hleft hright
  rcases hleft with rfl | rfl <;> rcases hright with h | h <;> simp_all

/-- The differences of the campaign: 20 ms in each of its cases. -/
theorem mem_differences_compared {difference : String × ℚ} :
    difference ∈ differences comparedPlan comparedTrials (·.wallTimeMs) ↔
      difference.1 ∈ hundredCases ∧ difference.2 = 20 := by
  have hcomparable : ∀ trial, comparable comparedPlan comparedTrials trial → trial.phase = .holdout := by
    intro trial h
    simp only [comparable, decide_eq_true_eq] at h
    exact h.1
  constructor
  · intro h
    obtain ⟨⟨case, left, right⟩, hpair, hsaved⟩ := List.mem_filterMap.mp h
    obtain ⟨hleft, -, hroute, rfl, -, hright⟩ := mem_paired hpair
    obtain ⟨hin, hposition⟩ := mem_of_lastAt hright
    have hroute' : right.routeId = "y" := congrArg Position.routeId hposition
    obtain ⟨first, hfirst, rfl | rfl⟩ := mem_compared.mp hleft
    · obtain ⟨second, -, rfl | rfl⟩ := mem_compared.mp (List.mem_of_mem_filter hin)
      · exact absurd hroute' (by simp [exampleTrial])
      · obtain rfl : (first, (30 : ℚ) - 10) = difference := Option.some.inj hsaved
        exact ⟨hfirst, by norm_num⟩
    · exact absurd hroute (by simp [exampleTrial, comparedPlan])
  · rintro ⟨hcase, hsaved⟩
    obtain ⟨case, saved⟩ := difference
    obtain rfl : saved = 20 := hsaved
    have hleft := mem_compared.mpr ⟨case, hcase, .inl rfl⟩
    have hright := mem_compared.mpr ⟨case, hcase, .inr rfl⟩
    refine List.mem_filterMap.mpr ⟨(case, exampleTrial "x" case 10, exampleTrial "y" case 30), ?_, ?_⟩
    · refine List.mem_filterMap.mpr ⟨position (exampleTrial "x" case 10), ?_, ?_⟩
      · exact List.mem_eraseDups.mpr (List.mem_map.mpr
          ⟨_, List.mem_filter.mpr ⟨hleft, compared_comparable hleft⟩, rfl⟩)
      · have hfirst := runAt_self compared_positioned hcomparable hleft (compared_comparable hleft)
        have hsecond := runAt_self compared_positioned hcomparable hright (compared_comparable hright)
        rw [if_neg (by decide), hfirst]
        exact congrArg (Option.map _) hsecond
    · show some (case, (30 : ℚ) - 10) = some (case, 20)
      norm_num

theorem compared_enough : minimumPairedCases ≤
    ((differences comparedPlan comparedTrials (·.wallTimeMs)).map (·.1)).eraseDups.length := by
  have hsub : hundredCases ⊆
      ((differences comparedPlan comparedTrials (·.wallTimeMs)).map (·.1)).eraseDups := fun case hcase =>
    List.mem_eraseDups.mpr (List.mem_map.mpr
      ⟨(case, 20), mem_differences_compared.mpr ⟨hcase, rfl⟩, rfl⟩)
  have hlength := (hundredCases_nodup.subperm hsub).length_le
  rw [hundredCases, List.length_map, List.length_range] at hlength
  exact le_trans (by decide) hlength

theorem compared_resampled : Resampled .median comparedPlan.family
    (differences comparedPlan comparedTrials (·.wallTimeMs)) where
  enough := by
    rw [aggregates, groups, List.length_map, List.length_map]
    exact compared_enough
  known case hcase := by
    obtain ⟨group, hgroup, rfl⟩ := List.mem_map.mp hcase
    obtain ⟨key, hkey, rfl⟩ := List.mem_map.mp hgroup
    obtain ⟨difference, hdifference, rfl⟩ := List.mem_map.mp (List.mem_eraseDups.mp hkey)
    have hmem := (mem_differences_compared.mp hdifference).1
    obtain ⟨found, hfound⟩ : ∃ found, comparedCases.find? (·.caseId = difference.1) = some found := by
      refine Option.isSome_iff_exists.mp (List.find?_isSome.mpr ?_)
      exact ⟨_, List.mem_map_of_mem hmem, decide_eq_true rfl⟩
    obtain ⟨id, -, rfl⟩ := List.mem_map.mp (List.mem_of_find?_eq_some hfound)
    show (comparedCases.find? (·.caseId = difference.1)).bind (·.templateFamily) ≠ none
    rw [hfound]
    exact Option.some_ne_none _

theorem compared_saving (g : Generator) :
    ∃ bounds, (saving g comparedPlan comparedTrials "wall_time_ms").2 = some bounds ∧
      0 < bounds.1 := by
  obtain ⟨bounds, hbounds⟩ : ∃ bounds, (pairedInterval g .median comparedPlan.family
      comparedPlan.suite.seed (1 / 20)
      (differences comparedPlan comparedTrials (·.wallTimeMs))).2 = some bounds := by
    rw [pairedInterval_eq compared_resampled]
    exact ⟨_, rfl⟩
  have hmeasure : reportedMeasure comparedTrials "wall_time_ms" = (·.wallTimeMs) := if_pos rfl
  refine ⟨bounds, ?_, ?_⟩
  · unfold saving interval
    rw [hmeasure]
    exact hbounds
  have hall : ∀ case ∈ aggregates (Aggregate.median : List ℚ → ℚ)
      (differences comparedPlan comparedTrials (·.wallTimeMs)), case.2 ∈ ({20} : Set ℚ) :=
    Aggregate.median.mem_aggregates Set.ordConnected_singleton fun _ h =>
      (mem_differences_compared.mp h).2
  have hlower := (pairedInterval_mem Set.ordConnected_singleton (by norm_num) hall hbounds).1
  rw [Set.mem_singleton_iff.mp hlower]
  norm_num

theorem compared_wallBenefit (g : Generator) : wallBenefit g comparedPlan comparedTrials = true := by
  obtain ⟨⟨lower, upper⟩, hbounds, hlower⟩ := compared_saving g
  have henough : minimumPairedCases ≤
      (groups (differences comparedPlan comparedTrials (·.wallTimeMs))).length := by
    rw [groups, List.length_map]
    exact compared_enough
  have hreference : referencePreferred g comparedPlan comparedTrials = false := rfl
  have hpositive : decide (0 < lower) = true := decide_eq_true hlower
  unfold wallBenefit
  rw [decide_eq_true henough, hbounds, hreference, Option.any_some]
  show (true && decide (0 < lower) && !false) = true
  rw [hpositive]
  rfl

theorem compared_useful (g : Generator) (order : List (String × ℕ)) :
    useful g comparedPlan ⟨["plain"]⟩ order comparedTrials = true := by
  have hevidence : utilityEvidence g comparedPlan order comparedTrials = none := rfl
  unfold useful
  rw [hevidence, decide_eq_true compared_qualified, Bool.true_and]
  exact compared_wallBenefit g

/-- The candidate passes at every position and is found useful. -/
theorem report_coverage_useful :
    (fitReport .first comparedPlan ⟨["plain"]⟩ comparedPlan.positions comparedTrials).outcome =
        .usefulWithinScope ∧
      FullyCovered comparedPlan ⟨["plain"]⟩ comparedTrials ∧
      BenefitShown .first comparedPlan comparedPlan.positions comparedTrials := by
  have hpilot : comparedPlan.pilot = false := rfl
  have hpassed : (fitReport .first comparedPlan ⟨["plain"]⟩ comparedPlan.positions
      comparedTrials).qualificationPassed = true := by
    simp only [fitReport, hpilot, Bool.not_false, Bool.true_and, decide_eq_true_eq]
    exact compared_qualified
  have houtcome : (fitReport .first comparedPlan ⟨["plain"]⟩ comparedPlan.positions
      comparedTrials).outcome = .usefulWithinScope := by
    simp only [fitReport, hpilot, Bool.false_eq_true, if_false]
    exact outcome_useful_iff.mpr (compared_useful _ _)
  obtain ⟨hcovered, hbenefit⟩ := report_coverage .first comparedPlan ⟨["plain"]⟩
    comparedPlan.positions comparedTrials
  exact ⟨houtcome, (hcovered hpassed).2.1 rfl, hbenefit houtcome⟩

end Useful

end AeepRouter.Reporting

import AeepRouter.Assessment.Reporting

/-!
# The order of the trials

What a report says of the same trials in two orders differs when an interval is resampled from cases
that do not all agree.
-/

namespace AeepRouter.Reporting

open Lib Benchmark

/-! ## Intervals -/

section Intervals

/-- Whether an interval is the same in any order: it is not resampled, or its cases all agree. -/
def Steady (f : Aggregate) (family : String → Option String) (differences : List (String × ℚ)) :
    Prop :=
  (aggregates f differences).length < minimumPairedCases ∨
    (∃ case ∈ aggregates f differences, family case.1 = none) ∨
    ∀ case ∈ aggregates f differences, ∀ other ∈ aggregates f differences, case.2 = other.2

instance (f : Aggregate) (family : String → Option String) (differences : List (String × ℚ)) :
    Decidable (Steady f family differences) := by
  unfold Steady
  infer_instance

/-- Whether differences have an interval. -/
structure Resampled (f : Aggregate) (family : String → Option String)
    (differences : List (String × ℚ)) : Prop where
  enough : minimumPairedCases ≤ (aggregates f differences).length
  known : ∀ case ∈ aggregates f differences, family case.1 ≠ none

theorem lowerIndex_lt {alpha : ℚ} (h : alpha ≤ 1) : lowerIndex alpha < resampleCount := by
  have hfloor : ⌊(resampleCount : ℚ) * alpha / 2⌋ ≤ 1000 := by
    refine Int.floor_le_iff.mpr ?_
    have hcount : (resampleCount : ℚ) = 2000 := rfl
    rw [hcount]
    push_cast
    linarith
  have : resampleCount = 2000 := rfl
  unfold lowerIndex
  omega

theorem upperIndex_lt (alpha : ℚ) : upperIndex alpha < resampleCount := by
  have : resampleCount = 2000 := rfl
  unfold upperIndex
  omega

theorem groups_length (f : Aggregate) (differences : List (String × ℚ)) :
    (groups differences).length = (aggregates f differences).length := by
  rw [aggregates, List.length_map]

variable {g : Generator} {f : Aggregate} {family : String → Option String} {seed : Int} {alpha : ℚ}
  {differences differences' : List (String × ℚ)}

theorem steady_or (h : ¬ Resampled f family differences) : Steady f family differences := by
  by_cases hlength : (aggregates f differences).length < minimumPairedCases
  · exact .inl hlength
  refine .inr (.inl ?_)
  by_contra hknown
  exact h ⟨not_lt.mp hlength, fun case hcase hnone => hknown ⟨case, hcase, hnone⟩⟩

theorem Resampled.agree (h : Resampled f family differences) (hs : Steady f family differences) :
    ∀ case ∈ aggregates f differences, ∀ other ∈ aggregates f differences, case.2 = other.2 := by
  rcases hs with hlength | ⟨case, hcase, hnone⟩ | hagree
  · exact absurd h.enough (not_le.mpr hlength)
  · exact absurd hnone (h.known case hcase)
  · exact hagree

theorem Resampled.ne_nil (h : Resampled f family differences) : aggregates f differences ≠ [] := by
  intro hnil
  have := h.enough
  rw [hnil] at this
  exact absurd this (by decide)

theorem Resampled.perm (h : differences.Perm differences') :
    Resampled f family differences ↔ Resampled f family differences' := by
  have hcases := aggregates_perm (f := f) (fun _ _ => f.perm) h
  constructor
  · rintro ⟨henough, hknown⟩
    exact ⟨hcases.length_eq ▸ henough, fun case hcase => hknown case (hcases.mem_iff.mpr hcase)⟩
  · rintro ⟨henough, hknown⟩
    exact ⟨hcases.length_eq ▸ henough, fun case hcase => hknown case (hcases.mem_iff.mp hcase)⟩

theorem mem_familyMembers (h : Resampled f family differences) {case : String × ℚ}
    (hcase : case ∈ aggregates f differences) :
    ∃ group, family case.1 = some group ∧ (group, case.2) ∈ familyMembers f family differences := by
  obtain ⟨group, hgroup⟩ := Option.ne_none_iff_exists'.mp (h.known case hcase)
  refine ⟨group, hgroup, List.mem_filterMap.mpr ⟨case, hcase, ?_⟩⟩
  exact (congrArg (Option.map (·, case.2)) hgroup).trans rfl

theorem of_mem_familyMembers {member : String × ℚ}
    (h : member ∈ familyMembers f family differences) :
    ∃ case ∈ aggregates f differences, case.2 = member.2 := by
  obtain ⟨case, hcase, hmember⟩ := List.mem_filterMap.mp h
  obtain ⟨_, _, rfl⟩ := Option.map_eq_some_iff.mp hmember
  exact ⟨case, hcase, rfl⟩

theorem pairedInterval_eq (h : Resampled f family differences) :
    pairedInterval g f family seed alpha differences =
      (some (f ((aggregates f differences).map (·.2))),
        some ((g.resamples f ((groups (familyMembers f family differences)).map (·.2))
            resampleCount seed).getD (lowerIndex alpha) 0,
          (g.resamples f ((groups (familyMembers f family differences)).map (·.2))
            resampleCount seed).getD (upperIndex alpha) 0)) := by
  unfold pairedInterval
  dsimp only
  rw [if_neg ?_, if_neg h.ne_nil, if_neg (not_lt.mpr h.enough)]
  rw [Bool.not_eq_true, List.any_eq_false]
  exact fun case hcase hnone => h.known case hcase (of_decide_eq_true hnone)

theorem pairedInterval_none (h : ¬ Resampled f family differences) :
    (pairedInterval g f family seed alpha differences).2 = none := by
  unfold pairedInterval
  dsimp only
  split
  next => rfl
  next hany =>
    split
    next => rfl
    next hlength =>
      refine absurd ⟨not_lt.mp hlength, fun case hcase hnone => hany ?_⟩ h
      exact List.any_eq_true.mpr ⟨case, hcase, decide_eq_true hnone⟩

theorem pairedInterval_mem {S : Set ℚ} (hS : S.OrdConnected) (halpha : alpha ≤ 1)
    (hall : ∀ case ∈ aggregates f differences, case.2 ∈ S) {bounds : ℚ × ℚ}
    (h : (pairedInterval g f family seed alpha differences).2 = some bounds) :
    bounds.1 ∈ S ∧ bounds.2 ∈ S := by
  have hr : Resampled f family differences := by
    by_contra hr
    rw [pairedInterval_none hr] at h
    cases h
  rw [pairedInterval_eq hr, Option.some_inj] at h
  obtain ⟨case, hcase⟩ := List.exists_mem_of_ne_nil _ hr.ne_nil
  obtain ⟨group, -, hmember⟩ := mem_familyMembers hr hcase
  have hgroups : ∀ values ∈ (groups (familyMembers f family differences)).map (·.2),
      values ≠ [] ∧ ∀ x ∈ values, x ∈ S := by
    intro values hvalues
    obtain ⟨_, hgroup, rfl⟩ := List.mem_map.mp hvalues
    obtain ⟨hne, hin⟩ := of_mem_groups hgroup
    refine ⟨hne, fun x hx => ?_⟩
    obtain ⟨other, hother, heq⟩ := of_mem_familyMembers (hin x hx)
    have hx : other.2 = x := heq
    exact hx ▸ hall other hother
  have hne : (groups (familyMembers f family differences)).map (·.2) ≠ [] := by
    refine List.ne_nil_of_mem (List.mem_map_of_mem (List.mem_map.mpr ⟨group, ?_, rfl⟩))
    exact List.mem_eraseDups.mpr (List.mem_map.mpr ⟨_, hmember, rfl⟩)
  obtain ⟨hlength, hmem⟩ := Generator.resamples_of_mem (g := g) (f := f) hS hne
    (fun values h => (hgroups values h).1) (fun values h => (hgroups values h).2) resampleCount seed
  rw [← h]
  generalize g.resamples f _ resampleCount seed = estimates at hlength hmem ⊢
  have hlower : lowerIndex alpha < estimates.length := hlength ▸ lowerIndex_lt halpha
  have hupper : upperIndex alpha < estimates.length := hlength ▸ upperIndex_lt alpha
  exact ⟨hmem _ (getD_mem hlower), hmem _ (getD_mem hupper)⟩

theorem pairedInterval_perm (h : differences.Perm differences') (halpha : alpha ≤ 1)
    (hs : Steady f family differences) :
    pairedInterval g f family seed alpha differences =
      pairedInterval g f family seed alpha differences' := by
  have hcases := aggregates_perm (f := f) (fun _ _ => f.perm) h
  have hsavings := f.perm (hcases.map (·.2))
  by_cases hr : Resampled f family differences
  · have hr' := (Resampled.perm h).mp hr
    obtain ⟨case, hcase⟩ := List.exists_mem_of_ne_nil _ hr.ne_nil
    have hall : ∀ other ∈ aggregates f differences, other.2 ∈ ({case.2} : Set ℚ) :=
      fun other hother => (hr.agree hs case hcase other hother).symm
    have hall' : ∀ other ∈ aggregates f differences', other.2 ∈ ({case.2} : Set ℚ) :=
      fun other hother => hall other (hcases.mem_iff.mpr hother)
    have heq : (pairedInterval g f family seed alpha differences).2 = _ :=
      congrArg Prod.snd (pairedInterval_eq hr)
    have heq' : (pairedInterval g f family seed alpha differences').2 = _ :=
      congrArg Prod.snd (pairedInterval_eq hr')
    have hbounds := pairedInterval_mem Set.ordConnected_singleton halpha hall heq
    have hbounds' := pairedInterval_mem Set.ordConnected_singleton halpha hall' heq'
    rw [pairedInterval_eq hr, pairedInterval_eq hr', hsavings]
    refine Prod.ext rfl (congrArg some (Prod.ext ?_ ?_))
    · exact hbounds.1.trans hbounds'.1.symm
    · exact hbounds.2.trans hbounds'.2.symm
  · have hr' := (not_congr (Resampled.perm h)).mp hr
    refine Prod.ext ?_ ((pairedInterval_none hr).trans (pairedInterval_none hr').symm)
    have hnil : aggregates f differences = [] ↔ aggregates f differences' = [] := by
      rw [← List.length_eq_zero_iff, hcases.length_eq, List.length_eq_zero_iff]
    unfold pairedInterval
    dsimp only
    rw [List.Perm.any_eq hcases, hsavings, hcases.length_eq, if_congr hnil rfl rfl]
    split <;> [rfl; split <;> rfl]

theorem pairedInterval_first {case : String} {x : ℚ} (halpha : alpha ≤ 1)
    (hr : Resampled f family ((case, x) :: differences)) :
    (pairedInterval .first f family seed alpha ((case, x) :: differences)).2 =
      some (f (valuesOf case ((case, x) :: differences)),
        f (valuesOf case ((case, x) :: differences))) := by
  set value := f (valuesOf case ((case, x) :: differences)) with hvalue
  -- the first case, its family, and the first value of that
  obtain ⟨rest, hcases⟩ : ∃ rest, aggregates f ((case, x) :: differences) = (case, value) :: rest := by
    unfold aggregates groups
    rw [List.map_cons, List.eraseDups_cons]
    exact ⟨_, rfl⟩
  obtain ⟨family', hfamily⟩ := Option.ne_none_iff_exists'.mp (hr.known (case, value)
    (by rw [hcases]; exact List.mem_cons_self))
  obtain ⟨members, hmembers⟩ : ∃ members,
      familyMembers f family ((case, x) :: differences) = (family', value) :: members := by
    unfold familyMembers
    rw [hcases, List.filterMap_cons_some (b := (family', value))]
    · exact ⟨_, rfl⟩
    · exact (congrArg (Option.map (·, value)) hfamily).trans rfl
  obtain ⟨values, gs, hgroups⟩ : ∃ values gs,
      (groups (familyMembers f family ((case, x) :: differences))).map (·.2) =
        (value :: values) :: gs := by
    unfold groups
    rw [hmembers, List.map_cons, List.eraseDups_cons, List.map_cons, List.map_cons]
    refine ⟨valuesOf family' members, _, congrArg (· :: _) ?_⟩
    simp [valuesOf]
  rw [pairedInterval_eq hr, hgroups]
  obtain ⟨hlength, hall⟩ :
      (Generator.first.resamples f ((value :: values) :: gs) resampleCount seed).length =
          resampleCount ∧
        ∀ x ∈ Generator.first.resamples f ((value :: values) :: gs) resampleCount seed, x = value :=
    Generator.resamples_first resampleCount seed
  generalize Generator.first.resamples f _ resampleCount seed = estimates at hlength hall ⊢
  have hlower : lowerIndex alpha < estimates.length := hlength ▸ lowerIndex_lt halpha
  have hupper : upperIndex alpha < estimates.length := hlength ▸ upperIndex_lt alpha
  rw [hall _ (getD_mem hlower), hall _ (getD_mem hupper)]

end Intervals

/-! ## Trials in another order -/

/-- No two held-out trials stand at one position. -/
def Positioned (trials : List BenchmarkTrial) : Prop :=
  ((trials.filter (·.phase = .holdout)).map position).Nodup

instance (trials : List BenchmarkTrial) : Decidable (Positioned trials) := by
  unfold Positioned
  infer_instance

section Trials

variable {plan : AssessmentPlan} {recipe : RecipeDefinition} {trials trials' : List BenchmarkTrial}
  {keep : BenchmarkTrial → Bool}

theorem nodup_of_held (hpos : Positioned trials) (hkeep : ∀ trial, keep trial → trial.phase = .holdout) :
    ((trials.filter keep).map position).Nodup := by
  refine List.Nodup.sublist (List.Sublist.map position ?_) hpos
  have hfilter : trials.filter keep = (trials.filter (·.phase = .holdout)).filter keep := by
    rw [List.filter_filter]
    refine List.filter_congr fun trial _ => ?_
    cases hk : keep trial
    · rfl
    · simp [hkeep trial hk]
  rw [hfilter]
  exact List.filter_sublist

theorem runAt_perm (h : trials.Perm trials') (hpos : Positioned trials)
    (hkeep : ∀ trial, keep trial → trial.phase = .holdout) (at_ : Position) :
    runAt trials keep at_ = runAt trials' keep at_ :=
  lastAt_perm (h.filter keep) (nodup_of_held hpos hkeep)

theorem runAt_self (hpos : Positioned trials) (hkeep : ∀ trial, keep trial → trial.phase = .holdout)
    {trial : BenchmarkTrial} (hmem : trial ∈ trials) (hk : keep trial) :
    runAt trials keep (position trial) = some trial := by
  have hfilter : trial ∈ trials.filter keep := List.mem_filter.mpr ⟨hmem, hk⟩
  obtain ⟨found, hfound⟩ : ∃ found, runAt trials keep (position trial) = some found :=
    exists_lastAt hfilter
  obtain ⟨hin, hat⟩ := mem_of_lastAt hfound
  rw [hfound, List.inj_on_of_nodup_map (nodup_of_held hpos hkeep) hin hfilter hat]

theorem positioned_perm (h : trials.Perm trials') (hpos : Positioned trials) : Positioned trials' :=
  ((h.filter _).map position).nodup_iff.mp hpos

theorem selected_perm (plan : AssessmentPlan) (h : trials.Perm trials') :
    (selected plan trials).Perm (selected plan trials') := h.filter _

theorem cases_perm (plan : AssessmentPlan) (h : trials.Perm trials') :
    (cases plan trials).Perm (cases plan trials') :=
  eraseDups_perm ((selected_perm plan h).map _)

theorem failures_perm (h : trials.Perm trials') : failures plan trials = failures plan trials' :=
  (h.filter _).length_eq

theorem OneModel.perm {runs runs' : List BenchmarkTrial} (h : runs.Perm runs') (hone : OneModel runs) :
    OneModel runs' := by
  refine ⟨fun trial htrial => hone.1 trial (h.mem_iff.mpr htrial), ?_⟩
  rw [← hone.2]
  exact (eraseDups_perm (h.symm.flatMap_right _)).length_eq

theorem ModelsMatch.perm (h : trials.Perm trials') (hmatch : ModelsMatch plan trials) :
    ModelsMatch plan trials' := by
  intro comparison hcomparison hmanaged
  obtain ⟨hboth, hall⟩ := hmatch comparison hcomparison hmanaged
  exact ⟨hboth.perm (h.filter _),
    fun experiment hexperiment hi => (hall experiment hexperiment hi).perm (h.filter _)⟩

theorem CompletePositions.perm (h : trials.Perm trials') (hc : CompletePositions plan trials) :
    CompletePositions plan trials' := by
  have hselected := selected_perm plan h
  refine ⟨fun trial htrial => hc.1 trial (hselected.mem_iff.mpr htrial), ?_⟩
  intro case hcase condition hcondition repetition hrepetition
  obtain ⟨trial, htrial, hat⟩ := hc.2 case hcase condition hcondition repetition hrepetition
  exact ⟨trial, hselected.mem_iff.mp htrial, hat⟩

theorem Qualified.perm (h : trials.Perm trials') (hq : Qualified plan recipe trials) :
    Qualified plan recipe trials' := by
  have hselected := selected_perm plan h
  have hcases := cases_perm plan h
  refine ⟨failures_perm h ▸ hq.correct, hcases.length_eq ▸ hq.enough,
    fun case hcase => hq.within case (hcases.mem_iff.mpr hcase),
    fun case hcase => hcases.mem_iff.mp (hq.covers case hcase),
    hselected.length_eq ▸ hq.complete, fun hcomparison => (hq.positions hcomparison).perm h,
    fun trial htrial => hq.passed trial (hselected.mem_iff.mpr htrial), ?_, hq.models.perm h⟩
  intro variation hvariation
  obtain ⟨case, hcase, hin, hvaries⟩ := hq.variations variation hvariation
  exact ⟨case, hcase, hcases.mem_iff.mp hin, hvaries⟩

theorem qualified_perm (h : trials.Perm trials') :
    Qualified plan recipe trials ↔ Qualified plan recipe trials' :=
  ⟨Qualified.perm h, Qualified.perm h.symm⟩

theorem comparable_perm (h : trials.Perm trials') : comparable plan trials = comparable plan trials' := by
  have hmatch : ModelsMatch plan trials ↔ ModelsMatch plan trials' :=
    ⟨ModelsMatch.perm h, ModelsMatch.perm h.symm⟩
  funext trial
  simp only [comparable, hmatch]

theorem comparable_holdout (trial : BenchmarkTrial) (h : comparable plan trials trial) :
    trial.phase = .holdout := (of_decide_eq_true h).1

theorem paired_perm (h : trials.Perm trials') (hpos : Positioned trials) :
    (paired plan trials).Perm (paired plan trials') := by
  unfold paired
  rw [comparable_perm h]
  have hrun : runAt trials (comparable plan trials') = runAt trials' (comparable plan trials') :=
    funext (runAt_perm h hpos fun trial => comparable_holdout trial)
  rw [hrun]
  exact (eraseDups_perm ((h.filter _).map _)).filterMap _

theorem measurementsOf_perm (h : trials.Perm trials') (hids : (trials.map (·.trialId)).Nodup) :
    measurementsOf trials = measurementsOf trials' :=
  funext fun _ => congrArg (fun found => (Option.map nativeMeasurements found).getD [])
    (lastAt_perm h hids)

theorem mem_reported_perm (h : trials.Perm trials') (hids : (trials.map (·.trialId)).Nodup)
    (key : String) : key ∈ reported trials ↔ key ∈ reported trials' := by
  unfold reported measurementKeys
  rw [measurementsOf_perm h hids, List.mem_cons, List.mem_cons, List.mem_eraseDups,
    List.mem_eraseDups, List.mem_flatMap, List.mem_flatMap]
  simp only [List.mem_eraseDups, (h.map _).mem_iff]

theorem reportedMeasure_perm (h : trials.Perm trials') (hids : (trials.map (·.trialId)).Nodup) :
    reportedMeasure trials = reportedMeasure trials' := by
  funext key
  unfold reportedMeasure
  have hmetric : metric trials key = metric trials' key := by
    funext trial
    unfold metric
    rw [measurementsOf_perm h hids]
  rw [hmetric]

theorem overReference_perm (h : trials.Perm trials') (hpos : Positioned trials) :
    overReference plan trials = overReference plan trials' := by
  funext reference trial
  unfold overReference
  rw [runAt_perm h hpos fun other hother => (of_decide_eq_true hother).2.1]

theorem referenceDifferences_perm (h : trials.Perm trials') (hpos : Positioned trials)
    (reference : String) : (referenceDifferences plan trials reference).Perm
      (referenceDifferences plan trials' reference) := by
  unfold referenceDifferences
  rw [overReference_perm h hpos]
  exact (selected_perm plan h).filterMap _

/-! ## Utility in another order -/

variable {condition : TrialCondition} {experiment : IncrementalExperiment}
  {order order' : List (String × ℕ)}

def comparedRoutes (plan : AssessmentPlan) (experiment : IncrementalExperiment) :
    List (String × String) :=
  (plan.candidateId, plan.baselineId) ::
    experiment.feasibleChallengers.map (fun challenger => (challenger, plan.candidateId)) ++
    match experiment.stage with
    | .aeepValue normalHost => [(plan.baselineId, normalHost)]
    | _ => []

/-- Whether the metrics of every comparison are the same in any order of the positions. -/
def UtilitySteady (plan : AssessmentPlan) (condition : TrialCondition)
    (experiment : IncrementalExperiment) (trials : List BenchmarkTrial) : Prop :=
  ∀ routes ∈ comparedRoutes plan experiment, ∀ metric ∈ dimensions experiment,
    Steady (aggregateOf metric) plan.templateFamily
      (gains condition trials plan.positions metric routes.1 routes.2)

instance : Decidable (UtilitySteady plan condition experiment trials) := by
  unfold UtilitySteady
  infer_instance

theorem alpha_le_one : alpha plan experiment ≤ 1 := by
  unfold alpha
  dsimp only
  refine le_trans (div_le_self experiment.utility.rate.1.le ?_)
    (experiment.utility.rate.2.trans (by norm_num))
  exact_mod_cast le_max_left 1 _

theorem runs_perm (condition : TrialCondition) (h : trials.Perm trials') (route : String) :
    (runs condition trials route).Perm (runs condition trials' route) := h.filter _

theorem valuesAt_perm (h : trials.Perm trials') (hpos : Positioned trials) :
    valuesAt condition trials = valuesAt condition trials' := by
  have hrun : run condition trials = run condition trials' := by
    funext route at_
    exact runAt_perm h hpos (fun trial htrial => (of_decide_eq_true htrial).1) _
  funext metric candidate base at_
  unfold valuesAt
  rw [hrun]

theorem gains_perm (h : trials.Perm trials') (hpos : Positioned trials) (horder : order.Perm order')
    (metric candidate base : String) :
    (gains condition trials order metric candidate base).Perm
      (gains condition trials' order' metric candidate base) := by
  have hgain : gainAt condition trials = gainAt condition trials' := by
    funext metric candidate base at_
    unfold gainAt
    rw [valuesAt_perm h hpos]
  unfold gains
  rw [hgain]
  exact horder.filterMap _

theorem RunsComplete.perm (h : trials.Perm trials') {route : String}
    (hc : RunsComplete plan condition trials route) : RunsComplete plan condition trials' route := by
  have hruns := runs_perm condition h route
  refine ⟨fun trial htrial => hc.1 trial (hruns.mem_iff.mpr htrial), fun at_ hat => ?_⟩
  obtain ⟨trial, htrial, heq⟩ := hc.2 at_ hat
  exact ⟨trial, hruns.mem_iff.mp htrial, heq⟩

theorem Complete.perm (h : trials.Perm trials') {candidate base : String}
    (hc : Complete plan condition trials candidate base) :
    Complete plan condition trials' candidate base := by
  refine ⟨((h.filter _).map _).nodup_iff.mp hc.1, hc.2.1.perm h, hc.2.2.1.perm h, ?_⟩
  intro route hroute trial htrial
  exact hc.2.2.2 route hroute trial ((runs_perm condition h route).mem_iff.mpr htrial)

theorem DiscoveryComplete.perm (h : trials.Perm trials') (hc : DiscoveryComplete plan condition trials) :
    DiscoveryComplete plan condition trials' := by
  have hruns := runs_perm condition h plan.candidateId
  refine ⟨fun hnil => hc.1 ?_, fun trial htrial => hc.2 trial (hruns.mem_iff.mpr htrial)⟩
  rw [hnil] at hruns
  exact hruns.eq_nil

theorem measure_perm {g : Generator} (h : trials.Perm trials') (hpos : Positioned trials)
    (horder : order.Perm order') {metric candidate base : String}
    (hs : Steady (aggregateOf metric) plan.templateFamily
      (gains condition trials order metric candidate base)) :
    measure plan condition experiment trials g order metric candidate base =
      measure plan condition experiment trials' g order' metric candidate base := by
  have hgains : (gains condition trials order metric candidate base).Perm
      (gains condition trials' order' metric candidate base) := gains_perm h hpos horder _ _ _
  have hzero : ZeroRegression plan condition trials metric candidate base ↔
      ZeroRegression plan condition trials' metric candidate base := by
    unfold ZeroRegression
    rw [valuesAt_perm h hpos]
  have hpairs := (aggregates_perm (f := aggregateOf metric) (fun _ _ => Aggregate.perm _) hgains).length_eq
  rw [← groups_length, ← groups_length] at hpairs
  unfold measure
  dsimp only
  rw [pairedInterval_perm hgains alpha_le_one hs, hpairs]
  simp only [hzero]

theorem steady_perm {f : Aggregate} {family : String → Option String}
    {differences differences' : List (String × ℚ)} (h : differences.Perm differences')
    (hs : Steady f family differences) : Steady f family differences' := by
  by_cases hr : Resampled f family differences
  · have hcases := aggregates_perm (f := f) (fun _ _ => f.perm) h
    refine .inr (.inr fun case hcase other hother => ?_)
    exact hr.agree hs case (hcases.mem_iff.mpr hcase) other (hcases.mem_iff.mpr hother)
  · exact steady_or ((not_congr (Resampled.perm h)).mp hr)

theorem compare_perm {g : Generator} (h : trials.Perm trials') (hpos : Positioned trials)
    (horder : order.Perm plan.positions) (horder' : order'.Perm plan.positions)
    {routes : String × String} (hroutes : routes ∈ comparedRoutes plan experiment)
    (hs : UtilitySteady plan condition experiment trials) :
    compare plan condition experiment trials g order routes.1 routes.2 =
      compare plan condition experiment trials' g order' routes.1 routes.2 := by
  have hcomplete : Complete plan condition trials routes.1 routes.2 ↔
      Complete plan condition trials' routes.1 routes.2 := ⟨Complete.perm h, Complete.perm h.symm⟩
  have hmeasured : ∀ metric ∈ dimensions experiment,
      measure plan condition experiment trials g order metric routes.1 routes.2 =
        measure plan condition experiment trials' g order' metric routes.1 routes.2 := by
    intro metric hmetric
    refine measure_perm h hpos (horder.trans horder'.symm) ?_
    exact steady_perm (gains_perm (List.Perm.refl _) hpos horder.symm metric routes.1 routes.2)
      (hs routes hroutes metric hmetric)
  have hbenefit : ∀ metric ∈ experiment.utility.benefitDimensions, metric ∈ dimensions experiment :=
    fun metric hmetric => List.mem_eraseDups.mpr (List.mem_append_left _ hmetric)
  have hguard : ∀ metric ∈ experiment.utility.guardrailDimensions, metric ∈ dimensions experiment :=
    fun metric hmetric => List.mem_eraseDups.mpr (List.mem_append_right _ hmetric)
  unfold compare
  dsimp only
  congr 1
  · exact List.map_congr_left fun metric hmetric => by rw [hmeasured metric hmetric]
  · refine decide_eq_decide.mpr (and_congr hcomplete (forall₂_congr fun metric hmetric => ?_))
    rw [hmeasured metric hmetric]
  · rw [Bool.eq_iff_iff, List.any_eq_true, List.any_eq_true]
    refine exists_congr fun metric => and_congr_right fun hmetric => ?_
    rw [hmeasured metric (hbenefit metric hmetric)]
  · rw [Bool.eq_iff_iff, List.all_eq_true, List.all_eq_true]
    refine forall₂_congr fun metric hmetric => ?_
    rw [hmeasured metric (hguard metric hmetric)]

theorem incrementalUtility_perm {g : Generator} (h : trials.Perm trials') (hpos : Positioned trials)
    (horder : order.Perm plan.positions) (horder' : order'.Perm plan.positions)
    (hs : UtilitySteady plan condition experiment trials) :
    incrementalUtility plan condition experiment trials g order =
      incrementalUtility plan condition experiment trials' g order' := by
  have hcompare : ∀ routes ∈ comparedRoutes plan experiment,
      compare plan condition experiment trials g order routes.1 routes.2 =
        compare plan condition experiment trials' g order' routes.1 routes.2 :=
    fun routes hroutes => compare_perm h hpos horder horder' hroutes hs
  have hprimary := hcompare (plan.candidateId, plan.baselineId)
    (List.mem_append_left _ List.mem_cons_self)
  have hchallengers : (experiment.feasibleChallengers.map fun challenger =>
      (challenger, compare plan condition experiment trials g order challenger plan.candidateId)) =
      experiment.feasibleChallengers.map fun challenger =>
        (challenger, compare plan condition experiment trials' g order' challenger plan.candidateId) := by
    refine List.map_congr_left fun challenger hchallenger => congrArg (challenger, ·) ?_
    exact hcompare (challenger, plan.candidateId) (List.mem_append_left _
      (List.mem_cons_of_mem _ (List.mem_map_of_mem hchallenger)))
  have hpassed : (fun challenger => (runs condition trials challenger).all passed) =
      fun challenger => (runs condition trials' challenger).all passed :=
    funext fun challenger => (runs_perm condition h challenger).all_eq
  have hdiscovery : DiscoveryComplete plan condition trials ↔
      DiscoveryComplete plan condition trials' := ⟨DiscoveryComplete.perm h, DiscoveryComplete.perm h.symm⟩
  have hnormal : ∀ normalHost, experiment.stage = .aeepValue normalHost →
      compare plan condition experiment trials g order plan.baselineId normalHost =
        compare plan condition experiment trials' g order' plan.baselineId normalHost := by
    intro normalHost hstage
    refine hcompare (plan.baselineId, normalHost) (List.mem_append_right _ ?_)
    rw [hstage]
    exact List.mem_cons_self
  unfold incrementalUtility
  dsimp only at hprimary ⊢
  rw [hprimary, hchallengers]
  simp only [congrFun hpassed, hdiscovery]
  cases hstage : experiment.stage with
  | aeepValue normalHost => simp only [hnormal normalHost hstage]
  | _ => rfl

end Trials

end AeepRouter.Reporting

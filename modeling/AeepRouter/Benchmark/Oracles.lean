import Mathlib.Data.Finset.Sort
import Mathlib.Data.Prod.Lex
import Mathlib.Data.String.Basic
import AeepRouter.Benchmark.Records
import AeepRouter.Lib.Least
import AeepRouter.Lib.Resample

/-!
# Oracles of a campaign

`oracles` says for each case, condition and repetition which trial the policy, the cash, the tokens
and the time would have chosen; `heldoutPolicyOracleValues` says again, for the holdout, whether the
frozen route was within a tenth of the best score. The first takes a zero for nothing where it looks
for the least, the second does not. Scores are floats and a tenth above the best is rounded, so how
the two are compared is a parameter.
-/

namespace AeepRouter.Benchmark

open Lib

/-- A trial with what the oracles read of it. -/
structure ScoredTrial extends BenchmarkTrial where
  cacheHitVerified : Option Bool
  policyScore : Option ℚ
  wallTime_nonneg : ∀ time, wallTimeMs = some time → 0 ≤ time
  deriving DecidableEq

structure OracleRoute where
  routeId : String
  executorId : Option String
  deriving DecidableEq, Repr

structure BenchmarkOracle where
  caseId : String
  condition : TrialCondition
  repetition : ℕ
  selectedRouteId : Option String
  policyRouteId : Option String
  cashRouteId : Option String
  tokenRouteId : Option String
  latencyRouteId : Option String
  selectedWithin10Percent : Option Bool
  deriving DecidableEq, Repr

theorem TrialCondition.value_injective : Function.Injective TrialCondition.value := by
  intro a b
  cases a <;> cases b <;> decide

/-- Conditions are compared as the strings they are. -/
instance : LinearOrder TrialCondition :=
  LinearOrder.lift' TrialCondition.value TrialCondition.value_injective

/-- A case, a condition and a repetition. -/
abbrev OracleKey := String ×ₗ TrialCondition ×ₗ ℕ

def ScoredTrial.key (trial : ScoredTrial) : OracleKey :=
  toLex (trial.caseId, toLex (trial.condition, trial.repetition))

def OracleKey.caseId (key : OracleKey) : String := (ofLex key).1

def OracleKey.condition (key : OracleKey) : TrialCondition := (ofLex (ofLex key).2).1

def OracleKey.repetition (key : OracleKey) : ℕ := (ofLex (ofLex key).2).2

/-! ## Eligible trials -/

/-- A kept router was seen to say of this route whether its cache was hit. -/
def Evidenced (trials : List ScoredTrial) (trial : ScoredTrial) : Prop :=
  ∃ other ∈ trials, other.phase ≠ .setup ∧ other.condition = .routerWarm ∧
    other.cacheHitVerified ≠ none ∧ other.routeId = trial.routeId ∧
    other.condition = trial.condition

instance (trials : List ScoredTrial) (trial : ScoredTrial) : Decidable (Evidenced trials trial) :=
  inferInstanceAs (Decidable (∃ other ∈ trials, _))

/-- `_eligible_measurements`: without the misses of a cache the router keeps. -/
def eligibleMeasurements (trials : List ScoredTrial) : List ScoredTrial :=
  (trials.filter (·.phase ≠ .setup)).filter fun trial =>
    ¬Evidenced trials trial ∨ trial.cacheHitVerified = some true

def groupOf (key : OracleKey) (trials : List ScoredTrial) : List ScoredTrial :=
  trials.filter (·.key = key)

/-! ## The oracles of a report -/

/-- `measured` of `_oracles`. -/
def validMeasurements (trials : List ScoredTrial) : List ScoredTrial :=
  (eligibleMeasurements trials).filter (·.valid = some true)

def oracleKeys (trials : List ScoredTrial) : List OracleKey :=
  ((validMeasurements trials).map ScoredTrial.key).toFinset.sort (· ≤ ·)

def ScoredTrial.cash (trial : ScoredTrial) : Option ℚ :=
  trial.accounting.cash.actualCashCost "USD"

def ScoredTrial.modelTokens (trial : ScoredTrial) : ℕ :=
  (trial.accounting.modelUsage.map fun usage => usage.inputTokens + usage.outputTokens).sum

/-- `min` with `policy_score or math.inf`. -/
def policyTrial (items : List ScoredTrial) : Option ScoredTrial :=
  (items.filter (·.policyScore.isSome)).argmin fun item => orTop item.policyScore

def cashTrial (items : List ScoredTrial) : Option ScoredTrial :=
  (items.filter (·.cash.isSome)).argmin fun item => item.cash.getD 0

def tokenTrial (items : List ScoredTrial) : Option ScoredTrial :=
  items.argmin ScoredTrial.modelTokens

/-- `min` with `wall_time_ms or math.inf`. -/
def latencyTrial (items : List ScoredTrial) : Option ScoredTrial :=
  items.argmin fun item => orTop item.wallTimeMs

/-- The route of a frozen decision, which may also name an executor. -/
def selectedRoute (routes : List OracleRoute) (frozen : Option String) : Option String :=
  match frozen with
  | some route =>
    if route ∈ routes.map (·.routeId) then some route
    else (lastAt OracleRoute.executorId routes (some route)).map (·.routeId)
  | none => (lastAt OracleRoute.executorId routes (some "")).map (·.routeId)

def ofRoute (route : Option String) (trial : ScoredTrial) : Bool := some trial.routeId = route

section Within

variable (atMost : ℚ → ℚ → Bool)

/-- A score against a score of the oracle; `atMost` is `score <= 1.10 * oracle` in floats. -/
def withinTenPercent (score oracle : ℚ) : Bool :=
  if oracle = 0 then score = 0 else atMost score oracle

def selectedWithin (route : Option String) (items : List ScoredTrial) : Option Bool :=
  match items.find? (ofRoute route), policyTrial items with
  | some selected, some policy =>
    selected.policyScore.map fun score =>
      withinTenPercent atMost score (policy.policyScore.getD 0)
  | _, _ => none

/-- The decision frozen for a case, as `frozen.get(case_id)`. -/
abbrev FrozenDecisions := String → Option String

def oracleOf (trials : List ScoredTrial) (routes : List OracleRoute) (frozen : FrozenDecisions)
    (key : OracleKey) : BenchmarkOracle :=
  let items := groupOf key (validMeasurements trials)
  let route := selectedRoute routes (frozen key.caseId)
  { caseId := key.caseId
    condition := key.condition
    repetition := key.repetition
    selectedRouteId := route
    policyRouteId := (policyTrial items).map (·.routeId)
    cashRouteId := (cashTrial items).map (·.routeId)
    tokenRouteId := (tokenTrial items).map (·.routeId)
    latencyRouteId := (latencyTrial items).map (·.routeId)
    selectedWithin10Percent := selectedWithin atMost route items }

def oracles (trials : List ScoredTrial) (routes : List OracleRoute) (frozen : FrozenDecisions) :
    List BenchmarkOracle :=
  (oracleKeys trials).map (oracleOf atMost trials routes frozen)

/-! ## The values of the holdout -/

def holdoutMeasurements (trials : List ScoredTrial) : List ScoredTrial :=
  (eligibleMeasurements trials).filter (·.phase = .holdout)

def leastScore (items : List ScoredTrial) : Option ℚ := (items.filterMap (·.policyScore)).min?

/-- The value of one group of the holdout. -/
def heldoutValue (frozen : Option String) (items : List ScoredTrial) : Bool :=
  match items.filter (ofRoute frozen), leastScore (items.filter (·.valid = some true)) with
  | [selected], some oracle =>
    selected.valid = some true ∧ selected.policyScore.any fun score => withinTenPercent atMost score oracle
  | _, _ => false

def heldoutPolicyOracleValues (trials : List ScoredTrial) (frozen : FrozenDecisions) : List Bool :=
  ((holdoutMeasurements trials).map ScoredTrial.key).eraseDups.map fun key =>
    heldoutValue atMost (frozen key.caseId) (groupOf key (holdoutMeasurements trials))

end Within

/-! ## Orders of the trials -/

theorem evidenced_perm {trials trials' : List ScoredTrial} (h : trials'.Perm trials)
    (trial : ScoredTrial) : Evidenced trials' trial ↔ Evidenced trials trial := by
  unfold Evidenced
  simp only [h.mem_iff]

theorem mem_groupOf {trials : List ScoredTrial} {key : OracleKey} {trial : ScoredTrial} :
    trial ∈ groupOf key trials ↔ trial ∈ trials ∧ trial.key = key := by
  simp [groupOf]

def Counted (trials : List ScoredTrial) (key : OracleKey) (trial : ScoredTrial) : Bool :=
  trial.phase ≠ .setup ∧ (¬Evidenced trials trial ∨ trial.cacheHitVerified = some true) ∧
    trial.valid = some true ∧ trial.key = key

theorem groupOf_validMeasurements (trials : List ScoredTrial) (key : OracleKey) :
    groupOf key (validMeasurements trials) = trials.filter (Counted trials key) := by
  unfold groupOf validMeasurements eligibleMeasurements
  rw [List.filter_filter, List.filter_filter, List.filter_filter]
  refine List.filter_congr fun trial _ => ?_
  simp only [Counted, Bool.decide_and, Bool.and_comm, Bool.and_left_comm]

theorem counted_perm {trials trials' : List ScoredTrial} (h : trials'.Perm trials)
    (key : OracleKey) : Counted trials' key = Counted trials key := by
  funext trial
  simp only [Counted, evidenced_perm h]

theorem group_perm {trials trials' : List ScoredTrial} (h : trials'.Perm trials) (key : OracleKey) :
    (groupOf key (validMeasurements trials')).Perm (groupOf key (validMeasurements trials)) := by
  rw [groupOf_validMeasurements, groupOf_validMeasurements, counted_perm h]
  exact h.filter _

theorem exists_group_eq (trials : List ScoredTrial) (key : OracleKey) {items : List ScoredTrial}
    (h : items.Perm (groupOf key (validMeasurements trials))) :
    ∃ trials' : List ScoredTrial, trials'.Perm trials ∧
      groupOf key (validMeasurements trials') = items := by
  rw [groupOf_validMeasurements] at h
  have hperm : (items ++ trials.filter fun trial => !Counted trials key trial).Perm trials :=
    (h.append_right _).trans (List.filter_append_perm _ trials)
  refine ⟨_, hperm, ?_⟩
  rw [groupOf_validMeasurements, counted_perm hperm, List.filter_append, List.filter_filter]
  have hitems : items.filter (Counted trials key) = items :=
    List.filter_eq_self.mpr fun item hitem => (List.mem_filter.mp (h.mem_iff.mp hitem)).2
  rw [hitems]
  simp

theorem oracleKeys_perm {trials trials' : List ScoredTrial} (h : trials'.Perm trials) :
    oracleKeys trials' = oracleKeys trials := by
  unfold oracleKeys
  congr 1
  ext key
  simp only [List.mem_toFinset, List.mem_map]
  have hgroup : ∀ trial, trial ∈ groupOf key (validMeasurements trials') ↔
      trial ∈ groupOf key (validMeasurements trials) := fun trial => (group_perm h key).mem_iff
  simp only [mem_groupOf] at hgroup
  exact exists_congr hgroup

theorem mem_oracleKeys {trials : List ScoredTrial} {key : OracleKey} :
    key ∈ oracleKeys trials ↔ ∃ trial, trial ∈ groupOf key (validMeasurements trials) := by
  simp only [oracleKeys, Finset.mem_sort, List.mem_toFinset, List.mem_map, mem_groupOf]

/-! ## What the oracles should say -/

def Scored (items : List ScoredTrial) : Prop := ∃ trial ∈ items, trial.policyScore ≠ none

section Laws

variable (atMost : ℚ → ℚ → Bool)

/-- The trials picked from two orders of a group tie, and the frozen route is judged alike. -/
structure Ties (route : Option String) (items items' : List ScoredTrial) : Prop where
  policy : (policyTrial items).map (·.policyScore) = (policyTrial items').map (·.policyScore)
  cash : (cashTrial items).map (·.cash) = (cashTrial items').map (·.cash)
  tokens : (tokenTrial items).map (·.modelTokens) = (tokenTrial items').map (·.modelTokens)
  latency : (latencyTrial items).map (·.wallTimeMs) = (latencyTrial items').map (·.wallTimeMs)
  within : selectedWithin atMost route items = selectedWithin atMost route items'

/-- The oracles of a report name the least, do not depend on the order of the trials, and agree with
the values of the holdout. -/
structure Lawful (trials : List ScoredTrial) (routes : List OracleRoute)
    (frozen : FrozenDecisions) : Prop where
  policy_least : ∀ key, Scored (groupOf key (validMeasurements trials)) →
    ∃ trial, policyTrial (groupOf key (validMeasurements trials)) = some trial ∧
      LeastKnown (·.policyScore) (groupOf key (validMeasurements trials)) trial
  latency_least : ∀ key, Scored (groupOf key (validMeasurements trials)) →
    ∃ trial, latencyTrial (groupOf key (validMeasurements trials)) = some trial ∧
      LeastKnown (·.wallTimeMs) (groupOf key (validMeasurements trials)) trial
  orderless : ∀ trials' : List ScoredTrial, trials'.Perm trials →
    oracleKeys trials' = oracleKeys trials ∧
      ∀ key, Ties atMost (selectedRoute routes (frozen key.caseId))
        (groupOf key (validMeasurements trials)) (groupOf key (validMeasurements trials'))
  agrees : ∀ key trial,
    (groupOf key (holdoutMeasurements trials)).filter (ofRoute (frozen key.caseId)) = [trial] →
    trial.valid = some true → trial.policyScore ≠ none →
    key ∈ oracleKeys trials ∧ (oracleOf atMost trials routes frozen key).selectedWithin10Percent =
      some (heldoutValue atMost (frozen key.caseId) (groupOf key (holdoutMeasurements trials)))

end Laws

/-! ## When they do -/

/-- A zero score is no better than the others, or worse than one of them. -/
def ScoresSettle (items : List ScoredTrial) : Prop :=
  (∃ trial ∈ items, trial.policyScore = some 0) →
    (∀ trial ∈ items, ∀ score, trial.policyScore = some score → score = 0) ∨
      ∃ trial ∈ items, ∃ score < 0, trial.policyScore = some score

/-- A zero time stands beside zero times only, or, where nothing is scored, a known time that is no
zero hides it from the unknown ones. -/
structure TimesSettle (items : List ScoredTrial) : Prop where
  scored : Scored items → (∃ trial ∈ items, trial.wallTimeMs = some 0) →
    ∀ trial ∈ items, trial.wallTimeMs = some 0
  unknown : (∃ trial ∈ items, trial.wallTimeMs = some 0) →
    (∃ trial ∈ items, trial.wallTimeMs = none) →
    ∃ trial ∈ items, ∃ time, trial.wallTimeMs = some time ∧ time ≠ 0

/-- Two trials that no comparison with the oracle tells apart: their scores are the same, or neither is
the zero that the oracle is. -/
def JudgedAlike (oracle score other : Option ℚ) : Prop :=
  score = other ∨ oracle = some 0 ∧ score.any (· ≠ 0) ∧ other.any (· ≠ 0)

structure Sound (trials : List ScoredTrial) (routes : List OracleRoute)
    (frozen : FrozenDecisions) : Prop where
  scores : ∀ key, ScoresSettle (groupOf key (validMeasurements trials))
  times : ∀ key, TimesSettle (groupOf key (validMeasurements trials))
  selected : ∀ key, ∀ trial ∈ groupOf key (validMeasurements trials),
    ∀ other ∈ groupOf key (validMeasurements trials),
      ofRoute (selectedRoute routes (frozen key.caseId)) trial →
        ofRoute (selectedRoute routes (frozen key.caseId)) other →
          JudgedAlike (leastScore (groupOf key (validMeasurements trials)))
            trial.policyScore other.policyScore
  /-- No trial of another phase has a lower score than those of the holdout, and the route the
  decision stands for has a trial that is judged as the frozen one. -/
  frozen : ∀ key trial,
    (groupOf key (holdoutMeasurements trials)).filter (ofRoute (frozen key.caseId)) = [trial] →
    trial.valid = some true → trial.policyScore ≠ none →
    leastScore (groupOf key (validMeasurements trials)) =
      leastScore ((groupOf key (holdoutMeasurements trials)).filter (·.valid = some true)) ∧
    ∃ other ∈ groupOf key (validMeasurements trials),
      ofRoute (selectedRoute routes (frozen key.caseId)) other ∧
        JudgedAlike (leastScore (groupOf key (validMeasurements trials)))
          other.policyScore trial.policyScore

/-- Whether a score is within a tenth of the least one. -/
def verdict (atMost : ℚ → ℚ → Bool) (oracle score : Option ℚ) : Option Bool := do
  let score ← score
  let oracle ← oracle
  return withinTenPercent atMost score oracle

/-! ## One group -/

section Group

variable {items items' : List ScoredTrial} {route : Option String} {atMost : ℚ → ℚ → Bool}

theorem scoresSettle_perm (h : items'.Perm items) : ScoresSettle items' ↔ ScoresSettle items := by
  simp only [ScoresSettle, h.mem_iff]

theorem isSome_of_scored (h : Scored items) : items.filter (·.policyScore.isSome) ≠ [] := by
  obtain ⟨trial, htrial, hscore⟩ := h
  exact List.ne_nil_of_mem
    (List.mem_filter.mpr ⟨htrial, Option.isSome_iff_ne_none.mpr hscore⟩)

theorem mem_policyTrial {trial : ScoredTrial} (h : policyTrial items = some trial) :
    trial ∈ items ∧ trial.policyScore.isSome :=
  List.mem_filter.mp (List.argmin_mem h)

theorem policy_least_iff :
    (Scored items → ∃ trial, policyTrial items = some trial ∧
      LeastKnown (·.policyScore) items trial) ↔ ScoresSettle items := by
  constructor
  · rintro h ⟨zero, hzero, hscore⟩
    obtain ⟨trial, htrial, hleast⟩ := h ⟨zero, hzero, by simp [hscore]⟩
    exact (leastKnown_iff htrial).mp hleast ⟨zero, hzero, hscore⟩
  · intro h hscored
    obtain ⟨trial, htrial⟩ := exists_argmin (fun trial : ScoredTrial => orTop trial.policyScore)
      (isSome_of_scored hscored)
    exact ⟨trial, htrial, (leastKnown_iff htrial).mpr h⟩

theorem policy_ties (h : items'.Perm items) :
    (policyTrial items).map (·.policyScore) = (policyTrial items').map (·.policyScore) := by
  refine argmin_map_perm ?_ (h.symm.filter _)
  intro trial htrial other hother _ heq
  exact orTop_inj_of_known (Option.isSome_iff_ne_none.mp (List.mem_filter.mp htrial).2)
    (Option.isSome_iff_ne_none.mp (List.mem_filter.mp hother).2) heq

theorem cash_ties (h : items'.Perm items) :
    (cashTrial items).map (·.cash) = (cashTrial items').map (·.cash) := by
  refine argmin_map_perm ?_ (h.symm.filter _)
  intro trial htrial other hother _ heq
  obtain ⟨amount, hamount⟩ := Option.isSome_iff_exists.mp (List.mem_filter.mp htrial).2
  obtain ⟨amount', hamount'⟩ := Option.isSome_iff_exists.mp (List.mem_filter.mp hother).2
  rw [hamount, hamount', Option.getD_some, Option.getD_some] at heq
  rw [hamount, hamount', heq]

theorem tokens_tie (h : items'.Perm items) :
    (tokenTrial items).map (·.modelTokens) = (tokenTrial items').map (·.modelTokens) :=
  argmin_map_perm (fun _ _ _ _ _ heq => heq) h.symm

theorem wallTime_nonneg {trial : ScoredTrial} (_ : trial ∈ items) (time : ℚ)
    (h : trial.wallTimeMs = some time) : 0 ≤ time :=
  trial.wallTime_nonneg time h

theorem latency_iff :
    (Scored items → ∃ trial, latencyTrial items = some trial ∧
        LeastKnown (·.wallTimeMs) items trial) ∧
      (∀ items' : List ScoredTrial, items'.Perm items →
        (latencyTrial items).map (·.wallTimeMs) = (latencyTrial items').map (·.wallTimeMs)) ↔
      TimesSettle items := by
  unfold latencyTrial
  rw [orderless_iff]
  constructor
  · rintro ⟨hleast, hunknown⟩
    refine ⟨?_, hunknown⟩
    rintro hscored ⟨zero, hzero, htime⟩ trial htrial
    obtain ⟨pick, hpick, hle⟩ := hleast hscored
    have hzeros := zero_of_leastKnown hpick (fun _ => wallTime_nonneg) hle hzero htime
    cases hvalue : trial.wallTimeMs with
    | some time => rw [hzeros trial htrial time hvalue]
    | none =>
      obtain ⟨other, hother, time, hknown, hne⟩ :=
        hunknown ⟨zero, hzero, htime⟩ ⟨trial, htrial, hvalue⟩
      exact absurd (hzeros other hother time hknown) hne
  · intro h
    refine ⟨fun hscored => ?_, h.unknown⟩
    obtain ⟨trial, htrial⟩ := exists_argmin (fun trial : ScoredTrial => orTop trial.wallTimeMs)
      (l := items) (by
        obtain ⟨trial, htrial, -⟩ := hscored
        exact List.ne_nil_of_mem htrial)
    exact ⟨trial, htrial, leastKnown_of_zero htrial (h.scored hscored)⟩

/-! ### The frozen route -/

theorem leastScore_eq_some {score : ℚ} :
    leastScore items = some score ↔ (∃ trial ∈ items, trial.policyScore = some score) ∧
      ∀ trial ∈ items, ∀ other, trial.policyScore = some other → score ≤ other := by
  unfold leastScore
  rw [List.min?_eq_some_iff]
  simp only [List.mem_filterMap]
  refine and_congr Iff.rfl ⟨fun h trial htrial other hother => h other ⟨trial, htrial, hother⟩, ?_⟩
  rintro h other ⟨trial, htrial, hother⟩
  exact h trial htrial other hother

theorem leastScore_congr (h : ∀ trial, trial ∈ items' ↔ trial ∈ items) :
    leastScore items' = leastScore items := by
  ext score
  rw [leastScore_eq_some, leastScore_eq_some]
  simp only [h]

theorem JudgedAlike.verdict_eq {oracle score other : Option ℚ} (h : JudgedAlike oracle score other) :
    verdict atMost oracle score = verdict atMost oracle other := by
  rcases h with rfl | ⟨rfl, hscore, hother⟩
  · rfl
  · obtain ⟨s, rfl, hs⟩ := (Option.any_eq_true _ _).mp hscore
    obtain ⟨s', rfl, hs'⟩ := (Option.any_eq_true _ _).mp hother
    have hs := of_decide_eq_true hs
    have hs' := of_decide_eq_true hs'
    simp [verdict, withinTenPercent, hs, hs']

theorem withinTenPercent_forall {score oracle score' oracle' : ℚ}
    (h : ∀ atMost, withinTenPercent atMost score oracle = withinTenPercent atMost score' oracle') :
    oracle = oracle' ∧ JudgedAlike (some oracle) (some score) (some score') := by
  have hpick := h fun s o => decide (s = score ∧ o = oracle)
  have hpick' := h fun s o => decide (s = score' ∧ o = oracle')
  have htrue := h fun _ _ => true
  have hfalse := h fun _ _ => false
  unfold withinTenPercent at hpick hpick' htrue hfalse
  unfold JudgedAlike
  by_cases ho : oracle = 0 <;> by_cases ho' : oracle' = 0
  · subst ho ho'
    refine ⟨rfl, ?_⟩
    by_cases hs : score = 0 <;> by_cases hs' : score' = 0 <;> simp_all
  all_goals simp_all

theorem judgedAlike_of_forall {oracle score other : Option ℚ}
    (horacle : oracle = none → score = none ∧ other = none)
    (h : ∀ atMost, verdict atMost oracle score = verdict atMost oracle other) :
    JudgedAlike oracle score other := by
  cases oracle with
  | none =>
    obtain ⟨rfl, rfl⟩ := horacle rfl
    exact .inl rfl
  | some oracle =>
    cases score with
    | none =>
      cases other with
      | none => exact .inl rfl
      | some other => exact absurd (h fun _ _ => true) (by simp [verdict])
    | some score =>
      cases other with
      | none => exact absurd (h fun _ _ => true) (by simp [verdict])
      | some other =>
        exact (withinTenPercent_forall fun atMost => by simpa [verdict] using h atMost).2

theorem selectedWithin_eq (h : ScoresSettle items) : selectedWithin atMost route items =
    (items.find? (ofRoute route)).bind fun trial =>
      verdict atMost (leastScore items) trial.policyScore := by
  unfold selectedWithin
  cases hfind : items.find? (ofRoute route) with
  | none => rfl
  | some selected =>
    cases hscore : selected.policyScore with
    | none =>
      cases policyTrial items <;> simp [verdict, hscore]
    | some score =>
      have hscored : Scored items := ⟨selected, List.mem_of_find?_eq_some hfind, by simp [hscore]⟩
      obtain ⟨policy, hpolicy, hleast⟩ := policy_least_iff.mpr h hscored
      obtain ⟨hmem, hsome⟩ := mem_policyTrial hpolicy
      obtain ⟨best, hbest⟩ := Option.isSome_iff_exists.mp hsome
      have horacle : leastScore items = some best := by
        refine leastScore_eq_some.mpr ⟨⟨policy, hmem, hbest⟩, fun trial htrial other hother => ?_⟩
        obtain ⟨score, hvalue, hle⟩ := hleast trial htrial other hother
        rw [Option.some_inj.mp (hbest.symm.trans hvalue)]
        exact hle
      simp [verdict, hpolicy, hscore, hbest, horacle]

/-- The frozen route is judged alike in every order just when its trials are. -/
theorem within_iff (h : ScoresSettle items) :
    (∀ items' : List ScoredTrial, items'.Perm items →
      selectedWithin atMost route items = selectedWithin atMost route items') ↔
    ∀ trial ∈ items, ∀ other ∈ items, ofRoute route trial → ofRoute route other →
      verdict atMost (leastScore items) trial.policyScore =
        verdict atMost (leastScore items) other.policyScore := by
  have hwithin : ∀ items' : List ScoredTrial, items'.Perm items →
      selectedWithin atMost route items' = (items'.find? (ofRoute route)).bind fun trial =>
        verdict atMost (leastScore items) trial.policyScore := by
    intro items' hperm
    rw [selectedWithin_eq ((scoresSettle_perm hperm).mpr h), leastScore_congr fun _ => hperm.mem_iff]
  constructor
  · intro hsame trial htrial other hother hroute hroute'
    have hfirst : ∀ item ∈ items, ofRoute route item → selectedWithin atMost route items =
        verdict atMost (leastScore items) item.policyScore := by
      intro item hitem hitemroute
      obtain ⟨before, after, rfl⟩ := List.append_of_mem hitem
      rw [hsame _ List.perm_middle.symm, hwithin _ List.perm_middle.symm,
        List.find?_cons_of_pos hitemroute, Option.bind_some]
    rw [← hfirst trial htrial hroute, ← hfirst other hother hroute']
  · intro halike items' hperm
    rw [hwithin items (List.Perm.refl _), hwithin items' hperm]
    cases hfind : items.find? (ofRoute route) with
    | none =>
      have hnone : items'.find? (ofRoute route) = none :=
        List.find?_eq_none.mpr fun item hitem =>
          List.find?_eq_none.mp hfind item (hperm.mem_iff.mp hitem)
      rw [hnone]
    | some selected =>
      have hselected := List.mem_of_find?_eq_some hfind
      cases hfind' : items'.find? (ofRoute route) with
      | none =>
        have := List.find?_eq_none.mp hfind' selected (hperm.mem_iff.mpr hselected)
        exact absurd (List.find?_some hfind) this
      | some selected' =>
        exact halike selected hselected selected'
          (hperm.mem_iff.mp (List.mem_of_find?_eq_some hfind')) (List.find?_some hfind)
          (List.find?_some hfind')

theorem exists_leastScore {trial : ScoredTrial} (h : trial ∈ items) (hscore : trial.policyScore ≠ none) :
    ∃ best, leastScore items = some best := by
  obtain ⟨score, hscore⟩ := Option.ne_none_iff_exists'.mp hscore
  refine Option.ne_none_iff_exists'.mp fun hnone => ?_
  have hnil := List.min?_eq_none_iff.mp hnone
  have hmem : score ∈ items.filterMap (·.policyScore) := List.mem_filterMap.mpr ⟨trial, h, hscore⟩
  rw [hnil] at hmem
  exact absurd hmem List.not_mem_nil

end Group

/-! ## The report -/

variable {trials : List ScoredTrial} {routes : List OracleRoute} {frozen : FrozenDecisions}
  {atMost : ℚ → ℚ → Bool}

theorem mem_of_frozen {key : OracleKey} {trial : ScoredTrial} {decision : Option String}
    (h : (groupOf key (holdoutMeasurements trials)).filter (ofRoute decision) = [trial])
    (hvalid : trial.valid = some true) : trial ∈ groupOf key (validMeasurements trials) := by
  have hmem : trial ∈ (groupOf key (holdoutMeasurements trials)).filter (ofRoute decision) := by
    rw [h]
    exact List.mem_singleton_self trial
  obtain ⟨hholdout, hkey⟩ := mem_groupOf.mp (List.mem_filter.mp hmem).1
  refine mem_groupOf.mpr ⟨List.mem_filter.mpr ⟨?_, decide_eq_true hvalid⟩, hkey⟩
  exact (List.mem_filter.mp hholdout).1

theorem mem_of_single {items : List ScoredTrial} {trial : ScoredTrial} {decision : Option String}
    (h : items.filter (ofRoute decision) = [trial]) (hvalid : trial.valid = some true) :
    trial ∈ items.filter (·.valid = some true) := by
  have hmem : trial ∈ items.filter (ofRoute decision) := by
    rw [h]
    exact List.mem_singleton_self trial
  exact List.mem_filter.mpr ⟨(List.mem_filter.mp hmem).1, decide_eq_true hvalid⟩

theorem heldoutValue_eq {items : List ScoredTrial} {trial : ScoredTrial} {decision : Option String}
    (h : items.filter (ofRoute decision) = [trial]) (hvalid : trial.valid = some true)
    (hscore : trial.policyScore ≠ none) :
    verdict atMost (leastScore (items.filter (·.valid = some true))) trial.policyScore =
      some (heldoutValue atMost decision items) := by
  obtain ⟨best, hbest⟩ := exists_leastScore (mem_of_single h hvalid) hscore
  obtain ⟨score, hscore⟩ := Option.ne_none_iff_exists'.mp hscore
  simp [verdict, heldoutValue, h, hscore, hbest, hvalid]

theorem Sound.lawful (h : Sound trials routes frozen) (atMost : ℚ → ℚ → Bool) :
    Lawful atMost trials routes frozen := by
  refine ⟨fun key => policy_least_iff.mpr (h.scores key),
    fun key => (latency_iff.mpr (h.times key)).1, fun trials' hperm => ⟨oracleKeys_perm hperm, ?_⟩,
    fun key trial hone hvalid hscore => ?_⟩
  · intro key
    have hitems := group_perm hperm key
    exact ⟨policy_ties hitems, cash_ties hitems, tokens_tie hitems,
      (latency_iff.mpr (h.times key)).2 _ hitems, (within_iff (h.scores key)).mpr
        (fun trial htrial other hother hroute hroute' =>
          (h.selected key trial htrial other hother hroute hroute').verdict_eq) _ hitems⟩
  · refine ⟨mem_oracleKeys.mpr ⟨trial, mem_of_frozen hone hvalid⟩, ?_⟩
    obtain ⟨hleast, other, hother, hroute, hjudged⟩ := h.frozen key trial hone hvalid hscore
    have hwithin : selectedWithin atMost (selectedRoute routes (frozen key.caseId))
        (groupOf key (validMeasurements trials)) =
          some (heldoutValue atMost (frozen key.caseId) (groupOf key (holdoutMeasurements trials))) := by
      rw [selectedWithin_eq (h.scores key)]
      cases hfind : (groupOf key (validMeasurements trials)).find?
          (ofRoute (selectedRoute routes (frozen key.caseId))) with
      | none => exact absurd hroute (List.find?_eq_none.mp hfind other hother)
      | some selected =>
        have halike := h.selected key selected (List.mem_of_find?_eq_some hfind) other hother
          (List.find?_some hfind) hroute
        rw [Option.bind_some, halike.verdict_eq, hjudged.verdict_eq, hleast,
          heldoutValue_eq hone hvalid hscore]
    exact hwithin

theorem sound_of_lawful (h : ∀ atMost, Lawful atMost trials routes frozen) :
    Sound trials routes frozen := by
  have hgroup : ∀ atMost key, ∀ items : List ScoredTrial,
      items.Perm (groupOf key (validMeasurements trials)) →
      Ties atMost (selectedRoute routes (frozen key.caseId))
        (groupOf key (validMeasurements trials)) items := by
    intro atMost key items hitems
    obtain ⟨trials', hperm, rfl⟩ := exists_group_eq trials key hitems
    exact ((h atMost).orderless trials' hperm).2 key
  have hany := h fun _ _ => true
  have hscores : ∀ key, ScoresSettle (groupOf key (validMeasurements trials)) :=
    fun key => policy_least_iff.mp (hany.policy_least key)
  refine ⟨hscores, fun key => ?_, fun key trial htrial other hother hroute hroute' => ?_,
    fun key trial hone hvalid hscore => ?_⟩
  · exact latency_iff.mp
      ⟨hany.latency_least key, fun items hitems =>
        (hgroup (fun _ _ => true) key items hitems).latency⟩
  · refine judgedAlike_of_forall (fun hnone => ?_) fun atMost => (within_iff (hscores key)).mp
      (fun items hitems => (hgroup atMost key items hitems).within) trial htrial other hother hroute
        hroute'
    constructor
    · by_contra hscore
      obtain ⟨best, hbest⟩ := exists_leastScore htrial hscore
      exact absurd (hnone.symm.trans hbest) (Option.some_ne_none best).symm
    · by_contra hscore
      obtain ⟨best, hbest⟩ := exists_leastScore hother hscore
      exact absurd (hnone.symm.trans hbest) (Option.some_ne_none best).symm
  · -- the trial the report judges is the same for every comparison
    have hwithin : ∀ atMost, ((groupOf key (validMeasurements trials)).find?
        (ofRoute (selectedRoute routes (frozen key.caseId)))).bind (fun item =>
          verdict atMost (leastScore (groupOf key (validMeasurements trials))) item.policyScore) =
        verdict atMost (leastScore ((groupOf key (holdoutMeasurements trials)).filter
          (·.valid = some true))) trial.policyScore := by
      intro atMost
      rw [heldoutValue_eq hone hvalid hscore, ← selectedWithin_eq (hscores key)]
      exact ((h atMost).agrees key trial hone hvalid hscore).2
    obtain ⟨best, hbest⟩ := exists_leastScore (mem_of_single hone hvalid) hscore
    obtain ⟨score, hscore⟩ := Option.ne_none_iff_exists'.mp hscore
    simp only [hbest, hscore] at hwithin ⊢
    cases hfind : (groupOf key (validMeasurements trials)).find?
        (ofRoute (selectedRoute routes (frozen key.caseId))) with
    | none =>
      have hnone := hwithin fun _ _ => true
      rw [hfind] at hnone
      cases hnone
    | some other =>
      simp only [hfind, Option.bind_some] at hwithin
      have hother := List.mem_of_find?_eq_some hfind
      cases hother' : other.policyScore with
      | none =>
        have hnone := hwithin fun _ _ => true
        rw [hother'] at hnone
        cases hnone
      | some score' =>
        obtain ⟨least, hleast⟩ := exists_leastScore hother
          (by rw [hother']; exact Option.some_ne_none score')
        simp only [hother', hleast] at hwithin
        obtain ⟨rfl, hjudged⟩ := withinTenPercent_forall fun atMost => Option.some_inj.mp (hwithin atMost)
        exact ⟨hleast, other, hother, List.find?_some hfind, by rw [hother', hleast]; exact hjudged⟩

/-- A campaign that measures each route once at a position, in the routes it names, with positive
scores and times, and holds its cases out of the other phases. -/
theorem sound_of_campaign
    (hone : ∀ trial ∈ validMeasurements trials, ∀ other ∈ validMeasurements trials,
      trial.key = other.key → trial.routeId = other.routeId → trial = other)
    (hroutes : ∀ trial ∈ holdoutMeasurements trials, trial.routeId ∈ routes.map (·.routeId))
    (hphase : ∀ trial ∈ holdoutMeasurements trials, ∀ other ∈ validMeasurements trials,
      trial.key = other.key → other.phase = .holdout)
    (hscores : ∀ trial ∈ validMeasurements trials, trial.policyScore ≠ some 0)
    (htimes : ∀ trial ∈ validMeasurements trials, trial.wallTimeMs ≠ some 0) :
    Sound trials routes frozen := by
  have hvalid {key : OracleKey} {trial : ScoredTrial}
      (h : trial ∈ groupOf key (validMeasurements trials)) := (mem_groupOf.mp h).1
  refine ⟨fun key ⟨trial, htrial, hzero⟩ => absurd hzero (hscores trial (hvalid htrial)),
    fun key => ⟨fun _ ⟨trial, htrial, hzero⟩ => absurd hzero (htimes trial (hvalid htrial)),
      fun ⟨trial, htrial, hzero⟩ => absurd hzero (htimes trial (hvalid htrial))⟩,
    fun key trial htrial other hother hroute hroute' => ?_, fun key trial hsingle hok _ => ?_⟩
  · have hsame : some trial.routeId = some other.routeId :=
      (of_decide_eq_true hroute).trans (of_decide_eq_true hroute').symm
    have hkey := (mem_groupOf.mp htrial).2.trans (mem_groupOf.mp hother).2.symm
    rw [hone trial (hvalid htrial) other (hvalid hother) hkey (Option.some_inj.mp hsame)]
    exact .inl rfl
  · obtain ⟨hmem, hroute⟩ := List.mem_filter.mp (hsingle ▸ List.mem_singleton_self trial :
      trial ∈ (groupOf key (holdoutMeasurements trials)).filter (ofRoute (frozen key.caseId)))
    obtain ⟨hholdout, hkey⟩ := mem_groupOf.mp hmem
    have hselected : selectedRoute routes (frozen key.caseId) = some trial.routeId := by
      rw [← of_decide_eq_true hroute, selectedRoute, if_pos (hroutes trial hholdout)]
    refine ⟨leastScore_congr fun other => ?_, trial, mem_of_frozen hsingle hok,
      decide_eq_true hselected.symm, .inl rfl⟩
    constructor
    · intro hother
      obtain ⟨hmem', hkey'⟩ := mem_groupOf.mp hother
      have hphase' := hphase trial hholdout other hmem' (hkey.trans hkey'.symm)
      obtain ⟨heligible, hok'⟩ := List.mem_filter.mp hmem'
      exact List.mem_filter.mpr ⟨mem_groupOf.mpr
        ⟨List.mem_filter.mpr ⟨heligible, decide_eq_true hphase'⟩, hkey'⟩, hok'⟩
    · intro hother
      obtain ⟨hmem', hok'⟩ := List.mem_filter.mp hother
      obtain ⟨hin, hkey'⟩ := mem_groupOf.mp hmem'
      exact mem_groupOf.mpr ⟨List.mem_filter.mpr ⟨(List.mem_filter.mp hin).1, hok'⟩, hkey'⟩

/-! ## A zero score -/

theorem nonneg_of_none (time : ℚ) (h : none = some time) : 0 ≤ time :=
  absurd h (Option.some_ne_none time).symm

/-- Two routes of a holdout case, of which the free one scores a zero. -/
def holdoutTrial (route : String) (score : ℚ) : ScoredTrial where
  trialId := route
  caseId := "case"
  routeId := route
  condition := .processCold
  repetition := 0
  phase := .holdout
  ok := true
  valid := some true
  wallTimeMs := none
  actualResources := ⟨0, 0, 0, 0⟩
  accounting := ⟨⟨.unavailable, []⟩, [], []⟩
  hostModels := none
  correctnessFailed := none
  capabilityDiscovery := none
  cacheHitVerified := none
  policyScore := some score
  wallTime_nonneg := nonneg_of_none

def zeroScored : List ScoredTrial := [holdoutTrial "free" 0, holdoutTrial "paid" 1]

/-- The comparison with a tenth more, in exact arithmetic. -/
def tenthAbove (score oracle : ℚ) : Bool := score ≤ 11 / 10 * oracle

def caseKey : OracleKey := toLex ("case", toLex (.processCold, 0))

end AeepRouter.Benchmark

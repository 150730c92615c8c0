import AeepRouter.Benchmark.Runner

/-!
# Plans and identities

The plan of a suite is a permutation of its positions, by stages if it has stages. The id of a set-up
trial tells its route, its stage and its condition; the id of a trial does not always tell its
position, so that is a condition of its own (`DistinctIds`).
-/

namespace AeepRouter.Benchmark

open Lib

/-! ## Plans -/

section Plans

variable {env : Environment} {suite : BenchmarkSuite} {item a b : Planned}

theorem stageOrder_inj {split other : BenchmarkSplit} (h : split.stageOrder = other.stageOrder) :
    split = other := by
  cases split <;> cases other <;> first | rfl | cases h

theorem sortByStage_perm {α : Type} (case : α → BenchmarkCase) (items : List α) :
    (sortByStage case items).Perm items := List.perm_insertionSort _ items

theorem sortByStage_pairwise {α : Type} (case : α → BenchmarkCase) (items : List α) :
    (sortByStage case items).Pairwise fun a b =>
      (case a).split.stageOrder ≤ (case b).split.stageOrder := by
  have : Std.Total fun a b => (case a).split.stageOrder ≤ (case b).split.stageOrder :=
    ⟨fun _ _ => le_total _ _⟩
  have : IsTrans α fun a b => (case a).split.stageOrder ≤ (case b).split.stageOrder :=
    ⟨fun _ _ _ => le_trans⟩
  exact List.pairwise_insertionSort _ items

theorem mem_alternate {seen : List (BenchmarkSplit × TrialCondition)} {blocks : List Block} :
    item ∈ suite.alternate seen blocks ↔
      ∃ block ∈ blocks, ∃ route ∈ suite.routes, block.planned route = item := by
  induction blocks generalizing seen with
  | nil => simp [BenchmarkSuite.alternate]
  | cons block blocks ih =>
    have hroutes : ∀ route, route ∈ (if seen.count (block.case.split, block.condition) % 2 = 1 then
        suite.routes.reverse else suite.routes) ↔ route ∈ suite.routes := by
      intro route
      split
      · exact List.mem_reverse
      · exact Iff.rfl
    unfold BenchmarkSuite.alternate
    dsimp only
    rw [List.mem_append, List.mem_map, ih, List.exists_mem_cons_iff]
    simp only [hroutes]

theorem mem_planned : item ∈ suite.planned env ↔
    ∃ block ∈ suite.blocks, ∃ route ∈ suite.routes, block.planned route = item := by
  have hsort : item ∈ suite.planned env ↔ item ∈ (if suite.pairedOrder then suite.alternate []
      (if suite.sequentialStages then sortByStage (·.case) (env.shuffleBlocks suite.blocks)
        else env.shuffleBlocks suite.blocks)
      else env.shuffle (suite.blocks.flatMap fun block => suite.routes.map block.planned)) := by
    unfold BenchmarkSuite.planned
    dsimp only
    split
    · exact (sortByStage_perm _ _).mem_iff
    · exact Iff.rfl
  rw [hsort]
  split
  · rw [mem_alternate]
    refine exists_congr fun block => and_congr_left fun _ => ?_
    split
    · exact ((sortByStage_perm _ _).trans (env.shuffleBlocks_perm _)).mem_iff
    · exact (env.shuffleBlocks_perm _).mem_iff
  · rw [(env.shuffle_perm _).mem_iff, List.mem_flatMap]
    simp only [List.mem_map]

theorem mem_positions (env : Environment) {at_ : Position} :
    at_ ∈ suite.positions ↔ ∃ item ∈ suite.planned env, item.position = at_ := by
  simp only [BenchmarkSuite.positions, List.mem_flatMap, List.mem_map, mem_planned]
  constructor
  · rintro ⟨block, hblock, route, hroute, rfl⟩
    exact ⟨_, ⟨block, hblock, route, hroute, rfl⟩, rfl⟩
  · rintro ⟨_, ⟨block, hblock, route, hroute, rfl⟩, rfl⟩
    exact ⟨block, hblock, route, hroute, rfl⟩

theorem planned_pairwise (env : Environment) (h : suite.sequentialStages = true) :
    (suite.planned env).Pairwise fun a b => a.case.split.stageOrder ≤ b.case.split.stageOrder := by
  unfold BenchmarkSuite.planned
  dsimp only
  rw [if_pos h]
  exact sortByStage_pairwise Planned.case _

theorem case_mem (h : item ∈ suite.planned env) : item.case ∈ suite.cases := by
  obtain ⟨block, hblock, route, -, rfl⟩ := mem_planned.mp h
  simp only [BenchmarkSuite.blocks, List.mem_flatMap, List.mem_map] at hblock
  obtain ⟨case, hcase, _, _, _, _, rfl⟩ := hblock
  exact hcase

theorem eq_of_position (ha : a ∈ suite.planned env) (hb : b ∈ suite.planned env)
    (h : a.position = b.position) : a = b := by
  have hcase : a.case = b.case := List.inj_on_of_nodup_map suite.cases_nodup (case_mem ha)
    (case_mem hb) (congrArg Position.caseId h)
  obtain ⟨case, routeId, condition, repetition⟩ := a
  obtain ⟨_, _, _, _⟩ := b
  cases hcase
  cases h
  rfl

theorem eq_of_trial (ha : a ∈ suite.planned env) (hb : b ∈ suite.planned env)
    (h : a.trial suite = b.trial suite) : a = b := by
  have hposition : position (a.trial suite) = position (b.trial suite) := congrArg position h
  exact eq_of_position ha hb hposition

theorem phase_ne_setup (item : Planned) : (item.trial suite).phase ≠ .setup := by
  unfold Planned.trial Planned.newTrial BenchmarkSplit.phase
  dsimp only
  cases item.case.split <;> exact nofun

theorem phase_holdout : (item.trial suite).phase = .holdout ↔ item.case.split = .holdout := by
  unfold Planned.trial Planned.newTrial BenchmarkSplit.phase
  dsimp only
  cases item.case.split <;> simp

end Plans

/-! ## Identities -/

/-- Whether the ids of a suite tell its positions apart. -/
def DistinctIds (suite : BenchmarkSuite) : Prop :=
  ∀ at_ ∈ suite.positions, ∀ other ∈ suite.positions,
    suite.trialId at_ = suite.trialId other → at_ = other

instance (suite : BenchmarkSuite) : Decidable (DistinctIds suite) := by
  unfold DistinctIds
  infer_instance

/-- No suffix of a set-up id ends in another. -/
theorem setupSuffix_suffix {stage stage' : Option BenchmarkSplit} {condition condition' : TrialCondition}
    (hc : condition.cold = false) (hc' : condition'.cold = false)
    (h : (setupSuffix stage condition).toList <:+ (setupSuffix stage' condition').toList) :
    stage = stage' ∧ condition = condition' := by
  have hwarm : ∀ condition : TrialCondition, condition.cold = false →
      condition = .routerWarm ∨ condition = .reusedWorker := by
    intro condition h
    cases condition <;> first | exact .inl rfl | exact .inr rfl | cases h
  rcases hwarm condition hc with rfl | rfl <;> rcases hwarm condition' hc' with rfl | rfl <;>
    rcases stage with _ | stage <;> rcases stage' with _ | stage' <;>
    (try cases stage) <;> (try cases stage') <;> revert h <;> decide +kernel

/-- The id of a set-up trial tells its router and its stage. -/
theorem setupId_inj {env : Environment} {key key' : WorkerKey} {stage stage' : Option BenchmarkSplit}
    (hc : key.2.cold = false) (hc' : key'.2.cold = false)
    (h : setupId env key stage = setupId env key' stage') : key = key' ∧ stage = stage' := by
  obtain ⟨route, condition⟩ := key
  obtain ⟨route', condition'⟩ := key'
  unfold setupId at h
  have hlist := congrArg String.toList h
  simp only [String.toList_append, List.append_assoc, List.append_cancel_left_eq] at hlist
  have hsuffix : (setupSuffix stage condition).toList <:+ route'.toList ++
      (setupSuffix stage' condition').toList := ⟨route.toList, hlist⟩
  rcases List.suffix_or_suffix_of_suffix hsuffix (List.suffix_append _ _) with hs | hs
  · obtain ⟨rfl, rfl⟩ := setupSuffix_suffix hc hc' hs
    rw [List.append_cancel_right_eq] at hlist
    exact ⟨Prod.ext (String.toList_inj.mp hlist) rfl, rfl⟩
  · obtain ⟨rfl, rfl⟩ := setupSuffix_suffix hc' hc hs
    rw [List.append_cancel_right_eq] at hlist
    exact ⟨Prod.ext (String.toList_inj.mp hlist) rfl, rfl⟩

theorem setupId_ne_trialId {env : Environment} {suite : BenchmarkSuite} {key : WorkerKey}
    {stage : Option BenchmarkSplit} {at_ : Position} : setupId env key stage ≠ suite.trialId at_ := by
  intro h
  have hfirst := congrArg (fun id => id.toList.head?) h
  unfold setupId BenchmarkSuite.trialId at hfirst
  simp only [String.append_assoc, String.toList_append] at hfirst
  cases hfirst

end AeepRouter.Benchmark

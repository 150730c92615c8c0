import AeepRouter.Benchmark.Plan

/-!
# Turns of a run

What one turn of the loop adds to the store (`Started`), what the store of a runner shows between two
trials (`Stored`), and what a call that began with a store shows after some trials of the plan
(`Inside`).
-/

namespace AeepRouter.Benchmark

open Lib

/-! ## What a turn does -/

structure RowOf (row : TrialRow) (trial : BenchmarkTrial) : Prop where
  ended : row.state ≠ .running
  finished : ∃ result, row.trial = finish trial result

theorem RowOf.id_eq {row : TrialRow} {trial : BenchmarkTrial} (h : RowOf row trial) :
    row.trial.trialId = trial.trialId := by
  obtain ⟨_, hfinish⟩ := h.finished
  rw [hfinish]
  rfl

theorem RowOf.position_eq {row : TrialRow} {trial : BenchmarkTrial} (h : RowOf row trial) :
    position row.trial = position trial := by
  obtain ⟨_, hfinish⟩ := h.finished
  rw [hfinish]
  rfl

theorem RowOf.phase_eq {row : TrialRow} {trial : BenchmarkTrial} (h : RowOf row trial) :
    row.trial.phase = trial.phase := by
  obtain ⟨_, hfinish⟩ := h.finished
  rw [hfinish]
  rfl

theorem rowOf_completed (trial : BenchmarkTrial) (result : TrialResult) :
    RowOf (completedRow trial result) trial := by
  refine ⟨?_, result, rfl⟩
  unfold completedRow
  dsimp only
  split <;> exact nofun

section Effects

variable {env : Environment} {suite : BenchmarkSuite} {item : Planned} {call call' : Call}

/-- What claiming and executing a trial of the plan does, with the set-up of its router if need be. -/
structure Started (env : Environment) (suite : BenchmarkSuite) (item : Planned) (call call' : Call)
    (setups : List BenchmarkTrial) (rows : List TrialRow) : Prop where
  rows_of : List.Forall₂ RowOf rows (setups ++ [item.trial suite])
  executed : call'.executed = call.executed ++ (setups ++ [item.trial suite])
  trials : ∀ row, row ∈ call'.trials ↔ row ∈ call.trials ∨ row ∈ rows
  reported : call'.reported = call.reported ++ rows.map (·.trial)
  previousSplit : call'.previousSplit = call.previousSplit
  warmed : setups = [] ∧ (item.condition.cold = true ∨ item.workerKey ∈ call.warmed) ∧
      call'.warmed = call.warmed ∨
    setups = [item.setup env suite] ∧ item.condition.cold = false ∧
      call.trials.find? (item.setup env suite).trialId = none ∧
      call'.warmed = item.workerKey :: call.warmed

@[simp] theorem screen_database (routeId : String) (trial : BenchmarkTrial) (call : Call) :
    (screen routeId trial call).toDatabase = call.toDatabase := by
  unfold screen
  split <;> rfl

@[simp] theorem screen_reported (routeId : String) (trial : BenchmarkTrial) (call : Call) :
    (screen routeId trial call).reported = call.reported := by
  unfold screen
  split <;> rfl

@[simp] theorem screen_previousSplit (routeId : String) (trial : BenchmarkTrial) (call : Call) :
    (screen routeId trial call).previousSplit = call.previousSplit := by
  unfold screen
  split <;> rfl

@[simp] theorem screen_warmed (routeId : String) (trial : BenchmarkTrial) (call : Call) :
    (screen routeId trial call).warmed = call.warmed := by
  unfold screen
  split <;> rfl

theorem claimTrial_ok {trial : BenchmarkTrial} : claimTrial trial call = .ok call' ↔
    call.trials.find? trial.trialId = none ∧
      call' = { call with trials := call.trials.insert ⟨trial, .running⟩ } := by
  unfold claimTrial
  simp only [bind_ok, raiseIf_ok, exists_const, pure_ok, Bool.not_eq_true, Option.isSome_eq_false_iff,
    Option.isNone_iff_eq_none]
  exact and_congr_right fun _ => eq_comm

theorem mem_executed {trial : BenchmarkTrial} {result : TrialResult}
    {table : Table TrialRow TrialRow.id} (h : table.find? trial.trialId = none) (row : TrialRow) :
    row ∈ (table.insert ⟨trial, .running⟩).put (completedRow trial result) ↔
      row ∈ table ∨ row = completedRow trial result := by
  rw [Table.mem_put, Table.mem_insert h]
  have hold : row ∈ table → row.id ≠ trial.trialId := Table.find?_eq_none.mp h row
  constructor
  · rintro (rfl | ⟨hrow | rfl, hne⟩)
    · exact .inr rfl
    · exact .inl hrow
    · exact absurd rfl hne
  · rintro (hrow | rfl)
    · exact .inr ⟨.inl hrow, hold hrow⟩
    · exact .inl rfl

theorem setup_ne_trial : (item.setup env suite).trialId ≠ (item.trial suite).trialId :=
  setupId_ne_trialId

theorem start_ok (h : start env suite item call = .ok call') :
    call.trials.find? (item.trial suite).trialId = none ∧
      ∃ setups rows, Started env suite item call call' setups rows := by
  unfold start at h
  simp only [bind_ok, pure_ok] at h
  obtain ⟨claimed, hclaim, warm, hwarm, rfl⟩ := h
  obtain ⟨hfresh, rfl⟩ := claimTrial_ok.mp hclaim
  refine ⟨hfresh, ?_⟩
  unfold warmUp at hwarm
  split at hwarm
  next hkept =>
    cases hwarm
    refine ⟨[], [completedRow (item.trial suite) (env.execute call.executed.length (item.trial suite))],
      ⟨.cons (rowOf_completed _ _) .nil, ?_, fun row => ?_, ?_, ?_, .inl ⟨rfl, hkept, ?_⟩⟩⟩
    · simp [executeTrial]
    · rw [screen_database, List.mem_singleton]
      exact mem_executed hfresh row
    · simp [executeTrial, completedRow]
    · simp [executeTrial]
    · simp [executeTrial]
  next hkept =>
    obtain ⟨setUp, hsetUp, rfl⟩ := map_ok.mp hwarm
    obtain ⟨hfree, rfl⟩ := claimTrial_ok.mp hsetUp
    rw [not_or, Bool.not_eq_true] at hkept
    dsimp only at hfree
    have hunused : call.trials.find? (item.setup env suite).trialId = none := by
      rw [Table.find?_insert hfresh] at hfree
      split at hfree
      next => cases hfree
      next => exact hfree
    have hne : ∀ row, row ∈ call.trials → row.id ≠ (item.trial suite).trialId :=
      Table.find?_eq_none.mp hfresh
    have hlength : (call.executed ++ [item.setup env suite]).length = call.executed.length + 1 := by
      rw [List.length_append, List.length_singleton]
    refine ⟨[item.setup env suite],
      [completedRow (item.setup env suite) (env.execute call.executed.length (item.setup env suite)),
        completedRow (item.trial suite)
          (env.execute (call.executed.length + 1) (item.trial suite))],
      ⟨.cons (rowOf_completed _ _) (.cons (rowOf_completed _ _) .nil), ?_, fun row => ?_, ?_, ?_,
        .inr ⟨rfl, hkept.1, hunused, ?_⟩⟩⟩
    · simp [executeTrial]
    · rw [screen_database]
      simp only [executeTrial, hlength]
      rw [Table.mem_put, mem_executed hfree, Table.mem_insert hfresh]
      constructor
      · rintro (rfl | ⟨(hrow | rfl) | rfl, hid⟩)
        · exact .inr (List.mem_cons_of_mem _ List.mem_cons_self)
        · exact .inl hrow
        · exact absurd rfl hid
        · exact .inr List.mem_cons_self
      · rintro (hrow | hrow)
        · exact .inr ⟨.inl (.inl hrow), hne row hrow⟩
        · rcases List.mem_pair.mp hrow with rfl | rfl
          · exact .inr ⟨.inr rfl, setup_ne_trial⟩
          · exact .inl rfl
    · simp [executeTrial, completedRow]
    · simp [executeTrial]
    · simp [executeTrial]

/-- A trial is not refused when the set-up of its router, if need be, is not. -/
theorem start_isOk (hfresh : call.trials.find? (item.trial suite).trialId = none)
    (hfree : item.condition.cold = true ∨ item.workerKey ∈ call.warmed ∨
      call.trials.find? (item.setup env suite).trialId = none) :
    ∃ call', start env suite item call = .ok call' := by
  have hwarm : ∃ warm, warmUp env suite item
      { call with trials := call.trials.insert ⟨item.trial suite, .running⟩ } = .ok warm := by
    unfold warmUp
    split
    next => exact ⟨_, rfl⟩
    next hkept =>
      rw [not_or, Bool.not_eq_true] at hkept
      rcases hfree with hcold | hwarmed | hfree
      · exact absurd hcold (by rw [hkept.1]; exact Bool.false_ne_true)
      · exact absurd hwarmed hkept.2
      · refine ⟨_, map_ok.mpr ⟨_, claimTrial_ok.mpr ⟨?_, rfl⟩, rfl⟩⟩
        dsimp only
        rw [Table.find?_insert hfresh]
        exact (if_neg setup_ne_trial).trans hfree
  obtain ⟨warm, hwarm⟩ := hwarm
  unfold start
  exact ⟨_, bind_ok.mpr ⟨_, claimTrial_ok.mpr ⟨hfresh, rfl⟩, bind_ok.mpr ⟨warm, hwarm, rfl⟩⟩⟩

end Effects

/-! ## Stores -/

section Stores

variable {env : Environment} {suite : BenchmarkSuite}

def Database.ids (db : Database) : List String := db.executed.map (·.trialId)

/-- What the store of a runner shows between two trials. -/
structure Stored (env : Environment) (suite : BenchmarkSuite) (db : Database) : Prop where
  of_row : ∀ row ∈ db.trials, ∃ trial ∈ db.executed, RowOf row trial
  of_trial : ∀ trial ∈ db.executed, ∃ row ∈ db.trials, RowOf row trial
  nodup : db.ids.Nodup
  kinds : ∀ trial ∈ db.executed, ∃ item ∈ suite.planned env, item.trial suite ∈ db.executed ∧
    (trial = item.trial suite ∨ item.condition.cold = false ∧ trial = item.setup env suite)
  warmed : ∀ item ∈ suite.planned env, item.condition.cold = false →
    item.trial suite ∈ db.executed → setupId env item.workerKey (item.stage suite) ∈ db.ids

variable {db : Database}

theorem Stored.empty : Stored env suite ⟨∅, []⟩ := by
  refine ⟨fun _ h => absurd h Table.not_mem_empty, ?_, List.nodup_nil, ?_, ?_⟩ <;>
    intros <;> simp_all

theorem Stored.find?_eq_none (h : Stored env suite db) {id : String} :
    db.trials.find? id = none ↔ id ∉ db.ids := by
  rw [Table.find?_eq_none]
  constructor
  · intro hnone hid
    obtain ⟨trial, htrial, rfl⟩ := List.mem_map.mp hid
    obtain ⟨row, hrow, hof⟩ := h.of_trial trial htrial
    exact hnone row hrow hof.id_eq
  · rintro hid row hrow rfl
    obtain ⟨trial, htrial, hof⟩ := h.of_row row hrow
    exact hid (List.mem_map.mpr ⟨trial, htrial, hof.id_eq.symm⟩)

theorem Stored.of_trialId (h : Stored env suite db) {at_ : Position} (hid : suite.trialId at_ ∈ db.ids) :
    ∃ item ∈ suite.planned env, item.trial suite ∈ db.executed ∧
      suite.trialId item.position = suite.trialId at_ := by
  obtain ⟨trial, htrial, heq⟩ := List.mem_map.mp hid
  obtain ⟨item, hitem, hin, rfl | ⟨-, rfl⟩⟩ := h.kinds trial htrial
  · exact ⟨item, hitem, hin, heq⟩
  · exact absurd heq setupId_ne_trialId

theorem Stored.of_setupId (h : Stored env suite db) {key : WorkerKey} {stage : Option BenchmarkSplit}
    (hc : key.2.cold = false) (hid : setupId env key stage ∈ db.ids) :
    ∃ item ∈ suite.planned env, item.trial suite ∈ db.executed ∧ item.condition.cold = false ∧
      item.setup env suite ∈ db.executed ∧ item.workerKey = key ∧ item.stage suite = stage := by
  obtain ⟨trial, htrial, heq⟩ := List.mem_map.mp hid
  obtain ⟨item, hitem, hin, rfl | ⟨hcold, rfl⟩⟩ := h.kinds trial htrial
  · exact absurd heq.symm setupId_ne_trialId
  · obtain ⟨hkey, hstage⟩ := setupId_inj (show item.workerKey.2.cold = false from hcold) hc heq
    exact ⟨item, hitem, hin, hcold, htrial, hkey, hstage⟩

theorem Stored.mem_executed (h : Stored env suite db) (hd : DistinctIds suite) {item : Planned}
    (hitem : item ∈ suite.planned env) (hid : suite.trialId item.position ∈ db.ids) :
    item.trial suite ∈ db.executed := by
  obtain ⟨other, hother, hin, heq⟩ := h.of_trialId hid
  have hposition := hd _ ((mem_positions env).mpr ⟨other, hother, rfl⟩) _
    ((mem_positions env).mpr ⟨item, hitem, rfl⟩) heq
  rw [← eq_of_position hother hitem hposition]
  exact hin

end Stores

end AeepRouter.Benchmark

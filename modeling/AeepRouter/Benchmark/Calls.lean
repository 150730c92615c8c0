import AeepRouter.Benchmark.Turns

/-!
# Calls of a run

`Inside` is what a call that began with a store shows after some trials of the plan. A turn keeps it
(`Inside.turn`), and does not fail when the set-up of its router is not one of an earlier call
(`Inside.turn_isOk`).
-/

namespace AeepRouter.Benchmark

open Lib

section Calls

variable {env : Environment} {suite : BenchmarkSuite} {db : Database} {visited : List Planned}
  {call call' : Call} {item : Planned}

/-- The stage of a call is that of the last trial it visited. -/
structure AtStage (suite : BenchmarkSuite) (visited : List Planned) (call : Call) : Prop where
  unstaged : suite.sequentialStages = false → call.previousSplit = none
  reached : ∀ split, call.previousSplit = some split → ∃ item ∈ visited, item.case.split = split
  latest : suite.sequentialStages = true → ∀ item ∈ visited, ∃ split,
    call.previousSplit = some split ∧ item.case.split.stageOrder ≤ split.stageOrder

/-- What a call that began with a store shows after some trials of the plan. -/
structure Inside (env : Environment) (suite : BenchmarkSuite) (db : Database)
    (visited : List Planned) (call : Call) : Prop where
  stored : Stored env suite call.toDatabase
  grows : ∃ added, call.executed = db.executed ++ added
  visited_ids : ∀ item ∈ visited, suite.trialId item.position ∈ call.ids
  added : ∀ item ∈ suite.planned env, item.trial suite ∈ call.executed →
    item.trial suite ∈ db.executed ∨ item ∈ visited
  warm : ∀ key ∈ call.warmed, key.2.cold = false ∧
    setupId env key call.previousSplit ∈ call.ids ∧ setupId env key call.previousSplit ∉ db.ids
  setups : ∀ item ∈ suite.planned env, item.condition.cold = false →
    item.setup env suite ∈ call.executed → item.setup env suite ∉ db.executed →
    item.stage suite = call.previousSplit → item.workerKey ∈ call.warmed
  staged : ∀ item ∈ suite.planned env, item.condition.cold = false →
    item.setup env suite ∈ call.executed → item.setup env suite ∉ db.executed →
    ∃ other ∈ visited, other.stage suite = item.stage suite
  fresh : ∀ item ∈ suite.planned env, item.condition.cold = false →
    item.trial suite ∈ call.executed → item.trial suite ∉ db.executed →
    setupId env item.workerKey (item.stage suite) ∉ db.ids
  reported_rows : ∀ trial ∈ call.reported, ∃ row ∈ call.trials, row.trial = trial
  listed : ∀ item ∈ visited, ∃ trial ∈ call.reported, trial.trialId = suite.trialId item.position

theorem Inside.start (h : Stored env suite db) : Inside env suite db [] (Call.start db) where
  stored := h
  grows := ⟨[], (List.append_nil _).symm⟩
  visited_ids _ h := absurd h List.not_mem_nil
  added _ _ h := .inl h
  warm _ h := absurd h List.not_mem_nil
  setups _ _ _ h hnot := absurd h hnot
  staged _ _ _ h hnot := absurd h hnot
  fresh _ _ _ h hnot := absurd h hnot
  reported_rows _ h := absurd h List.not_mem_nil
  listed _ h := absurd h List.not_mem_nil

theorem AtStage.start : AtStage suite [] (Call.start db) where
  unstaged _ := rfl
  reached _ h := nomatch h
  latest _ _ h := absurd h List.not_mem_nil

/-! ## Entering a stage -/

@[simp] theorem enterStage_database : (enterStage suite item call).toDatabase = call.toDatabase := by
  unfold enterStage
  split <;> rfl

@[simp] theorem enterStage_reported : (enterStage suite item call).reported = call.reported := by
  unfold enterStage
  split <;> rfl

theorem enterStage_previousSplit (item : Planned) (hs : AtStage suite visited call) :
    (enterStage suite item call).previousSplit = item.stage suite := by
  unfold enterStage Planned.stage
  cases hstages : suite.sequentialStages with
  | false =>
    rw [if_neg (fun h => Bool.false_ne_true h.1), if_neg Bool.false_ne_true]
    exact hs.unstaged hstages
  | true =>
    rw [if_pos rfl]
    split
    next => rfl
    next h => exact not_not.mp fun hne => h ⟨rfl, hne⟩

theorem AtStage.enter (hs : AtStage suite visited call)
    (hsorted : suite.sequentialStages = true →
      ∀ other ∈ visited, other.case.split.stageOrder ≤ item.case.split.stageOrder) :
    AtStage suite (visited ++ [item]) (enterStage suite item call) := by
  have hsplit := enterStage_previousSplit item hs
  refine ⟨fun hstages => ?_, fun split h => ?_, fun hstages other hother => ?_⟩
  · rw [hsplit, Planned.stage, hstages]
    rfl
  · refine ⟨item, List.mem_append_right _ List.mem_cons_self, ?_⟩
    rw [hsplit, Planned.stage] at h
    split at h
    next => exact Option.some_inj.mp h
    next => cases h
  · refine ⟨item.case.split, by rw [hsplit, Planned.stage, if_pos hstages], ?_⟩
    rcases List.mem_append.mp hother with hother | hother
    · exact hsorted hstages other hother
    · rw [List.mem_singleton.mp hother]

theorem Inside.enter (h : Inside env suite db visited call) (hs : AtStage suite visited call)
    (hsorted : suite.sequentialStages = true →
      ∀ other ∈ visited, other.case.split.stageOrder ≤ item.case.split.stageOrder) :
    Inside env suite db visited (enterStage suite item call) := by
  have hdb : (enterStage suite item call).toDatabase = call.toDatabase := enterStage_database
  have hexecuted : (enterStage suite item call).executed = call.executed :=
    congrArg Database.executed hdb
  by_cases hsame : call.previousSplit = item.stage suite
  · have henter : enterStage suite item call = call := by
      unfold enterStage
      refine if_neg fun ⟨hstages, hne⟩ => hne ?_
      rw [hsame, Planned.stage, if_pos hstages]
    rw [henter]
    exact h
  · have hstages : suite.sequentialStages = true := by
      by_contra hstages
      rw [Bool.not_eq_true] at hstages
      refine hsame ((hs.unstaged hstages).trans ?_)
      rw [Planned.stage, hstages]
      rfl
    have hwarmed : (enterStage suite item call).warmed = [] := by
      have hne : call.previousSplit ≠ some item.case.split := by
        rw [Planned.stage, if_pos hstages] at hsame
        exact hsame
      unfold enterStage
      rw [if_pos ⟨hstages, hne⟩]
    -- no trial of the new stage was visited before
    have hnew : ∀ other ∈ visited, other.stage suite ≠ item.stage suite := by
      intro other hother heq
      obtain ⟨split, hprevious, hle⟩ := hs.latest hstages other hother
      obtain ⟨last, hlast, rfl⟩ := hs.reached split hprevious
      rw [Planned.stage, Planned.stage, if_pos hstages, if_pos hstages, Option.some_inj] at heq
      refine hsame (hprevious.trans ?_)
      rw [Planned.stage, if_pos hstages, Option.some_inj]
      exact stageOrder_inj (le_antisymm (hsorted hstages last hlast) (heq ▸ hle))
    constructor
    · exact hdb ▸ h.stored
    · exact hexecuted ▸ h.grows
    · rw [hdb]
      exact h.visited_ids
    · rw [hexecuted]
      exact h.added
    · rw [hwarmed]
      exact fun _ hkey => absurd hkey List.not_mem_nil
    · intro other hother hcold hin hnot hstage
      rw [hexecuted] at hin
      obtain ⟨seen, hseen, heq⟩ := h.staged other hother hcold hin hnot
      refine absurd (heq.trans hstage) ?_
      rw [enterStage_previousSplit item hs]
      exact hnew seen hseen
    · rw [hexecuted]
      exact h.staged
    · rw [hexecuted]
      exact h.fresh
    · rw [enterStage_reported, hdb]
      exact h.reported_rows
    · rw [enterStage_reported]
      exact h.listed

/-! ## A turn -/

theorem Inside.ids_subset (h : Inside env suite db visited call) {id : String} (hid : id ∈ db.ids) :
    id ∈ call.ids := by
  obtain ⟨added, hadded⟩ := h.grows
  unfold Database.ids at hid ⊢
  rw [hadded, List.map_append]
  exact List.mem_append_left _ hid

theorem forall₂_mem_left {rows : List TrialRow} {trials : List BenchmarkTrial}
    (h : List.Forall₂ RowOf rows trials) {row : TrialRow} (hrow : row ∈ rows) :
    ∃ trial ∈ trials, RowOf row trial := by
  induction h with
  | nil => exact absurd hrow List.not_mem_nil
  | cons hof _ ih =>
    rcases List.mem_cons.mp hrow with rfl | hrow
    · exact ⟨_, List.mem_cons_self, hof⟩
    · obtain ⟨trial, htrial, hof⟩ := ih hrow
      exact ⟨trial, List.mem_cons_of_mem _ htrial, hof⟩

theorem forall₂_mem_right {rows : List TrialRow} {trials : List BenchmarkTrial}
    (h : List.Forall₂ RowOf rows trials) {trial : BenchmarkTrial} (htrial : trial ∈ trials) :
    ∃ row ∈ rows, RowOf row trial := by
  induction h with
  | nil => exact absurd htrial List.not_mem_nil
  | cons hof _ ih =>
    rcases List.mem_cons.mp htrial with rfl | htrial
    · exact ⟨_, List.mem_cons_self, hof⟩
    · obtain ⟨row, hrow, hof⟩ := ih htrial
      exact ⟨row, List.mem_cons_of_mem _ hrow, hof⟩

section Started

variable {setups : List BenchmarkTrial} {rows : List TrialRow}

theorem Started.ids (hst : Started env suite item call call' setups rows) :
    call'.ids = call.ids ++ (setups ++ [item.trial suite]).map (·.trialId) := by
  unfold Database.ids
  rw [hst.executed, List.map_append]

/-- What a turn adds is the trial, and perhaps the set-up of its router. -/
theorem Started.mem (hst : Started env suite item call call' setups rows) {trial : BenchmarkTrial} :
    trial ∈ call'.executed ↔ trial ∈ call.executed ∨ trial ∈ setups ∨ trial = item.trial suite := by
  rw [hst.executed, List.mem_append, List.mem_append, List.mem_singleton]

theorem Started.setup (hst : Started env suite item call call' setups rows) {trial : BenchmarkTrial}
    (h : trial ∈ setups) : trial = item.setup env suite ∧ item.condition.cold = false ∧
      call.trials.find? (item.setup env suite).trialId = none ∧
      call'.warmed = item.workerKey :: call.warmed := by
  rcases hst.warmed with ⟨rfl, -⟩ | ⟨rfl, hcold, hfree, hwarmed⟩
  · exact absurd h List.not_mem_nil
  · exact ⟨List.mem_singleton.mp h, hcold, hfree, hwarmed⟩

theorem Started.trial_mem (hst : Started env suite item call call' setups rows)
    (hitem : item ∈ suite.planned env) {other : Planned} (hother : other ∈ suite.planned env)
    (h : other.trial suite ∈ call'.executed) : other.trial suite ∈ call.executed ∨ other = item := by
  rcases hst.mem.mp h with hold | hsetup | heq
  · exact .inl hold
  · exact absurd (congrArg (·.phase) (hst.setup hsetup).1) (phase_ne_setup other)
  · exact .inr (eq_of_trial hother hitem heq)

theorem Started.setup_mem (hst : Started env suite item call call' setups rows) {other : Planned}
    (hcold : other.condition.cold = false) (h : other.setup env suite ∈ call'.executed) :
    other.setup env suite ∈ call.executed ∨ call'.warmed = item.workerKey :: call.warmed ∧
      other.workerKey = item.workerKey ∧ other.stage suite = item.stage suite := by
  rcases hst.mem.mp h with hold | hsetup | heq
  · exact .inl hold
  · obtain ⟨heq, hcold', -, hwarmed⟩ := hst.setup hsetup
    obtain ⟨hkey, hstage⟩ := setupId_inj (show other.workerKey.2.cold = false from hcold)
      (show item.workerKey.2.cold = false from hcold') (congrArg (·.trialId) heq)
    exact .inr ⟨hwarmed, hkey, hstage⟩
  · exact absurd (congrArg (·.phase) heq).symm (phase_ne_setup item)

/-- The router of a trial kept warm is set up, by the call itself. -/
theorem Inside.set_up (h : Inside env suite db visited call)
    (hst : Started env suite item call call' setups rows) (hsplit : call.previousSplit = item.stage suite)
    (hcold : item.condition.cold = false) :
    setupId env item.workerKey (item.stage suite) ∈ call'.ids ∧
      setupId env item.workerKey (item.stage suite) ∉ db.ids := by
  rcases hst.warmed with ⟨-, hkept, -⟩ | ⟨hsetups, -, hfree, -⟩
  · rcases hkept with hc | hwarm
    · rw [hcold] at hc
      cases hc
    · obtain ⟨-, hin, hnot⟩ := h.warm _ hwarm
      rw [hsplit] at hin hnot
      exact ⟨hst.ids ▸ List.mem_append_left _ hin, hnot⟩
  · refine ⟨?_, fun hin => h.stored.find?_eq_none.mp hfree (h.ids_subset hin)⟩
    rw [hst.ids, hsetups]
    exact List.mem_append_right _ List.mem_cons_self

theorem Inside.stored_started (h : Inside env suite db visited call)
    (hst : Started env suite item call call' setups rows) (hitem : item ∈ suite.planned env)
    (hsplit : call.previousSplit = item.stage suite)
    (hfresh : call.trials.find? (item.trial suite).trialId = none) :
    Stored env suite call'.toDatabase where
  of_row row hrow := by
    rcases (hst.trials row).mp hrow with hrow | hrow
    · obtain ⟨trial, htrial, hof⟩ := h.stored.of_row row hrow
      exact ⟨trial, hst.mem.mpr (.inl htrial), hof⟩
    · obtain ⟨trial, htrial, hof⟩ := forall₂_mem_left hst.rows_of hrow
      exact ⟨trial, hst.executed ▸ List.mem_append_right _ htrial, hof⟩
  of_trial trial htrial := by
    rw [hst.executed] at htrial
    rcases List.mem_append.mp htrial with htrial | htrial
    · obtain ⟨row, hrow, hof⟩ := h.stored.of_trial trial htrial
      exact ⟨row, (hst.trials row).mpr (.inl hrow), hof⟩
    · obtain ⟨row, hrow, hof⟩ := forall₂_mem_right hst.rows_of htrial
      exact ⟨row, (hst.trials row).mpr (.inr hrow), hof⟩
  nodup := by
    have hnew : (item.trial suite).trialId ∉ call.ids := h.stored.find?_eq_none.mp hfresh
    rw [hst.ids]
    rcases hst.warmed with ⟨rfl, -⟩ | ⟨rfl, -, hfree, -⟩
    · refine List.Nodup.append h.stored.nodup (List.nodup_singleton _) ?_
      exact List.disjoint_singleton.mpr hnew
    · have hfree' : (item.setup env suite).trialId ∉ call.ids := h.stored.find?_eq_none.mp hfree
      refine List.Nodup.append h.stored.nodup ?_ ?_
      · exact List.nodup_cons.mpr ⟨fun heq => setup_ne_trial (List.mem_singleton.mp heq),
          List.nodup_singleton _⟩
      · intro id hid hin
        rcases List.mem_pair.mp hin with rfl | rfl
        · exact hfree' hid
        · exact hnew hid
  kinds trial htrial := by
    have hlast : item.trial suite ∈ call'.executed := hst.mem.mpr (.inr (.inr rfl))
    rcases hst.mem.mp htrial with hold | hsetup | rfl
    · obtain ⟨other, hother, hin, hkind⟩ := h.stored.kinds trial hold
      exact ⟨other, hother, hst.mem.mpr (.inl hin), hkind⟩
    · obtain ⟨heq, hcold, -, -⟩ := hst.setup hsetup
      exact ⟨item, hitem, hlast, .inr ⟨hcold, heq⟩⟩
    · exact ⟨item, hitem, hlast, .inl rfl⟩
  warmed other hother hcold hin := by
    rcases hst.trial_mem hitem hother hin with hold | rfl
    · exact hst.ids ▸ List.mem_append_left _ (h.stored.warmed other hother hcold hold)
    · exact (h.set_up hst hsplit hcold).1

theorem Inside.started (h : Inside env suite db visited call)
    (hst : Started env suite item call call' setups rows) (hitem : item ∈ suite.planned env)
    (hsplit : call.previousSplit = item.stage suite)
    (hfresh : call.trials.find? (item.trial suite).trialId = none) :
    Inside env suite db (visited ++ [item]) call' where
  stored := h.stored_started hst hitem hsplit hfresh
  grows := by
    obtain ⟨added, hadded⟩ := h.grows
    exact ⟨added ++ (setups ++ [item.trial suite]), by rw [hst.executed, hadded, List.append_assoc]⟩
  visited_ids other hother := by
    rw [hst.ids]
    rcases List.mem_append.mp hother with hother | hother
    · exact List.mem_append_left _ (h.visited_ids other hother)
    · rw [List.mem_singleton.mp hother, List.map_append]
      exact List.mem_append_right _ (List.mem_append_right _ List.mem_cons_self)
  added other hother hin := by
    rcases hst.trial_mem hitem hother hin with hold | rfl
    · exact (h.added other hother hold).imp_right (List.mem_append_left _)
    · exact .inr (List.mem_append_right _ List.mem_cons_self)
  warm key hkey := by
    have hold : ∀ key ∈ call.warmed, key.2.cold = false ∧
        setupId env key call'.previousSplit ∈ call'.ids ∧
        setupId env key call'.previousSplit ∉ db.ids := by
      intro key hkey
      obtain ⟨hcold, hin, hnot⟩ := h.warm key hkey
      rw [hst.previousSplit, hst.ids]
      exact ⟨hcold, List.mem_append_left _ hin, hnot⟩
    rcases hst.warmed with ⟨-, -, hsame⟩ | ⟨-, hcold, -, hwarmed⟩
    · exact hold key (hsame ▸ hkey)
    · rw [hwarmed] at hkey
      rcases List.mem_cons.mp hkey with rfl | hkey
      · rw [hst.previousSplit, hsplit]
        exact ⟨hcold, h.set_up hst hsplit hcold⟩
      · exact hold key hkey
  setups other hother hcold hin hnot hstage := by
    have hsubset : ∀ key ∈ call.warmed, key ∈ call'.warmed := by
      intro key hkey
      rcases hst.warmed with ⟨-, -, hsame⟩ | ⟨-, -, -, hwarmed⟩
      · exact hsame ▸ hkey
      · exact hwarmed ▸ List.mem_cons_of_mem _ hkey
    rcases hst.setup_mem hcold hin with hold | ⟨hwarmed, hkey, -⟩
    · exact hsubset _ (h.setups other hother hcold hold hnot (hstage.trans hst.previousSplit))
    · rw [hwarmed, hkey]
      exact List.mem_cons_self
  staged other hother hcold hin hnot := by
    rcases hst.setup_mem hcold hin with hold | ⟨-, -, hstage⟩
    · obtain ⟨seen, hseen, heq⟩ := h.staged other hother hcold hold hnot
      exact ⟨seen, List.mem_append_left _ hseen, heq⟩
    · exact ⟨item, List.mem_append_right _ List.mem_cons_self, hstage.symm⟩
  fresh other hother hcold hin hnot := by
    rcases hst.trial_mem hitem hother hin with hold | rfl
    · exact h.fresh other hother hcold hold hnot
    · exact (h.set_up hst hsplit hcold).2
  reported_rows trial htrial := by
    rw [hst.reported] at htrial
    rcases List.mem_append.mp htrial with htrial | htrial
    · obtain ⟨row, hrow, heq⟩ := h.reported_rows trial htrial
      exact ⟨row, (hst.trials row).mpr (.inl hrow), heq⟩
    · obtain ⟨row, hrow, heq⟩ := List.mem_map.mp htrial
      exact ⟨row, (hst.trials row).mpr (.inr hrow), heq⟩
  listed other hother := by
    rw [hst.reported]
    rcases List.mem_append.mp hother with hother | hother
    · obtain ⟨trial, htrial, heq⟩ := h.listed other hother
      exact ⟨trial, List.mem_append_left _ htrial, heq⟩
    · rw [List.mem_singleton.mp hother]
      obtain ⟨row, hrow, hof⟩ := forall₂_mem_right hst.rows_of
        (List.mem_append_right setups (List.mem_singleton_self (item.trial suite)))
      exact ⟨row.trial, List.mem_append_right _ (List.mem_map_of_mem hrow), hof.id_eq⟩

end Started

theorem Inside.resumed (h : Inside env suite db visited call) {row : TrialRow}
    (hrow : call.trials.find? (suite.trialId item.position) = some row)
    (hdb : call'.toDatabase = call.toDatabase) (hreported : call'.reported = call.reported ++ [row.trial])
    (hsplit : call'.previousSplit = call.previousSplit) (hwarmed : call'.warmed = call.warmed) :
    Inside env suite db (visited ++ [item]) call' := by
  have hid : suite.trialId item.position ∈ call.ids := by
    by_contra hnot
    rw [h.stored.find?_eq_none.mpr hnot] at hrow
    cases hrow
  have hexecuted : call'.executed = call.executed := congrArg Database.executed hdb
  constructor
  · exact hdb ▸ h.stored
  · exact hexecuted ▸ h.grows
  · rw [hdb]
    intro other hother
    rcases List.mem_append.mp hother with hother | hother
    · exact h.visited_ids other hother
    · exact List.mem_singleton.mp hother ▸ hid
  · rw [hexecuted]
    exact fun other hother hin => (h.added other hother hin).imp_right (List.mem_append_left _)
  · rw [hdb, hsplit, hwarmed]
    exact h.warm
  · rw [hexecuted, hsplit, hwarmed]
    exact h.setups
  · rw [hexecuted]
    intro other hother hcold hin hnot
    obtain ⟨seen, hseen, heq⟩ := h.staged other hother hcold hin hnot
    exact ⟨seen, List.mem_append_left _ hseen, heq⟩
  · rw [hexecuted]
    exact h.fresh
  · rw [hdb, hreported]
    intro trial htrial
    rcases List.mem_append.mp htrial with htrial | htrial
    · exact h.reported_rows trial htrial
    · exact ⟨row, Table.mem_of_find? hrow, (List.mem_singleton.mp htrial).symm⟩
  · rw [hreported]
    intro other hother
    rcases List.mem_append.mp hother with hother | hother
    · obtain ⟨trial, htrial, heq⟩ := h.listed other hother
      exact ⟨trial, List.mem_append_left _ htrial, heq⟩
    · rw [List.mem_singleton.mp hother]
      have hkey : row.id = suite.trialId item.position := Table.key_of_find? hrow
      exact ⟨row.trial, List.mem_append_right _ List.mem_cons_self, hkey⟩

theorem sorted_before {rest : List Planned} (hplan : suite.planned env = visited ++ item :: rest)
    (hstages : suite.sequentialStages = true) :
    ∀ other ∈ visited, other.case.split.stageOrder ≤ item.case.split.stageOrder := by
  have hpairwise := planned_pairwise env hstages
  rw [hplan, List.pairwise_append] at hpairwise
  exact fun other hother => hpairwise.2.2 other hother item List.mem_cons_self

theorem resume_ok {row : TrialRow} : resume item row call = .ok call' ↔ row.state ≠ .running ∧
    screen item.routeId row.trial { call with reported := call.reported ++ [row.trial] } = call' := by
  unfold resume
  simp only [bind_ok, raiseIf_ok, exists_const, pure_ok]

theorem turn_eq (hscreen : suite.stopOnScreeningFailure = false) : turn env suite call item =
    match (enterStage suite item call).trials.find? (suite.trialId item.position) with
    | some row => resume item row (enterStage suite item call)
    | none => start env suite item (enterStage suite item call) := by
  unfold turn
  exact if_neg fun h => Bool.false_ne_true (hscreen.symm.trans h.1)

theorem Inside.turn (h : Inside env suite db visited call) (hs : AtStage suite visited call)
    (hscreen : suite.stopOnScreeningFailure = false) (hitem : item ∈ suite.planned env)
    (hsorted : suite.sequentialStages = true →
      ∀ other ∈ visited, other.case.split.stageOrder ≤ item.case.split.stageOrder)
    (hturn : turn env suite call item = .ok call') :
    Inside env suite db (visited ++ [item]) call' ∧ AtStage suite (visited ++ [item]) call' := by
  have henter := h.enter hs hsorted
  have hstage := hs.enter hsorted
  have hsplit := enterStage_previousSplit item hs
  rw [turn_eq hscreen] at hturn
  generalize enterStage suite item call = entered at henter hstage hsplit hturn
  have hat : ∀ {call' : Call}, call'.previousSplit = entered.previousSplit →
      AtStage suite (visited ++ [item]) call' := by
    intro call' heq
    exact ⟨heq ▸ hstage.unstaged, heq ▸ hstage.reached, heq ▸ hstage.latest⟩
  split at hturn
  next row hrow =>
    obtain ⟨-, rfl⟩ := resume_ok.mp hturn
    refine ⟨henter.resumed hrow (screen_database _ _ _) (screen_reported _ _ _)
      (screen_previousSplit _ _ _) (screen_warmed _ _ _), hat (screen_previousSplit _ _ _)⟩
  next hnone =>
    obtain ⟨hfresh, setups, rows, hst⟩ := start_ok hturn
    exact ⟨henter.started hst hitem hsplit hfresh, hat hst.previousSplit⟩

/-- A turn does not fail when the set-up of its router is not one of an earlier call. -/
theorem Inside.turn_isOk (h : Inside env suite db visited call) (hs : AtStage suite visited call)
    (hdb : Stored env suite db) (hscreen : suite.stopOnScreeningFailure = false)
    (hsorted : suite.sequentialStages = true →
      ∀ other ∈ visited, other.case.split.stageOrder ≤ item.case.split.stageOrder)
    (hclean : ∀ other ∈ suite.planned env, other.trial suite ∈ db.executed →
      other.condition.cold = false → other.workerKey = item.workerKey →
      other.stage suite = item.stage suite → suite.trialId item.position ∈ db.ids) :
    ∃ call', Benchmark.turn env suite call item = .ok call' := by
  have henter := h.enter hs hsorted
  have hsplit := enterStage_previousSplit item hs
  rw [turn_eq hscreen]
  generalize enterStage suite item call = entered at henter hsplit
  split
  next row hrow =>
    obtain ⟨trial, -, hof⟩ := henter.stored.of_row row (Table.mem_of_find? hrow)
    exact ⟨_, resume_ok.mpr ⟨hof.ended, rfl⟩⟩
  next hnone =>
    have hnew : suite.trialId item.position ∉ entered.ids := henter.stored.find?_eq_none.mp hnone
    refine start_isOk hnone ?_
    cases hcold : item.condition.cold with
    | true => exact .inl rfl
    | false =>
      refine .inr ?_
      by_cases hwarm : item.workerKey ∈ entered.warmed
      · exact .inl hwarm
      refine .inr (henter.stored.find?_eq_none.mpr fun hid => ?_)
      -- the set-up was one of this call, and the router is warm, or of an earlier call
      obtain ⟨other, hother, -, hcold', hsetup, hkey, hstage⟩ :=
        henter.stored.of_setupId (show item.workerKey.2.cold = false from hcold) hid
      by_cases hearlier : other.setup env suite ∈ db.executed
      · obtain ⟨first, hfirst, hin, hcold₁, -, hkey₁, hstage₁⟩ :=
          hdb.of_setupId (show item.workerKey.2.cold = false from hcold)
            (List.mem_map.mpr ⟨_, hearlier, (congrArg₂ (setupId env) hkey hstage)⟩)
        exact hnew (henter.ids_subset (hclean first hfirst hin hcold₁ hkey₁ hstage₁))
      · refine hwarm ?_
        rw [← hkey]
        exact henter.setups other hother hcold' hsetup hearlier (hstage.trans hsplit.symm)

/-! ## A call -/

theorem Inside.fold (hscreen : suite.stopOnScreeningFailure = false) {rest after : List Planned}
    (hplan : suite.planned env = visited ++ (rest ++ after)) (h : Inside env suite db visited call)
    (hs : AtStage suite visited call)
    (hfold : rest.foldlM (Benchmark.turn env suite) call = .ok call') :
    Inside env suite db (visited ++ rest) call' := by
  induction rest generalizing visited call with
  | nil =>
    rw [List.foldlM_nil, pure_ok] at hfold
    rw [List.append_nil, ← hfold]
    exact h
  | cons item rest ih =>
    rw [List.foldlM_cons, bind_ok] at hfold
    obtain ⟨next, hturn, hfold⟩ := hfold
    have hitem : item ∈ suite.planned env := by
      rw [hplan]
      exact List.mem_append_right _ List.mem_cons_self
    obtain ⟨hnext, hnextStage⟩ := h.turn hs hscreen hitem (sorted_before hplan) hturn
    rw [List.append_cons]
    refine ih ?_ hnext hnextStage hfold
    rw [hplan, List.append_assoc]
    rfl

theorem Inside.fold_isOk (hscreen : suite.stopOnScreeningFailure = false) {rest after : List Planned}
    (hplan : suite.planned env = visited ++ (rest ++ after)) (h : Inside env suite db visited call)
    (hs : AtStage suite visited call) (hdb : Stored env suite db)
    (hclean : ∀ item ∈ rest, ∀ other ∈ suite.planned env, other.trial suite ∈ db.executed →
      other.condition.cold = false → other.workerKey = item.workerKey →
      other.stage suite = item.stage suite → suite.trialId item.position ∈ db.ids) :
    ∃ call', rest.foldlM (Benchmark.turn env suite) call = .ok call' := by
  induction rest generalizing visited call with
  | nil => exact ⟨call, rfl⟩
  | cons item rest ih =>
    obtain ⟨hitem, hrest⟩ := List.forall_mem_cons.mp hclean
    have hin : item ∈ suite.planned env := by
      rw [hplan]
      exact List.mem_append_right _ List.mem_cons_self
    obtain ⟨next, hturn⟩ := h.turn_isOk hs hdb hscreen (sorted_before hplan) hitem
    obtain ⟨hnext, hnextStage⟩ := h.turn hs hscreen hin (sorted_before hplan) hturn
    have hplan' : suite.planned env = (visited ++ [item]) ++ (rest ++ after) := by
      rw [hplan, List.append_assoc]
      rfl
    obtain ⟨call', hfold⟩ := ih hplan' hnext hnextStage hrest
    exact ⟨call', by rw [List.foldlM_cons, bind_ok]; exact ⟨next, hturn, hfold⟩⟩

end Calls

end AeepRouter.Benchmark

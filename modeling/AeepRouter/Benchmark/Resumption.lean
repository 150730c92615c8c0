import AeepRouter.Benchmark.Calls

/-!
# Campaigns in several calls

A campaign of calls that stop between two trials executes every position once, and reports it once,
exactly when the ids tell the positions apart (`DistinctIds`) and no call stops between two trials of
one stage that share a router kept warm (`Undisturbed`).
-/

namespace AeepRouter.Benchmark

open Lib

/-! ## Statements -/

/-- What a campaign is to show at its end. -/
structure ExactlyOnce (suite : BenchmarkSuite) (call : Call) : Prop where
  once : ∀ at_ ∈ suite.positions,
    ((call.executed.filter (·.phase ≠ .setup)).map position).count at_ = 1
  reported : ∀ at_ ∈ suite.positions,
    ((call.report.filter (·.phase ≠ .setup)).map position).count at_ = 1
  only : ∀ trial ∈ call.report, trial.phase ≠ .setup → position trial ∈ suite.positions
  staged : suite.sequentialStages = true → ∀ (i : ℕ) (trial : BenchmarkTrial),
    call.executed[i]? = some trial → trial.phase = .holdout →
    ∀ case ∈ suite.cases, case.split ≠ .holdout → ∀ at_ ∈ suite.positions,
      at_.caseId = case.caseId →
      ∃ other ∈ call.executed.take i, other.phase ≠ .setup ∧ position other = at_

/-- Whether no router kept warm has trials of one stage on both sides of a point of the plan. -/
def Clean (env : Environment) (suite : BenchmarkSuite) (reached : ℕ) : Prop :=
  ∀ a ∈ (suite.planned env).take reached, ∀ b ∈ (suite.planned env).drop reached,
    a.condition.cold = false → a.workerKey = b.workerKey → a.stage suite = b.stage suite →
    b ∈ (suite.planned env).take reached

instance (env : Environment) (suite : BenchmarkSuite) (reached : ℕ) :
    Decidable (Clean env suite reached) := by
  unfold Clean
  infer_instance

/-- Whether every call stops at a clean point, the furthest one reached so far. -/
def Undisturbed (env : Environment) (suite : BenchmarkSuite) : ℕ → List ℕ → Prop
  | _, [] => True
  | reached, stop :: stops =>
    Clean env suite (max reached stop) ∧ Undisturbed env suite (max reached stop) stops

section Campaign

variable {env : Environment} {suite : BenchmarkSuite} {db db' : Database} {call : Call}
  {reached stop : ℕ} {visited : List Planned}

/-! ## What a store has reached -/

/-- A store that holds the trials of the plan up to a point. -/
structure Reached (env : Environment) (suite : BenchmarkSuite) (db : Database) (reached : ℕ) :
    Prop where
  stored : Stored env suite db
  back : ∀ item ∈ suite.planned env, item.trial suite ∈ db.executed →
    item ∈ (suite.planned env).take reached
  forward : ∀ item ∈ (suite.planned env).take reached, suite.trialId item.position ∈ db.ids

theorem Reached.empty : Reached env suite ⟨∅, []⟩ 0 where
  stored := .empty
  back _ _ h := absurd h List.not_mem_nil
  forward _ h := absurd h List.not_mem_nil

theorem interrupted_inside (hscreen : suite.stopOnScreeningFailure = false) (h : Stored env suite db)
    (hcall : interrupted env suite db stop = .ok call) :
    Inside env suite db ((suite.planned env).take stop) call :=
  Inside.fold hscreen (List.take_append_drop stop _).symm (Inside.start h) .start hcall

theorem Reached.next (hscreen : suite.stopOnScreeningFailure = false) (h : Reached env suite db reached)
    (hcall : interrupted env suite db stop = .ok call) :
    Reached env suite call.toDatabase (max reached stop) := by
  have hinside := interrupted_inside hscreen h.stored hcall
  refine ⟨hinside.stored, fun item hitem hin => ?_, fun item hitem => ?_⟩
  · rcases hinside.added item hitem hin with hold | hvisited
    · exact List.take_subset_take_left _ (le_max_left _ _) (h.back item hitem hold)
    · exact List.take_subset_take_left _ (le_max_right _ _) hvisited
  · rcases le_total reached stop with hle | hle
    · rw [max_eq_right hle] at hitem
      exact hinside.visited_ids item hitem
    · rw [max_eq_left hle] at hitem
      exact hinside.ids_subset (h.forward item hitem)

theorem Reached.isOk (hscreen : suite.stopOnScreeningFailure = false) (h : Reached env suite db reached)
    (hclean : Clean env suite reached) (stop : ℕ) :
    ∃ call, interrupted env suite db stop = .ok call := by
  refine Inside.fold_isOk hscreen (List.take_append_drop stop _).symm (Inside.start h.stored) .start
    h.stored fun item hitem other hother hin hcold hkey hstage => ?_
  have hearlier := h.back other hother hin
  have hplanned : item ∈ suite.planned env := List.mem_of_mem_take hitem
  rw [← List.take_append_drop reached (suite.planned env)] at hplanned
  rcases List.mem_append.mp hplanned with hbefore | hafter
  · exact h.forward item hbefore
  · exact h.forward item (hclean other hearlier item hafter hcold hkey hstage)

/-! ## Stages -/

/-- Before a held-out trial, every trial of another split was executed. -/
def Ordered (env : Environment) (suite : BenchmarkSuite) (executed : List BenchmarkTrial) : Prop :=
  suite.sequentialStages = true → ∀ (i : ℕ) (trial : BenchmarkTrial), executed[i]? = some trial →
    trial.phase = .holdout → ∀ item ∈ suite.planned env, item.case.split ≠ .holdout →
      item.trial suite ∈ executed.take i

theorem Ordered.turn {call' : Call} {item : Planned} {rest : List Planned}
    (hd : DistinctIds suite) (hplan : suite.planned env = visited ++ item :: rest)
    (h : Inside env suite db visited call) (hordered : Ordered env suite call.executed)
    (hscreen : suite.stopOnScreeningFailure = false)
    (hturn : turn env suite call item = .ok call') : Ordered env suite call'.executed := by
  have hdb : (enterStage suite item call).toDatabase = call.toDatabase := enterStage_database
  have hexecuted := congrArg Database.executed hdb
  rw [turn_eq hscreen] at hturn
  generalize enterStage suite item call = entered at hdb hexecuted hturn
  split at hturn
  next row hrow =>
    obtain ⟨-, rfl⟩ := resume_ok.mp hturn
    rw [screen_database]
    exact hexecuted.symm ▸ hordered
  next hnone =>
    obtain ⟨-, setups, rows, hst⟩ := start_ok hturn
    intro hstages i trial hi hholdout other hother hsplit
    have hin : other ∈ visited ∨ ¬ (item.trial suite).phase = .holdout := by
      by_cases hlast : (item.trial suite).phase = .holdout
      · left
        have hpairwise := planned_pairwise env hstages
        rw [hplan, List.pairwise_append, List.pairwise_cons] at hpairwise
        rw [hplan] at hother
        rw [phase_holdout] at hlast
        rcases List.mem_append.mp hother with hbefore | hafter
        · exact hbefore
        · rcases List.mem_cons.mp hafter with rfl | hafter
          · exact absurd hlast hsplit
          · have hle := hpairwise.2.1.1 other hafter
            rw [hlast] at hle
            refine absurd ?_ hsplit
            cases hcase : other.case.split <;> rw [hcase] at hle <;>
              first | rfl | exact absurd hle (by decide)
      · exact .inr hlast
    rw [hst.executed, hexecuted] at hi ⊢
    rcases lt_or_ge i call.executed.length with hlt | hge
    · rw [List.getElem?_append_left hlt] at hi
      rw [List.take_append_of_le_length hlt.le]
      exact hordered hstages i trial hi hholdout other hother hsplit
    · -- a trial of this turn, which is held out only if it is the last
      rw [List.getElem?_append_right hge] at hi
      rcases hin with hvisited | hnot
      · have hmem := h.stored.mem_executed hd hother (h.visited_ids other hvisited)
        rw [List.take_append]
        rw [List.take_of_length_le hge]
        exact List.mem_append_left _ hmem
      · rcases List.mem_append.mp (List.mem_of_getElem? hi) with hsetup | hlast
        · rw [(hst.setup hsetup).1] at hholdout
          cases hholdout
        · rw [List.mem_singleton.mp hlast] at hholdout
          exact absurd hholdout hnot

theorem Ordered.fold {call' : Call} {rest after : List Planned} (hd : DistinctIds suite)
    (hplan : suite.planned env = visited ++ (rest ++ after)) (h : Inside env suite db visited call)
    (hs : AtStage suite visited call) (hordered : Ordered env suite call.executed)
    (hscreen : suite.stopOnScreeningFailure = false)
    (hfold : rest.foldlM (Benchmark.turn env suite) call = .ok call') :
    Ordered env suite call'.executed := by
  induction rest generalizing visited call with
  | nil =>
    rw [List.foldlM_nil, pure_ok] at hfold
    exact hfold ▸ hordered
  | cons item rest ih =>
    rw [List.foldlM_cons, bind_ok] at hfold
    obtain ⟨next, hturn, hfold⟩ := hfold
    have hitem : item ∈ suite.planned env := by
      rw [hplan]
      exact List.mem_append_right _ List.mem_cons_self
    obtain ⟨hnext, hnextStage⟩ := h.turn hs hscreen hitem (sorted_before hplan) hturn
    refine ih ?_ hnext hnextStage (Ordered.turn hd hplan h hordered hscreen hturn) hfold
    rw [hplan, List.append_assoc]
    rfl

/-! ## The end of a campaign -/

/-- Trials whose ids are those of their positions come once each. -/
theorem count_position (suite : BenchmarkSuite) {trials : List BenchmarkTrial} (hnodup : (trials.map (·.trialId)).Nodup)
    (hids : ∀ trial ∈ trials, trial.phase ≠ .setup → trial.trialId = suite.trialId (position trial))
    {trial : BenchmarkTrial} (htrial : trial ∈ trials) (hphase : trial.phase ≠ .setup) :
    ((trials.filter (·.phase ≠ .setup)).map position).count (position trial) = 1 := by
  have hpositions : ((trials.filter (·.phase ≠ .setup)).map position).Nodup := by
    refine List.Nodup.of_map suite.trialId ?_
    rw [List.map_map]
    have hmap : (trials.filter (·.phase ≠ .setup)).map (suite.trialId ∘ position) =
        (trials.filter (·.phase ≠ .setup)).map (·.trialId) := by
      refine List.map_congr_left fun other hother => ?_
      obtain ⟨hin, hne⟩ := List.mem_filter.mp hother
      exact (hids other hin (of_decide_eq_true hne)).symm
    rw [hmap]
    exact (List.filter_sublist.map _).nodup hnodup
  refine List.count_eq_one_of_mem hpositions (List.mem_map_of_mem (List.mem_filter.mpr ⟨htrial, ?_⟩))
  exact decide_eq_true hphase

theorem Stored.position_of_phase (h : Stored env suite db) {trial : BenchmarkTrial}
    (htrial : trial ∈ db.executed) (hphase : trial.phase ≠ .setup) :
    ∃ item ∈ suite.planned env, trial = item.trial suite := by
  obtain ⟨item, hitem, -, heq | ⟨-, heq⟩⟩ := h.kinds trial htrial
  · exact ⟨item, hitem, heq⟩
  · exact absurd (congrArg (·.phase) heq) hphase

theorem Inside.row_of_report (h : Inside env suite db visited call) {trial : BenchmarkTrial}
    (htrial : trial ∈ call.report) : ∃ other ∈ call.executed, trial.trialId = other.trialId ∧
      position trial = position other ∧ trial.phase = other.phase := by
  obtain ⟨row, hrow, rfl⟩ : ∃ row ∈ call.trials, row.trial = trial := by
    rcases List.mem_append.mp (mem_of_dictionary htrial) with hreported | hsetup
    · exact h.reported_rows trial hreported
    · obtain ⟨row, hrow, -, heq⟩ := Table.mem_select.mp hsetup
      exact ⟨row, hrow, heq⟩
  obtain ⟨other, hother, hof⟩ := h.stored.of_row row hrow
  exact ⟨other, hother, hof.id_eq, hof.position_eq, hof.phase_eq⟩

/-- A call that went through the plan ends the campaign as it should. -/
theorem Inside.exactlyOnce (hd : DistinctIds suite) (h : Inside env suite db (suite.planned env) call)
    (hordered : Ordered env suite call.executed) : ExactlyOnce suite call where
  once at_ hat := by
    obtain ⟨item, hitem, rfl⟩ := (mem_positions env).mp hat
    refine count_position suite h.stored.nodup (fun trial htrial hphase => ?_)
      (h.stored.mem_executed hd hitem (h.visited_ids item hitem)) (phase_ne_setup item)
    obtain ⟨other, -, rfl⟩ := h.stored.position_of_phase htrial hphase
    rfl
  reported at_ hat := by
    obtain ⟨item, hitem, rfl⟩ := (mem_positions env).mp hat
    obtain ⟨listed, hlisted, hid⟩ := h.listed item hitem
    obtain ⟨trial, htrial, hsame⟩ : ∃ trial ∈ call.report, trial.trialId = listed.trialId :=
      exists_dictionary (List.mem_append_left _ hlisted)
    have hids : ∀ trial ∈ call.report, trial.phase ≠ .setup →
        trial.trialId = suite.trialId (position trial) := by
      intro trial htrial hphase
      obtain ⟨other, hother, hid, hposition, hphase'⟩ := h.row_of_report htrial
      obtain ⟨_, -, rfl⟩ := h.stored.position_of_phase hother (hphase' ▸ hphase)
      rw [hid, hposition]
      rfl
    obtain ⟨other, hother, hid', hposition, hphase⟩ := h.row_of_report htrial
    obtain ⟨planned, hplanned, -, rfl | ⟨-, rfl⟩⟩ := h.stored.kinds other hother
    · have heq : planned.position = item.position := hd _ ((mem_positions env).mpr ⟨planned, hplanned, rfl⟩)
        _ hat (hid'.symm.trans (hsame.trans hid))
      have hat' : position trial = item.position := hposition.trans heq
      rw [← hat']
      exact count_position suite nodup_dictionary hids htrial (hphase ▸ phase_ne_setup planned)
    · exact absurd (hid'.symm.trans (hsame.trans hid)) setupId_ne_trialId
  only trial htrial hphase := by
    obtain ⟨other, hother, -, hposition, hphase'⟩ := h.row_of_report htrial
    obtain ⟨item, hitem, rfl⟩ := h.stored.position_of_phase hother (hphase' ▸ hphase)
    rw [hposition]
    exact (mem_positions env).mpr ⟨item, hitem, rfl⟩
  staged hstages i trial hi hholdout case hcase hsplit at_ hat hid := by
    obtain ⟨item, hitem, rfl⟩ := (mem_positions env).mp hat
    have hsame : item.case = case :=
      List.inj_on_of_nodup_map suite.cases_nodup (case_mem hitem) hcase hid
    exact ⟨item.trial suite, hordered hstages i trial hi hholdout item hitem (hsame ▸ hsplit),
      phase_ne_setup item, rfl⟩

/-! ## Sequences of calls -/

def afterStops (env : Environment) (suite : BenchmarkSuite) (stops : List ℕ) (db : Database) :
    Result Database :=
  stops.foldlM (fun db stop => (interrupted env suite db stop).map Call.toDatabase) db

theorem campaign_ok {stops : List ℕ} : campaign env suite stops = .ok call ↔
    ∃ db, afterStops env suite stops ⟨∅, []⟩ = .ok db ∧
      (suite.planned env).foldlM (turn env suite) (Call.start db) = .ok call := by
  unfold campaign afterStops
  rw [bind_ok]

theorem afterStops_cons {stops : List ℕ} : afterStops env suite (stop :: stops) db = .ok db' ↔
    ∃ call, interrupted env suite db stop = .ok call ∧
      afterStops env suite stops call.toDatabase = .ok db' := by
  unfold afterStops
  rw [List.foldlM_cons, bind_ok]
  constructor
  · rintro ⟨next, hnext, hrest⟩
    obtain ⟨call, hcall, rfl⟩ := map_ok.mp hnext
    exact ⟨call, hcall, hrest⟩
  · rintro ⟨call, hcall, hrest⟩
    exact ⟨_, map_ok.mpr ⟨call, hcall, rfl⟩, hrest⟩

/-- Undisturbed calls do not fail, and end at a clean point. -/
theorem Reached.afterStops_isOk (hscreen : suite.stopOnScreeningFailure = false) {stops : List ℕ}
    (h : Reached env suite db reached) (hclean : Clean env suite reached)
    (hstops : Undisturbed env suite reached stops) :
    ∃ db' last, afterStops env suite stops db = .ok db' ∧ Reached env suite db' last ∧
      Clean env suite last := by
  induction stops generalizing db reached with
  | nil => exact ⟨db, reached, rfl, h, hclean⟩
  | cons stop stops ih =>
    obtain ⟨call, hcall⟩ := h.isOk hscreen hclean stop
    obtain ⟨db', last, hok, hlast, hcleanLast⟩ := ih (h.next hscreen hcall) hstops.1 hstops.2
    exact ⟨db', last, afterStops_cons.mpr ⟨call, hcall, hok⟩, hlast, hcleanLast⟩

theorem afterStops_stored (hscreen : suite.stopOnScreeningFailure = false) {stops : List ℕ}
    (h : Stored env suite db) (hok : afterStops env suite stops db = .ok db') :
    Stored env suite db' := by
  induction stops generalizing db with
  | nil =>
    cases hok
    exact h
  | cons stop stops ih =>
    obtain ⟨call, hcall, hok⟩ := afterStops_cons.mp hok
    exact ih (interrupted_inside hscreen h hcall).stored hok

theorem afterStops_ordered (hd : DistinctIds suite) (hscreen : suite.stopOnScreeningFailure = false)
    {stops : List ℕ} (h : Stored env suite db) (hordered : Ordered env suite db.executed)
    (hok : afterStops env suite stops db = .ok db') : Ordered env suite db'.executed := by
  induction stops generalizing db with
  | nil =>
    cases hok
    exact hordered
  | cons stop stops ih =>
    obtain ⟨call, hcall, hok⟩ := afterStops_cons.mp hok
    refine ih (interrupted_inside hscreen h hcall).stored ?_ hok
    exact Ordered.fold hd (List.take_append_drop stop _).symm (Inside.start h) .start hordered hscreen
      hcall

theorem final_inside (hscreen : suite.stopOnScreeningFailure = false) (h : Stored env suite db)
    (hcall : (suite.planned env).foldlM (turn env suite) (Call.start db) = .ok call) :
    Inside env suite db (suite.planned env) call :=
  Inside.fold hscreen (List.append_nil _).symm (Inside.start h) .start hcall

theorem campaign_exactlyOnce (hscreen : suite.stopOnScreeningFailure = false) (hd : DistinctIds suite)
    {stops : List ℕ} (hstops : Undisturbed env suite 0 stops) :
    ∃ call, campaign env suite stops = .ok call ∧ ExactlyOnce suite call := by
  have hclean : Clean env suite 0 := fun _ h => absurd h List.not_mem_nil
  obtain ⟨db, last, hok, hlast, hcleanLast⟩ := Reached.empty.afterStops_isOk hscreen hclean hstops
  obtain ⟨call, hcall⟩ := hlast.isOk hscreen hcleanLast (suite.planned env).length
  unfold interrupted at hcall
  rw [List.take_length] at hcall
  refine ⟨call, campaign_ok.mpr ⟨db, hok, hcall⟩, ?_⟩
  refine (final_inside hscreen hlast.stored hcall).exactlyOnce hd ?_
  have hempty : Ordered env suite [] := fun _ i _ h => nomatch h
  exact Ordered.fold hd (List.append_nil _).symm (Inside.start hlast.stored) .start
    (afterStops_ordered hd hscreen .empty hempty hok) hscreen hcall

/-! ## What the end of a campaign tells -/

/-- What later calls did beside an earlier store. -/
structure Later (env : Environment) (suite : BenchmarkSuite) (db db' : Database) : Prop where
  grows : ∀ id ∈ db.ids, id ∈ db'.ids
  fresh : ∀ item ∈ suite.planned env, item.condition.cold = false →
    item.trial suite ∈ db'.executed → item.trial suite ∉ db.executed →
    setupId env item.workerKey (item.stage suite) ∉ db.ids

theorem Inside.later (h : Inside env suite db visited call) : Later env suite db call.toDatabase :=
  ⟨fun _ hid => h.ids_subset hid, h.fresh⟩

theorem Later.trans {db'' : Database} (h : Later env suite db db') (h' : Later env suite db' db'') :
    Later env suite db db'' := by
  refine ⟨fun id hid => h'.grows id (h.grows id hid), fun item hitem hcold hin hnot => ?_⟩
  by_cases hbetween : item.trial suite ∈ db'.executed
  · exact h.fresh item hitem hcold hbetween hnot
  · exact fun hid => h'.fresh item hitem hcold hin hbetween (h.grows _ hid)

/-- A store from which a campaign went on to its end stands at a clean point. -/
theorem Reached.clean (hd : DistinctIds suite) (h : Reached env suite db reached)
    (hlater : Later env suite db db') (hstored : Stored env suite db')
    (hall : ∀ item ∈ suite.planned env, suite.trialId item.position ∈ db'.ids) :
    Clean env suite reached := by
  intro a ha b hb hcold hkey hstage
  by_contra hnot
  have hplanned : b ∈ suite.planned env := List.mem_of_mem_drop hb
  have hplanned' : a ∈ suite.planned env := List.mem_of_mem_take ha
  have hcondition : b.condition.cold = false := congrArg (·.2.cold) hkey ▸ hcold
  have hfresh := hlater.fresh b hplanned hcondition (hstored.mem_executed hd hplanned (hall b hplanned))
    fun hin => hnot (h.back b hplanned hin)
  rw [← hkey, ← hstage] at hfresh
  exact hfresh (h.stored.warmed a hplanned' hcold
    (h.stored.mem_executed hd hplanned' (h.forward a ha)))

theorem Reached.undisturbed (hscreen : suite.stopOnScreeningFailure = false) (hd : DistinctIds suite)
    {stops : List ℕ} (h : Reached env suite db reached)
    (hok : afterStops env suite stops db = .ok db')
    (hcall : (suite.planned env).foldlM (turn env suite) (Call.start db') = .ok call) :
    Undisturbed env suite reached stops ∧ Later env suite db call.toDatabase ∧
      Inside env suite db' (suite.planned env) call := by
  induction stops generalizing db reached with
  | nil =>
    cases hok
    have hinside := final_inside hscreen h.stored hcall
    exact ⟨trivial, hinside.later, hinside⟩
  | cons stop stops ih =>
    obtain ⟨next, hnext, hok⟩ := afterStops_cons.mp hok
    have hreached := h.next hscreen hnext
    obtain ⟨hrest, hlater, hinside⟩ := ih hreached hok
    refine ⟨⟨?_, hrest⟩, (interrupted_inside hscreen h.stored hnext).later.trans hlater, hinside⟩
    exact hreached.clean hd hlater hinside.stored hinside.visited_ids

theorem distinctIds_of_exactlyOnce (h : Stored env suite call.toDatabase)
    (honce : ExactlyOnce suite call) : DistinctIds suite := by
  have hexecuted : ∀ at_ ∈ suite.positions, ∃ trial ∈ call.executed,
      position trial = at_ ∧ trial.trialId = suite.trialId at_ := by
    intro at_ hat
    have hcount := honce.once at_ hat
    have hmem := List.count_pos_iff.mp (hcount ▸ one_pos)
    obtain ⟨trial, htrial, hposition⟩ := List.mem_map.mp hmem
    obtain ⟨hin, hphase⟩ := List.mem_filter.mp htrial
    obtain ⟨item, -, rfl⟩ := h.position_of_phase hin (of_decide_eq_true hphase)
    exact ⟨_, hin, hposition, congrArg suite.trialId hposition⟩
  intro at_ hat other hother hid
  obtain ⟨trial, htrial, rfl, hid₁⟩ := hexecuted at_ hat
  obtain ⟨trial', htrial', rfl, hid₂⟩ := hexecuted other hother
  rw [List.inj_on_of_nodup_map h.nodup htrial htrial' (hid₁.trans (hid.trans hid₂.symm))]

end Campaign

/-- A campaign of calls that stop, and one that runs to its end, executes and reports every position
once exactly when the ids are distinct and the calls undisturbed. -/
theorem campaign_exactlyOnce_iff (env : Environment) (suite : BenchmarkSuite)
    (hscreen : suite.stopOnScreeningFailure = false) (stops : List ℕ) :
    (∃ call, campaign env suite stops = .ok call ∧ ExactlyOnce suite call) ↔
      DistinctIds suite ∧ Undisturbed env suite 0 stops := by
  constructor
  · rintro ⟨call, hcampaign, honce⟩
    obtain ⟨db, hok, hcall⟩ := campaign_ok.mp hcampaign
    have hstored := (final_inside hscreen (afterStops_stored hscreen .empty hok) hcall).stored
    have hd := distinctIds_of_exactlyOnce hstored honce
    exact ⟨hd, (Reached.empty.undisturbed hscreen hd hok hcall).1⟩
  · exact fun ⟨hd, hstops⟩ => campaign_exactlyOnce hscreen hd hstops

/-! ## A campaign of two repetitions -/

def exampleEnvironment : Environment where
  suiteDigest := "d"
  shuffle items := items
  shuffleBlocks blocks := blocks
  shuffle_perm _ := List.Perm.refl _
  shuffleBlocks_perm _ := List.Perm.refl _
  execute _ _ := ⟨true, some true, some 1, ⟨0, 0, 0, 0⟩, ⟨⟨.unavailable, []⟩, [], []⟩, none, none, none, false⟩

def twoRepetitions (condition : TrialCondition) : BenchmarkSuite where
  suiteId := "s"
  seed := 0
  repetitions := 2
  routes := ["r"]
  conditions := [condition]
  cases := [⟨"c", .holdout, none, none⟩]
  sequentialStages := false
  stopOnScreeningFailure := false
  warmupCases := []
  pairedOrder := false
  repeated := by decide
  routes_nodup := by decide
  cases_nodup := by decide
  warmup_nodup := List.nodup_nil
  warmup_separate _ h := absurd h List.not_mem_nil
  staged_warmup h := nomatch h

theorem campaign_exactlyOnce_iff_of_fresh_routers :
    ∃ call, campaign exampleEnvironment (twoRepetitions .routerFresh) [1] = .ok call ∧
      ExactlyOnce (twoRepetitions .routerFresh) call :=
  (campaign_exactlyOnce_iff exampleEnvironment (twoRepetitions .routerFresh) rfl [1]).mpr
    ⟨by decide +kernel, by decide +kernel, trivial⟩

/-- A router kept warm is set up again after a stop, and the campaign fails. -/
theorem warm_router_claimed_again :
    ¬ ∃ call, campaign exampleEnvironment (twoRepetitions .routerWarm) [1] = .ok call ∧
      ExactlyOnce (twoRepetitions .routerWarm) call := by
  have hfails : (campaign exampleEnvironment (twoRepetitions .routerWarm) [1]).toOption = none := by
    decide +kernel
  rintro ⟨call, hcall, -⟩
  rw [hcall] at hfails
  cases hfails

end AeepRouter.Benchmark

import Mathlib.Data.List.Dedup
import Mathlib.Data.List.Perm.Subperm
import Mathlib.Algebra.Order.BigOperators.Group.List
import AeepRouter.Benchmark.Preflight
import AeepRouter.Benchmark.Resumption

/-!
# What the cash ceiling bounds

A campaign executes at most one trial for every position and one set-up for every route, kept
condition and stage (`Spent`), and a campaign in one call executes all of them. The ceiling holds for
every campaign exactly when it pays for these (`PricedSuite.worstCash`); the preflight counts one
set-up a route, whatever the conditions and stages.
-/

namespace AeepRouter.Benchmark

open Lib

/-! ## Statements -/

/-- What the trials of a campaign cost, by the number of earlier executions. -/
def totalCash (cost : ℕ → BenchmarkTrial → ℚ) (executed : List BenchmarkTrial) : ℚ :=
  (executed.zipIdx.map fun trial => cost trial.2 trial.1).sum

def RouterView.bounds (router : RouterView) (route : BenchmarkRoute) : List ℚ :=
  ((router.specs route).toOption.getD []).filterMap (·.upperBoundUsd)

def RouterView.routeUpper (router : RouterView) (route : BenchmarkRoute) : ℚ :=
  (router.bounds route).sum

namespace PricedSuite

variable (router : RouterView) (suite : PricedSuite)

def upperOf (routeId : String) : ℚ :=
  match suite.benchmarkRoutes.find? (·.routeId = routeId) with
  | none => 0
  | some route => router.routeUpper route

/-- Whether the ceiling bounds the cash of every campaign whose trials stay within their routes'
bounds, after any number of calls. -/
def WithinCeiling (ceiling : ℚ) : Prop :=
  ∀ (env : Environment) (stops : List ℕ) (db : Database) (cost : ℕ → BenchmarkTrial → ℚ),
    afterStops env suite.toBenchmarkSuite stops ⟨∅, []⟩ = .ok db →
    (∀ trial ∈ db.executed.zipIdx, cost trial.2 trial.1 ≤ suite.upperOf router trial.1.routeId) →
    totalCash cost db.executed ≤ ceiling

end PricedSuite

namespace BenchmarkSuite

variable (suite : BenchmarkSuite)

/-- The conditions that keep a router. -/
def keptConditions : List TrialCondition := suite.conditions.dedup.filter (!·.cold)

def keptStages : List (Option BenchmarkSplit) :=
  if suite.sequentialStages then (suite.cases.map fun case => some case.split).dedup else [none]

/-- The set-ups of a route. -/
def setupsPerRoute : ℕ := suite.keptConditions.length * suite.keptStages.length

/-- The trials of a route, without set-ups. -/
def trialsPerRoute : ℕ := suite.cases.length * (suite.conditions.dedup.length * suite.repetitions)

end BenchmarkSuite

def PricedSuite.bounds (router : RouterView) (suite : PricedSuite) : List ℚ :=
  suite.benchmarkRoutes.flatMap router.bounds

/-- What the trials and set-ups of every route may cost. -/
def PricedSuite.worstCash (router : RouterView) (suite : PricedSuite) : ℚ :=
  (suite.trialsPerRoute + suite.setupsPerRoute : ℕ) *
    (suite.benchmarkRoutes.map router.routeUpper).sum

/-! ## Sums over named rows -/

/-- Rows with distinct names, each among the others under its name, weigh no more than the others. -/
theorem sum_le_of_named {α β ι : Type} {f : α → ι} {g : β → ι} {w : α → ℚ} {v : β → ℚ}
    {xs : List α} {ys : List β} (hv : ∀ y ∈ ys, 0 ≤ v y) (hnodup : (xs.map f).Nodup)
    (h : ∀ x ∈ xs, ∃ y ∈ ys, g y = f x ∧ w x ≤ v y) : (xs.map w).sum ≤ (ys.map v).sum := by
  rcases isEmpty_or_nonempty β with hempty | ⟨⟨default⟩⟩
  · have : xs = [] := List.eq_nil_iff_forall_not_mem.mpr fun x hx =>
      hempty.elim (h x hx).choose
    subst this
    exact List.sum_nonneg fun q hq => by
      obtain ⟨y, hy, rfl⟩ := List.mem_map.mp hq
      exact hv y hy
  · have hchoice : ∀ x, ∃ y, x ∈ xs → y ∈ ys ∧ g y = f x ∧ w x ≤ v y := fun x => by
      by_cases hx : x ∈ xs
      · obtain ⟨y, hy, hname, hle⟩ := h x hx
        exact ⟨y, fun _ => ⟨hy, hname, hle⟩⟩
      · exact ⟨default, fun hin => absurd hin hx⟩
    choose y hy using hchoice
    have hchosen : (xs.map y).Nodup := by
      refine List.Nodup.of_map g ?_
      rw [List.map_map]
      have hname : xs.map (g ∘ y) = xs.map f := List.map_congr_left fun x hx => (hy x hx).2.1
      rwa [hname]
    have hsub : (xs.map y).Subperm ys := hchosen.subperm fun b hb => by
      obtain ⟨x, hx, rfl⟩ := List.mem_map.mp hb
      exact (hy x hx).1
    obtain ⟨chosen, hperm, hsublist⟩ := hsub
    calc (xs.map w).sum ≤ (xs.map (v ∘ y)).sum :=
          List.sum_le_sum fun x hx => (hy x hx).2.2
      _ = (chosen.map v).sum := by
          rw [← List.map_map]
          exact ((hperm.map v).sum_eq).symm
      _ ≤ (ys.map v).sum := (hsublist.map v).sum_le_sum fun q hq => by
          obtain ⟨b, hb, rfl⟩ := List.mem_map.mp hq
          exact hv b hb

/-- Lists that are told apart by a key join to a list without duplicates. -/
theorem nodup_flatMap_of_key {α β γ : Type} (tag : α → γ) (key : β → γ) {l : List α}
    {f : α → List β} (hl : (l.map tag).Nodup) (hf : ∀ a ∈ l, (f a).Nodup)
    (hkey : ∀ a ∈ l, ∀ b ∈ f a, key b = tag a) : (l.flatMap f).Nodup := by
  rw [List.nodup_flatMap]
  refine ⟨hf, ?_⟩
  rw [List.Nodup, List.pairwise_map] at hl
  refine hl.imp_of_mem fun {a b} ha hb hne c hca hcb => hne ?_
  rw [← hkey a ha c hca, hkey b hb c hcb]

/-! ## What there is to execute -/

section Slots

variable {env : Environment} {suite : BenchmarkSuite} {db db' : Database} {call call' : Call}
  {item : Planned} {stop : ℕ}

/-- A trial to execute: a position, or a router to keep for a stage. -/
inductive Slot where
  | trial (at_ : Position)
  | setup (key : WorkerKey) (stage : Option BenchmarkSplit)
  deriving DecidableEq

namespace Slot

def id (env : Environment) (suite : BenchmarkSuite) : Slot → String
  | trial at_ => suite.trialId at_
  | setup key stage => setupId env key stage

def routeId : Slot → String
  | trial at_ => at_.routeId
  | setup key _ => key.1

end Slot

namespace BenchmarkSuite

variable (suite : BenchmarkSuite)

def routePositions (routeId : String) : List Position :=
  suite.cases.flatMap fun case => suite.conditions.dedup.flatMap fun condition =>
    (List.range suite.repetitions).map fun repetition => ⟨routeId, case.caseId, condition, repetition⟩

def routeSetups (routeId : String) : List (WorkerKey × Option BenchmarkSplit) :=
  suite.keptConditions.flatMap fun condition =>
    suite.keptStages.map fun stage => ((routeId, condition), stage)

def routeSlots (routeId : String) : List Slot :=
  (suite.routePositions routeId).map .trial ++
    (suite.routeSetups routeId).map fun slot => .setup slot.1 slot.2

/-- Everything a campaign may execute. -/
def slots : List Slot := suite.routes.flatMap suite.routeSlots

end BenchmarkSuite

theorem length_routeSlots (suite : BenchmarkSuite) (routeId : String) :
    (suite.routeSlots routeId).length = suite.trialsPerRoute + suite.setupsPerRoute := by
  unfold BenchmarkSuite.routeSlots BenchmarkSuite.routePositions BenchmarkSuite.routeSetups
    BenchmarkSuite.trialsPerRoute BenchmarkSuite.setupsPerRoute
  simp [List.length_flatMap]

theorem mem_routePositions {routeId : String} {at_ : Position} :
    at_ ∈ suite.routePositions routeId ↔ at_.routeId = routeId ∧
      (∃ case ∈ suite.cases, case.caseId = at_.caseId) ∧ at_.condition ∈ suite.conditions ∧
      at_.repetition < suite.repetitions := by
  obtain ⟨route, caseId, condition, repetition⟩ := at_
  simp only [BenchmarkSuite.routePositions, List.mem_flatMap, List.mem_map, List.mem_dedup,
    List.mem_range, Position.mk.injEq]
  constructor
  · rintro ⟨case, hcase, _, hcondition, _, hrepetition, rfl, rfl, rfl, rfl⟩
    exact ⟨rfl, ⟨case, hcase, rfl⟩, hcondition, hrepetition⟩
  · rintro ⟨rfl, ⟨case, hcase, rfl⟩, hcondition, hrepetition⟩
    exact ⟨case, hcase, condition, hcondition, repetition, hrepetition, rfl, rfl, rfl, rfl⟩

theorem mem_routeSetups {routeId : String} {key : WorkerKey} {stage : Option BenchmarkSplit} :
    (key, stage) ∈ suite.routeSetups routeId ↔ key.1 = routeId ∧ key.2 ∈ suite.conditions ∧
      key.2.cold = false ∧ stage ∈ suite.keptStages := by
  obtain ⟨route, condition⟩ := key
  simp only [BenchmarkSuite.routeSetups, BenchmarkSuite.keptConditions, List.mem_flatMap,
    List.mem_map, List.mem_filter, List.mem_dedup, Bool.not_eq_true', Prod.mk.injEq]
  constructor
  · rintro ⟨_, ⟨hcondition, hcold⟩, _, hstage, ⟨rfl, rfl⟩, rfl⟩
    exact ⟨rfl, hcondition, hcold, hstage⟩
  · rintro ⟨rfl, hcondition, hcold, hstage⟩
    exact ⟨condition, ⟨hcondition, hcold⟩, stage, hstage, ⟨rfl, rfl⟩, rfl⟩

theorem mem_keptStages {stage : Option BenchmarkSplit} : stage ∈ suite.keptStages ↔
    (suite.sequentialStages = true ∧ ∃ case ∈ suite.cases, stage = some case.split) ∨
      suite.sequentialStages = false ∧ stage = none := by
  unfold BenchmarkSuite.keptStages
  cases suite.sequentialStages <;> simp [eq_comm]

theorem mem_slots {slot : Slot} : slot ∈ suite.slots ↔
    ∃ route ∈ suite.routes, slot ∈ suite.routeSlots route := List.mem_flatMap

theorem mem_planned_iff : item ∈ suite.planned env ↔
    item.routeId ∈ suite.routes ∧ item.case ∈ suite.cases ∧ item.condition ∈ suite.conditions ∧
      item.repetition < suite.repetitions := by
  rw [mem_planned]
  obtain ⟨case, routeId, condition, repetition⟩ := item
  simp only [BenchmarkSuite.blocks, List.mem_flatMap, List.mem_map, List.mem_range, Block.planned]
  constructor
  · rintro ⟨_, ⟨case, hcase, condition, hcondition, repetition, hrepetition, rfl⟩, route, hroute, heq⟩
    cases heq
    exact ⟨hroute, hcase, hcondition, hrepetition⟩
  · rintro ⟨hroute, hcase, hcondition, hrepetition⟩
    exact ⟨_, ⟨case, hcase, condition, hcondition, repetition, hrepetition, rfl⟩, routeId, hroute, rfl⟩

theorem trial_slot_mem (h : item ∈ suite.planned env) : .trial item.position ∈ suite.slots := by
  obtain ⟨hroute, hcase, hcondition, hrepetition⟩ := mem_planned_iff.mp h
  refine mem_slots.mpr ⟨_, hroute, List.mem_append_left _ (List.mem_map_of_mem ?_)⟩
  exact mem_routePositions.mpr ⟨rfl, ⟨_, hcase, rfl⟩, hcondition, hrepetition⟩

theorem stage_mem (h : item.case ∈ suite.cases) : item.stage suite ∈ suite.keptStages := by
  unfold Planned.stage
  rw [mem_keptStages]
  split
  next hstages => exact .inl ⟨hstages, item.case, h, rfl⟩
  next hstages => exact .inr ⟨Bool.not_eq_true _ ▸ hstages, rfl⟩

theorem setup_slot_mem (h : item ∈ suite.planned env) (hcold : item.condition.cold = false) :
    .setup item.workerKey (item.stage suite) ∈ suite.slots := by
  obtain ⟨hroute, hcase, hcondition, -⟩ := mem_planned_iff.mp h
  refine mem_slots.mpr ⟨_, hroute, List.mem_append_right _
    (List.mem_map_of_mem (a := (item.workerKey, item.stage suite)) ?_)⟩
  exact mem_routeSetups.mpr ⟨rfl, hcondition, hcold, stage_mem hcase⟩

theorem exists_planned (env : Environment) (hcases : suite.cases ≠ []) {slot : Slot}
    (h : slot ∈ suite.slots) : ∃ item ∈ suite.planned env, slot = .trial item.position ∨
      item.condition.cold = false ∧ slot = .setup item.workerKey (item.stage suite) := by
  obtain ⟨route, hroute, hslot⟩ := mem_slots.mp h
  rcases List.mem_append.mp hslot with htrial | hsetup
  · obtain ⟨⟨_, caseId, condition, repetition⟩, hat, rfl⟩ := List.mem_map.mp htrial
    obtain ⟨rfl, ⟨case, hcase, rfl⟩, hcondition, hrepetition⟩ := mem_routePositions.mp hat
    exact ⟨⟨case, _, condition, repetition⟩,
      mem_planned_iff.mpr ⟨hroute, hcase, hcondition, hrepetition⟩, .inl rfl⟩
  · obtain ⟨⟨⟨_, condition⟩, stage⟩, hkey, rfl⟩ := List.mem_map.mp hsetup
    obtain ⟨rfl, hcondition, hcold, hstage⟩ := mem_routeSetups.mp hkey
    have hcase : ∃ case ∈ suite.cases, stage =
        if suite.sequentialStages then some case.split else none := by
      rcases mem_keptStages.mp hstage with ⟨hstages, case, hcase, rfl⟩ | ⟨hstages, rfl⟩
      · exact ⟨case, hcase, by rw [if_pos hstages]⟩
      · obtain ⟨case, hcase⟩ := List.exists_mem_of_ne_nil _ hcases
        exact ⟨case, hcase, by rw [hstages]; rfl⟩
    obtain ⟨case, hcase, rfl⟩ := hcase
    exact ⟨⟨case, _, condition, 0⟩,
      mem_planned_iff.mpr ⟨hroute, hcase, hcondition, suite.repeated.1⟩, .inr ⟨hcold, rfl⟩⟩

theorem nodup_routePositions (suite : BenchmarkSuite) (routeId : String) :
    (suite.routePositions routeId).Nodup := by
  refine nodup_flatMap_of_key (·.caseId) Position.caseId suite.cases_nodup (fun case _ => ?_)
    fun case _ at_ hat => ?_
  · refine nodup_flatMap_of_key id Position.condition (by simpa using List.nodup_dedup _)
      (fun condition _ => ?_) fun condition _ at_ hat => ?_
    · refine List.nodup_range.map fun repetition repetition' h => congrArg Position.repetition h
    · obtain ⟨_, -, rfl⟩ := List.mem_map.mp hat
      rfl
  · obtain ⟨_, -, hat⟩ := List.mem_flatMap.mp hat
    obtain ⟨_, -, rfl⟩ := List.mem_map.mp hat
    rfl

theorem nodup_keptStages (suite : BenchmarkSuite) : suite.keptStages.Nodup := by
  unfold BenchmarkSuite.keptStages
  split
  · exact List.nodup_dedup _
  · exact List.nodup_singleton _

theorem nodup_routeSetups (suite : BenchmarkSuite) (routeId : String) :
    (suite.routeSetups routeId).Nodup := by
  have hkept : suite.keptConditions.Nodup := (List.nodup_dedup _).filter _
  refine nodup_flatMap_of_key id (·.1.2) (by simpa using hkept) (fun condition _ => ?_)
    fun condition _ slot hslot => ?_
  · exact (nodup_keptStages suite).map fun stage stage' h => congrArg Prod.snd h
  · obtain ⟨_, -, rfl⟩ := List.mem_map.mp hslot
    rfl

theorem routeId_of_mem_routeSlots {routeId : String} {slot : Slot}
    (h : slot ∈ suite.routeSlots routeId) : slot.routeId = routeId := by
  rcases List.mem_append.mp h with h | h
  · obtain ⟨at_, hat, rfl⟩ := List.mem_map.mp h
    exact (mem_routePositions.mp hat).1
  · obtain ⟨⟨key, stage⟩, hkey, rfl⟩ := List.mem_map.mp h
    exact (mem_routeSetups.mp hkey).1

theorem nodup_slots (suite : BenchmarkSuite) : suite.slots.Nodup := by
  refine nodup_flatMap_of_key id Slot.routeId (by simpa using suite.routes_nodup)
    (fun route _ => ?_) fun route _ slot hslot => routeId_of_mem_routeSlots hslot
  refine List.Nodup.append ?_ ?_ fun slot htrial hsetup => ?_
  · exact (nodup_routePositions suite route).map fun at_ at_' h => Slot.trial.inj h
  · refine (nodup_routeSetups suite route).map fun slot slot' h => ?_
    obtain ⟨hkey, hstage⟩ := Slot.setup.inj h
    exact Prod.ext hkey hstage
  · obtain ⟨_, -, rfl⟩ := List.mem_map.mp htrial
    obtain ⟨_, -, heq⟩ := List.mem_map.mp hsetup
    cases heq

theorem nodup_slot_ids (env : Environment) (hd : DistinctIds suite) (hcases : suite.cases ≠ []) :
    (suite.slots.map (Slot.id env suite)).Nodup := by
  refine (nodup_slots suite).map_on fun slot hslot slot' hslot' hid => ?_
  obtain ⟨item, hitem, rfl | ⟨hcold, rfl⟩⟩ := exists_planned env hcases hslot <;>
    obtain ⟨item', hitem', rfl | ⟨hcold', rfl⟩⟩ := exists_planned env hcases hslot'
  · rw [hd _ ((mem_positions env).mpr ⟨item, hitem, rfl⟩) _
      ((mem_positions env).mpr ⟨item', hitem', rfl⟩) hid]
  · exact absurd hid.symm setupId_ne_trialId
  · exact absurd hid setupId_ne_trialId
  · obtain ⟨hkey, hstage⟩ := setupId_inj (show item.workerKey.2.cold = false from hcold)
      (show item'.workerKey.2.cold = false from hcold') hid
    rw [hkey, hstage]

/-! ## What calls execute -/

/-- What the executions of a campaign are, with or without screening. -/
structure Spent (env : Environment) (suite : BenchmarkSuite) (db : Database) : Prop where
  row : ∀ trial ∈ db.executed, ∃ row ∈ db.trials, row.id = trial.trialId
  nodup : db.ids.Nodup
  slot : ∀ trial ∈ db.executed, ∃ slot ∈ suite.slots,
    slot.id env suite = trial.trialId ∧ slot.routeId = trial.routeId

theorem Spent.empty : Spent env suite ⟨∅, []⟩ where
  row _ h := absurd h List.not_mem_nil
  nodup := List.nodup_nil
  slot _ h := absurd h List.not_mem_nil

theorem Spent.not_mem_ids (h : Spent env suite db) {id : String}
    (hfree : db.trials.find? id = none) : id ∉ db.ids := by
  intro hin
  obtain ⟨trial, htrial, rfl⟩ := List.mem_map.mp hin
  obtain ⟨row, hrow, hid⟩ := h.row trial htrial
  exact Table.find?_eq_none.mp hfree row hrow hid

theorem Spent.started (h : Spent env suite call.toDatabase) (hitem : item ∈ suite.planned env)
    (hstart : start env suite item call = .ok call') : Spent env suite call'.toDatabase := by
  obtain ⟨hfree, setups, rows, hst⟩ := start_ok hstart
  refine ⟨fun trial htrial => ?_, ?_, fun trial htrial => ?_⟩
  · rw [hst.executed, List.mem_append] at htrial
    rcases htrial with hold | hnew
    · obtain ⟨row, hrow, hid⟩ := h.row trial hold
      exact ⟨row, (hst.trials row).mpr (.inl hrow), hid⟩
    · obtain ⟨row, hrow, hof⟩ := forall₂_mem_right hst.rows_of hnew
      exact ⟨row, (hst.trials row).mpr (.inr hrow), hof.id_eq⟩
  · have hfresh := h.not_mem_ids hfree
    rw [hst.ids]
    rcases hst.warmed with ⟨rfl, -⟩ | ⟨rfl, -, hunused, -⟩
    · exact List.Nodup.append h.nodup (List.nodup_singleton _) (List.disjoint_singleton.mpr hfresh)
    · have hsetup := h.not_mem_ids hunused
      have hpair : [(item.setup env suite).trialId, (item.trial suite).trialId].Nodup :=
        List.nodup_cons.mpr ⟨fun heq => setup_ne_trial (List.mem_singleton.mp heq),
          List.nodup_singleton _⟩
      refine List.Nodup.append h.nodup hpair fun id hid hin => ?_
      rcases List.mem_pair.mp hin with rfl | rfl
      · exact hsetup hid
      · exact hfresh hid
  · rcases hst.mem.mp htrial with hold | hsetup | rfl
    · exact h.slot trial hold
    · obtain ⟨rfl, hcold, -, -⟩ := hst.setup hsetup
      exact ⟨_, setup_slot_mem hitem hcold, rfl, rfl⟩
    · exact ⟨_, trial_slot_mem hitem, rfl, rfl⟩

theorem Spent.turn (h : Spent env suite call.toDatabase) (hitem : item ∈ suite.planned env)
    (hturn : turn env suite call item = .ok call') : Spent env suite call'.toDatabase := by
  have henter : (enterStage suite item call).toDatabase = call.toDatabase := enterStage_database
  unfold Benchmark.turn at hturn
  split at hturn
  next => exact Except.ok.inj hturn ▸ h
  next =>
    dsimp only at hturn
    split at hturn
    next =>
      obtain ⟨-, rfl⟩ := resume_ok.mp hturn
      rw [screen_database]
      exact henter.symm ▸ h
    next => exact Spent.started (henter.symm ▸ h) hitem hturn

theorem Spent.fold {items : List Planned} (h : Spent env suite call.toDatabase)
    (hitems : ∀ item ∈ items, item ∈ suite.planned env)
    (hfold : items.foldlM (Benchmark.turn env suite) call = .ok call') :
    Spent env suite call'.toDatabase := by
  induction items generalizing call with
  | nil =>
    rw [List.foldlM_nil, pure_ok] at hfold
    exact hfold ▸ h
  | cons item items ih =>
    rw [List.foldlM_cons, bind_ok] at hfold
    obtain ⟨next, hturn, hfold⟩ := hfold
    obtain ⟨hitem, hrest⟩ := List.forall_mem_cons.mp hitems
    exact ih (h.turn hitem hturn) hrest hfold

theorem Spent.interrupted (h : Spent env suite db)
    (hcall : interrupted env suite db stop = .ok call) : Spent env suite call.toDatabase :=
  Spent.fold (show Spent env suite (Call.start db).toDatabase from h)
    (fun _ hitem => List.mem_of_mem_take hitem) hcall

/-- Whatever the calls of a campaign execute has a slot of its own. -/
theorem Spent.afterStops {stops : List ℕ} (h : Spent env suite db)
    (hok : afterStops env suite stops db = .ok db') : Spent env suite db' := by
  induction stops generalizing db with
  | nil => exact Except.ok.inj hok ▸ h
  | cons stop stops ih =>
    obtain ⟨call, hcall, hok⟩ := afterStops_cons.mp hok
    exact ih (h.interrupted hcall) hok

theorem sum_slots (suite : BenchmarkSuite) (weight : String → ℚ) :
    (suite.slots.map fun slot => weight slot.routeId).sum =
      (suite.trialsPerRoute + suite.setupsPerRoute : ℕ) * (suite.routes.map weight).sum := by
  have hroute : ∀ route, ((suite.routeSlots route).map fun slot => weight slot.routeId).sum =
      (suite.trialsPerRoute + suite.setupsPerRoute : ℕ) * weight route := fun route => by
    have hsame : (suite.routeSlots route).map (fun slot => weight slot.routeId) =
        (suite.routeSlots route).map fun _ => weight route :=
      List.map_congr_left fun slot hslot => by rw [routeId_of_mem_routeSlots hslot]
    rw [hsame, List.map_const', List.sum_replicate, length_routeSlots, nsmul_eq_mul]
  unfold BenchmarkSuite.slots
  rw [List.map_flatMap, List.flatMap, List.sum_flatten, List.map_map]
  rw [← List.sum_map_mul_left]
  exact congrArg List.sum (List.map_congr_left fun route _ => hroute route)

end Slots

/-! ## The bound -/

section Bound

variable {router : RouterView} {suite : PricedSuite} {ceiling : ℚ}

theorem bounds_nonneg {route : BenchmarkRoute} {upper : ℚ} (h : upper ∈ router.bounds route) :
    0 ≤ upper := by
  obtain ⟨spec, -, hspec⟩ := List.mem_filterMap.mp h
  exact spec.nonneg upper hspec

theorem upperOf_nonneg (router : RouterView) (suite : PricedSuite) (routeId : String) :
    0 ≤ suite.upperOf router routeId := by
  unfold PricedSuite.upperOf
  split
  next => exact le_rfl
  next route _ =>
    exact List.sum_nonneg fun upper hupper => bounds_nonneg hupper

/-- The bounds of the routes, by their ids. -/
theorem map_upperOf (router : RouterView) (suite : PricedSuite) :
    suite.routes.map (suite.upperOf router) = suite.benchmarkRoutes.map router.routeUpper := by
  rw [suite.routes_eq, List.map_map]
  refine List.map_congr_left fun route hroute => ?_
  have hnodup : (suite.benchmarkRoutes.map (·.routeId)).Nodup := suite.routes_eq ▸ suite.routes_nodup
  have hfound : suite.benchmarkRoutes.find? (·.routeId = route.routeId) = some route := by
    cases hfind : suite.benchmarkRoutes.find? (·.routeId = route.routeId) with
    | none => exact absurd (decide_eq_true rfl) (List.find?_eq_none.mp hfind route hroute)
    | some other =>
      have hid : other.routeId = route.routeId := by
        simpa using List.find?_some hfind
      rw [List.inj_on_of_nodup_map hnodup (List.mem_of_find?_eq_some hfind) hroute hid]
  simp only [Function.comp_apply, PricedSuite.upperOf, hfound]

theorem worstCash_eq (router : RouterView) (suite : PricedSuite) : suite.worstCash router =
    (suite.slots.map fun slot => suite.upperOf router slot.routeId).sum := by
  rw [sum_slots, map_upperOf]
  rfl

/-- A campaign whose trials stay within their routes' bounds costs at most the worst cash. -/
theorem totalCash_le {env : Environment} {stops : List ℕ} {db : Database}
    {cost : ℕ → BenchmarkTrial → ℚ}
    (hok : afterStops env suite.toBenchmarkSuite stops ⟨∅, []⟩ = .ok db)
    (hcost : ∀ trial ∈ db.executed.zipIdx, cost trial.2 trial.1 ≤ suite.upperOf router trial.1.routeId) :
    totalCash cost db.executed ≤ suite.worstCash router := by
  have hspent := Spent.empty.afterStops hok
  have hexecuted : (db.executed.zipIdx.map fun trial => suite.upperOf router trial.1.routeId) =
      db.executed.map fun trial => suite.upperOf router trial.routeId := by
    conv_rhs => rw [← List.zipIdx_map_fst 0 db.executed, List.map_map]
    rfl
  calc totalCash cost db.executed
      ≤ (db.executed.zipIdx.map fun trial => suite.upperOf router trial.1.routeId).sum :=
        List.sum_le_sum hcost
    _ = (db.executed.map fun trial => suite.upperOf router trial.routeId).sum := by rw [hexecuted]
    _ ≤ (suite.slots.map fun slot => suite.upperOf router slot.routeId).sum := by
        refine sum_le_of_named (g := Slot.id env suite.toBenchmarkSuite)
          (fun slot _ => upperOf_nonneg router suite slot.routeId) hspent.nodup fun trial htrial => ?_
        obtain ⟨slot, hslot, hid, hroute⟩ := hspent.slot trial htrial
        exact ⟨slot, hslot, hid, by rw [hroute]⟩
    _ = suite.worstCash router := (worstCash_eq router suite).symm

end Bound

/-! ## A campaign that executes everything -/

section Full

variable {env : Environment} {suite : BenchmarkSuite} {db : Database} {call call' : Call}
  {item : Planned}

/-- A runner whose trials are all complete, without a verdict. -/
def completing : Environment where
  suiteDigest := "d"
  shuffle items := items
  shuffleBlocks blocks := blocks
  shuffle_perm _ := List.Perm.refl _
  shuffleBlocks_perm _ := List.Perm.refl _
  execute _ _ :=
    ⟨true, none, some 1, ⟨0, 0, 0, 0⟩, ⟨⟨.unavailable, []⟩, [], []⟩, none, none, none, false⟩

def BenchmarkSuite.unscreened (suite : BenchmarkSuite) : BenchmarkSuite :=
  { suite with stopOnScreeningFailure := false }

structure NoVerdict (call : Call) : Prop where
  screenedOut : call.screenedOut = []
  rows : ∀ row ∈ call.trials, row.trial.valid = none

theorem NoVerdict.screen {trial : BenchmarkTrial} (h : NoVerdict call) (routeId : String)
    (hvalid : trial.valid = none) : NoVerdict (screen routeId trial call) := by
  unfold Benchmark.screen
  rw [if_neg fun hfailed => by rw [hvalid] at hfailed; cases hfailed.2]
  exact h

theorem NoVerdict.claim {trial : BenchmarkTrial} (h : NoVerdict call) (hvalid : trial.valid = none)
    (hclaim : claimTrial trial call = .ok call') : NoVerdict call' := by
  obtain ⟨hfree, rfl⟩ := claimTrial_ok.mp hclaim
  refine ⟨h.screenedOut, fun row hrow => ?_⟩
  rcases (Table.mem_insert hfree).mp hrow with hold | rfl
  · exact h.rows row hold
  · exact hvalid

theorem NoVerdict.execute (h : NoVerdict call) (trial : BenchmarkTrial) :
    NoVerdict (executeTrial completing trial call) := by
  refine ⟨h.screenedOut, fun row hrow => ?_⟩
  rcases Table.mem_put.mp hrow with rfl | ⟨hold, -⟩
  · rfl
  · exact h.rows row hold

theorem NoVerdict.turn (h : NoVerdict call)
    (hturn : turn completing suite call item = .ok call') : NoVerdict call' := by
  have henter : NoVerdict (enterStage suite item call) := by
    unfold enterStage
    split
    · exact ⟨h.screenedOut, h.rows⟩
    · exact h
  unfold Benchmark.turn at hturn
  rw [if_neg fun hscreened => by rw [h.screenedOut] at hscreened; cases hscreened.2] at hturn
  dsimp only at hturn
  split at hturn
  next row hrow =>
    obtain ⟨-, rfl⟩ := resume_ok.mp hturn
    have hlisted : NoVerdict { enterStage suite item call with
        reported := (enterStage suite item call).reported ++ [row.trial] } :=
      ⟨henter.screenedOut, henter.rows⟩
    exact hlisted.screen _ (henter.rows row (Table.mem_of_find? hrow))
  next =>
    unfold start at hturn
    simp only [bind_ok, pure_ok] at hturn
    obtain ⟨claimed, hclaim, warm, hwarm, rfl⟩ := hturn
    have hclaimed := henter.claim rfl hclaim
    have hwarmed : NoVerdict warm := by
      unfold warmUp at hwarm
      split at hwarm
      next => exact Except.ok.inj hwarm ▸ hclaimed
      next =>
        obtain ⟨setUp, hsetUp, rfl⟩ := map_ok.mp hwarm
        have hset := (hclaimed.claim rfl hsetUp).execute (item.setup completing suite)
        exact ⟨hset.screenedOut, hset.rows⟩
    exact (hwarmed.execute _).screen _ rfl

/-- Where nothing is screened out, screening changes nothing. -/
theorem turn_unscreened (h : NoVerdict call) :
    turn completing suite.unscreened call item = turn completing suite call item := by
  unfold Benchmark.turn
  rw [if_neg fun hscreened => by rw [h.screenedOut] at hscreened; cases hscreened.2]
  rw [if_neg fun hscreened => by rw [h.screenedOut] at hscreened; cases hscreened.2]
  rfl

theorem fold_unscreened {items : List Planned} (h : NoVerdict call) :
    items.foldlM (turn completing suite.unscreened) call =
      items.foldlM (turn completing suite) call := by
  induction items generalizing call with
  | nil => rfl
  | cons item items ih =>
    rw [List.foldlM_cons, List.foldlM_cons, turn_unscreened h]
    cases hturn : turn completing suite call item with
    | error => rfl
    | ok next => exact ih (h.turn hturn)

theorem alternate_unscreened {seen : List (BenchmarkSplit × TrialCondition)} {blocks : List Block} :
    suite.unscreened.alternate seen blocks = suite.alternate seen blocks := by
  induction blocks generalizing seen with
  | nil => rfl
  | cons block blocks ih =>
    unfold BenchmarkSuite.alternate
    dsimp only
    rw [ih]
    rfl

theorem planned_unscreened (env : Environment) :
    suite.unscreened.planned env = suite.planned env := by
  unfold BenchmarkSuite.planned
  simp only [alternate_unscreened]
  rfl

theorem exists_full (suite : BenchmarkSuite) (hd : DistinctIds suite) (hcases : suite.cases ≠ []) :
    ∃ stops db, afterStops completing suite stops ⟨∅, []⟩ = .ok db ∧
      ∀ slot ∈ suite.slots, ∃ trial ∈ db.executed,
        trial.trialId = slot.id completing suite ∧ trial.routeId = slot.routeId := by
  have hempty : Reached completing suite.unscreened ⟨∅, []⟩ 0 := .empty
  obtain ⟨call, hcall⟩ := hempty.isOk rfl (fun _ h => absurd h List.not_mem_nil)
    (suite.planned completing).length
  have hinside := interrupted_inside rfl .empty hcall
  have hstart : NoVerdict (Call.start ⟨∅, []⟩) := ⟨rfl, fun _ h => absurd h Table.not_mem_empty⟩
  have hsame : interrupted completing suite ⟨∅, []⟩ (suite.planned completing).length = .ok call := by
    unfold interrupted at hcall ⊢
    rwa [planned_unscreened, fold_unscreened hstart] at hcall
  rw [planned_unscreened, List.take_length] at hinside
  have hexecuted : ∀ item ∈ suite.planned completing, item.trial suite ∈ call.executed :=
    fun item hitem => hinside.stored.mem_executed hd
      ((planned_unscreened completing).symm ▸ hitem) (hinside.visited_ids item hitem)
  refine ⟨[(suite.planned completing).length], call.toDatabase,
    afterStops_cons.mpr ⟨call, hsame, rfl⟩, fun slot hslot => ?_⟩
  obtain ⟨item, hitem, rfl | ⟨hcold, rfl⟩⟩ := exists_planned completing hcases hslot
  · exact ⟨_, hexecuted item hitem, rfl, rfl⟩
  · have hplanned : item ∈ suite.unscreened.planned completing :=
      (planned_unscreened completing).symm ▸ hitem
    obtain ⟨other, -, -, -, hsetup, hkey, hstage⟩ := hinside.stored.of_setupId hcold
      (hinside.stored.warmed item hplanned hcold (hexecuted item hitem))
    refine ⟨_, hsetup, ?_, congrArg Prod.fst hkey⟩
    change setupId completing other.workerKey (other.stage suite.unscreened) = _
    rw [hkey, hstage]
    rfl

end Full

/-! ## The ceiling -/

section Ceiling

variable {router : RouterView} {suite : PricedSuite} {ceiling : ℚ}

theorem within_of_worstCash (h : suite.worstCash router ≤ ceiling) :
    suite.WithinCeiling router ceiling :=
  fun _ _ _ _ hok hcost => (totalCash_le hok hcost).trans h

theorem worstCash_le_of_within (hd : DistinctIds suite.toBenchmarkSuite)
    (h : suite.WithinCeiling router ceiling) : suite.worstCash router ≤ ceiling := by
  obtain ⟨stops, db, hok, hslots⟩ := exists_full suite.toBenchmarkSuite hd suite.cases_ne
  have hbound := h completing stops db (fun _ trial => suite.upperOf router trial.routeId) hok
    fun _ _ => le_rfl
  have hids := nodup_slot_ids completing hd suite.cases_ne
  calc suite.worstCash router
      = (suite.slots.map fun slot => suite.upperOf router slot.routeId).sum :=
        worstCash_eq router suite
    _ ≤ (db.executed.map fun trial => suite.upperOf router trial.routeId).sum := by
        refine sum_le_of_named (g := BenchmarkTrial.trialId)
          (fun trial _ => upperOf_nonneg router suite trial.routeId) hids fun slot hslot => ?_
        obtain ⟨trial, htrial, hid, hroute⟩ := hslots slot hslot
        exact ⟨trial, htrial, hid, by rw [hroute]⟩
    _ = totalCash (fun _ trial => suite.upperOf router trial.routeId) db.executed := by
        unfold totalCash
        conv_lhs => rw [← List.zipIdx_map_fst 0 db.executed, List.map_map]
        rfl
    _ ≤ ceiling := hbound

/-! ## What the preflight sums -/

/-- Adds the bound of an executor for every counted trial. -/
def addBound (suite : PricedSuite) (planned upper : ℚ) : ℚ :=
  dec (planned + dec (upper * suite.multiplier))

theorem addExecutor_plannedUpper {route : BenchmarkRoute} {exposure next : Exposure}
    {spec : RouteExecutor} (h : addExecutor router suite route exposure spec = .ok next) :
    next.plannedUpper = spec.upperBoundUsd.toList.foldl (addBound suite) exposure.plannedUpper := by
  unfold addExecutor at h
  simp only [bind_ok, pure_ok, raiseIf_ok, exists_const] at h
  obtain ⟨_, -, -, -, rfl⟩ := h
  cases spec.upperBoundUsd <;> rfl

theorem addRoute_plannedUpper {route : BenchmarkRoute} {exposure next : Exposure}
    (h : addRoute router suite exposure route = .ok next) :
    next.plannedUpper = (router.bounds route).foldl (addBound suite) exposure.plannedUpper := by
  unfold addRoute at h
  simp only [bind_ok] at h
  obtain ⟨_, -, _, -, specs, hspecs, hfold⟩ := h
  have hbounds : router.bounds route = specs.filterMap (·.upperBoundUsd) := by
    unfold RouterView.bounds
    rw [hspecs]
    rfl
  rw [hbounds]
  clear hspecs hbounds
  induction specs generalizing exposure with
  | nil =>
    rw [List.foldlM_nil, pure_ok] at hfold
    rw [hfold]
    rfl
  | cons spec specs ih =>
    rw [List.foldlM_cons, bind_ok] at hfold
    obtain ⟨middle, hspec, hrest⟩ := hfold
    rw [ih hrest, addExecutor_plannedUpper hspec]
    cases hupper : spec.upperBoundUsd with
    | none => rw [List.filterMap_cons_none hupper]; rfl
    | some upper => rw [List.filterMap_cons_some hupper]; rfl

/-- A suite that passes fits its counted trials into the ceiling. -/
theorem preflight_ok (h : preflight router suite = .ok ())
    (hmax : suite.maxTotalCashUsd = some ceiling) :
    decSum ((suite.bounds router).map fun upper =>
      dec (upper * suite.multiplier)) ≤ ceiling := by
  unfold preflight at h
  simp only [bind_ok, raiseIf_ok, exists_const] at h
  obtain ⟨exposure, hfold, -, hfits, -⟩ := h
  have hplanned : ∀ (routes : List BenchmarkRoute) (start next : Exposure),
      routes.foldlM (addRoute router suite) start = .ok next →
      next.plannedUpper = (routes.flatMap router.bounds).foldl (addBound suite) start.plannedUpper := by
    intro routes
    induction routes with
    | nil =>
      intro start next hnext
      rw [List.foldlM_nil, pure_ok] at hnext
      rw [hnext]
      rfl
    | cons route routes ih =>
      intro start next hnext
      rw [List.foldlM_cons, bind_ok] at hnext
      obtain ⟨middle, hroute, hrest⟩ := hnext
      rw [ih middle next hrest, addRoute_plannedUpper hroute, List.flatMap_cons, List.foldl_append]
  have hsum : exposure.plannedUpper = decSum ((suite.bounds router).map
      fun upper => dec (upper * suite.multiplier)) := by
    rw [hplanned _ _ _ hfold]
    unfold decSum Decimal.sum
    rw [List.foldl_map]
    rfl
  rw [← hsum]
  by_contra hlt
  exact hfits ⟨ceiling, hmax, not_le.mp hlt⟩

/-- The preflight counts every trial, and one set-up of a router that is kept. -/
theorem slots_le_multiplier (suite : BenchmarkSuite) (h : suite.setupsPerRoute ≤ 1) :
    suite.trialsPerRoute + suite.setupsPerRoute ≤ suite.multiplier := by
  have htrials : suite.trialsPerRoute ≤
      suite.repetitions * suite.cases.length * suite.conditions.length := by
    have hdedup : suite.conditions.dedup.length ≤ suite.conditions.length :=
      (List.dedup_sublist suite.conditions).length_le
    calc suite.trialsPerRoute
        ≤ suite.cases.length * (suite.conditions.length * suite.repetitions) :=
          Nat.mul_le_mul_left _ (Nat.mul_le_mul_right _ hdedup)
      _ = suite.repetitions * suite.cases.length * suite.conditions.length := by ring
  have hsetups : suite.setupsPerRoute ≤
      if .routerWarm ∈ suite.conditions ∨ .reusedWorker ∈ suite.conditions then 1 else 0 := by
    split
    next => exact h
    next hcold =>
      have hnone : suite.keptConditions = [] := by
        refine List.filter_eq_nil_iff.mpr fun condition hcondition => ?_
        rw [List.mem_dedup] at hcondition
        cases condition <;> simp_all [TrialCondition.cold]
      rw [BenchmarkSuite.setupsPerRoute, hnone]
      simp
  exact add_le_add htrials hsetups

theorem worstCash_le_of_preflight {e : ℤ} (hpre : preflight router suite = .ok ())
    (hmax : suite.maxTotalCashUsd = some ceiling) (hset : suite.setupsPerRoute ≤ 1)
    (hgrid : ∀ upper ∈ suite.bounds router, Decimal.OnGrid e upper)
    (hfits : (suite.bounds router).sum * suite.multiplier ≤ 10 ^ (e + 28)) :
    suite.worstCash router ≤ ceiling := by
  have hnonneg : ∀ upper ∈ suite.bounds router, 0 ≤ upper := fun upper hupper => by
    obtain ⟨route, -, hin⟩ := List.mem_flatMap.mp hupper
    exact bounds_nonneg hin
  have hmul : ((suite.bounds router).map fun upper => upper * (suite.multiplier : ℚ)).sum =
      (suite.bounds router).sum * suite.multiplier := by
    rw [List.sum_map_mul_right, List.map_id']
  have hproduct : ∀ upper ∈ suite.bounds router,
      Decimal.OnGrid e (upper * suite.multiplier) ∧ 0 ≤ upper * suite.multiplier := by
    intro upper hupper
    obtain ⟨n, hn⟩ := hgrid upper hupper
    exact ⟨⟨n * suite.multiplier, by rw [hn]; push_cast; ring⟩,
      mul_nonneg (hnonneg upper hupper) (Nat.cast_nonneg _)⟩
  have hexact : ((suite.bounds router).map fun upper => dec (upper * suite.multiplier)) =
      (suite.bounds router).map fun upper => upper * (suite.multiplier : ℚ) := by
    refine List.map_congr_left fun upper hupper => ?_
    obtain ⟨hon, hpos⟩ := hproduct upper hupper
    refine dec_of_onGrid hon ?_
    rw [abs_of_nonneg hpos]
    refine le_trans (mul_le_mul_of_nonneg_right ?_ (Nat.cast_nonneg _)) hfits
    exact List.single_le_sum hnonneg upper hupper
  have hplanned := preflight_ok hpre hmax
  rw [hexact, (decSum_of_onGrid (e := e) ?_ (hmul.trans_le hfits)).1, hmul] at hplanned
  · have hroutes : (suite.benchmarkRoutes.map router.routeUpper).sum = (suite.bounds router).sum := by
      unfold PricedSuite.bounds RouterView.routeUpper
      rw [List.flatMap, List.sum_flatten, List.map_map]
      rfl
    calc suite.worstCash router
        = (suite.bounds router).sum * (suite.trialsPerRoute + suite.setupsPerRoute : ℕ) := by
          rw [PricedSuite.worstCash, hroutes, mul_comm]
      _ ≤ (suite.bounds router).sum * suite.multiplier :=
          mul_le_mul_of_nonneg_left (Nat.cast_le.mpr (slots_le_multiplier _ hset))
            (List.sum_nonneg hnonneg)
      _ ≤ ceiling := hplanned
  · intro x hx
    obtain ⟨upper, hupper, rfl⟩ := List.mem_map.mp hx
    exact hproduct upper hupper

end Ceiling

/-- The ceiling of a suite that passed the preflight bounds the cash of every campaign exactly when
it pays for all trials and all set-ups, at least where the ids tell the positions apart. It does so
where a route is set up at most once and the bounds are priced without rounding. -/
theorem within_ceiling_iff (router : RouterView) (suite : PricedSuite) {ceiling : ℚ}
    (hpre : preflight router suite = .ok ()) (hmax : suite.maxTotalCashUsd = some ceiling) :
    (suite.worstCash router ≤ ceiling → suite.WithinCeiling router ceiling) ∧
    (DistinctIds suite.toBenchmarkSuite →
      (suite.WithinCeiling router ceiling ↔ suite.worstCash router ≤ ceiling)) ∧
    ∀ e : ℤ, suite.setupsPerRoute ≤ 1 →
      (∀ upper ∈ suite.bounds router, Decimal.OnGrid e upper) →
      (suite.bounds router).sum * suite.multiplier ≤ 10 ^ (e + 28) →
      suite.WithinCeiling router ceiling :=
  ⟨within_of_worstCash, fun hd => ⟨worstCash_le_of_within hd, within_of_worstCash⟩,
    fun _ hset hgrid hfits =>
      within_of_worstCash (worstCash_le_of_preflight hpre hmax hset hgrid hfits)⟩

/-! ## A staged campaign -/

/-- One route of one executor that may cost one dollar a trial. -/
def dollarRouter : RouterView where
  specs route := .ok [⟨route.routeId, true, .read, true, some 1, none, "f", [], by decide +kernel⟩]
  candidate _ := none
  trialFingerprint _ := none
  subscriptionWeight _ := 1

theorem one_repetition : 1 ≤ 1 ∧ 1 ≤ 1000 := by decide

theorem one_route_nodup : ["r"].Nodup := by decide

/-- A training case and a held-out case on a router kept warm, under a ceiling of three dollars. -/
def dollarSuite (staged : Bool) : PricedSuite where
  suiteId := "s"
  seed := 0
  repetitions := 1
  routes := ["r"]
  conditions := [.routerWarm]
  cases := [⟨"a", .training, none, none⟩, ⟨"b", .holdout, none, none⟩]
  sequentialStages := staged
  stopOnScreeningFailure := false
  warmupCases := [⟨"w", .training, none, none⟩]
  pairedOrder := false
  repeated := one_repetition
  routes_nodup := one_route_nodup
  cases_nodup := by decide
  warmup_nodup := by decide
  warmup_separate := by decide
  staged_warmup _ _ := by decide
  benchmarkRoutes := [⟨"r", none, none, none, none, none⟩]
  pricingSnapshots := []
  acknowledgeCashRisk := true
  maxTotalCashUsd := some 3
  allowZeroSubscriptionWeight := false
  routes_eq := rfl
  cases_ne := by decide

/-- Without stages the router is set up once. -/
theorem within_ceiling_iff_of_one_setup :
    preflight dollarRouter (dollarSuite false) = .ok () ∧
      (dollarSuite false).WithinCeiling dollarRouter 3 := by
  have hpre : preflight dollarRouter (dollarSuite false) = .ok () := by decide +kernel
  exact ⟨hpre, (within_ceiling_iff dollarRouter (dollarSuite false) hpre rfl).2.2 0
    (by decide +kernel) (by decide +kernel) (by decide +kernel)⟩

/-- With stages it is set up for each of them, and the campaign costs four dollars. -/
theorem staged_setups_exceed_ceiling : preflight dollarRouter (dollarSuite true) = .ok () ∧
    ¬ (dollarSuite true).WithinCeiling dollarRouter 3 := by
  refine ⟨by decide +kernel, fun h => ?_⟩
  have hbound := worstCash_le_of_within (by decide +kernel) h
  exact absurd hbound (by decide +kernel)

end AeepRouter.Benchmark

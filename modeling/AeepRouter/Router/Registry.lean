import Mathlib.Data.String.Basic
import AeepRouter.Lib.Retention
import AeepRouter.Lib.Increasing
import AeepRouter.Policy.Scoring
import AeepRouter.Router.Decisions

/-!
# The registry of executors

A registry keeps its executors by id and, for each capability, in a list that is sorted by id. The two
agree after every sequence of registrations and replacements (`Registry.Coherent`), so that what the
registry answers depends on the executors it has and not on how they came there
(`views_of_executors`). The pages of a search are the matches, each once (`pages_of_search`).
-/

namespace AeepRouter.Router

open Lib

/-- What the registry and the router read of an `ExecutorSpec`. -/
structure RoutedSpec extends Policy.ExecutorSpec where
  capability : String
  description : String
  enabled : Bool

/-- `Registry`: `_by_id`, and `_by_capability`, whose missing lists are empty. -/
structure Registry where
  byId : Table RoutedSpec (·.id)
  byCapability : Table (String × List RoutedSpec) Prod.fst

namespace Registry

variable (r : Registry)

def empty : Registry := ⟨∅, ∅⟩

def group (capability : String) : List RoutedSpec :=
  ((r.byCapability.find? capability).map Prod.snd).getD []

def setGroup (capability : String) (specs : List RoutedSpec) : Registry :=
  { r with byCapability := r.byCapability.assign (capability, specs) }

/-- `sort(key=lambda item: item.id)`. -/
def sortById (specs : List RoutedSpec) : List RoutedSpec := sortOn (·.id) specs

/-- Stores an executor by its id, and at the end of the list of its capability before that is sorted. -/
def store (executor : RoutedSpec) : Registry :=
  { r with byId := r.byId.assign executor }.setGroup executor.capability
    (sortById (r.group executor.capability ++ [executor]))

def register (executor : RoutedSpec) : Result Registry := do
  refuseIf ((r.byId.find? executor.id).isSome)
    ("executor '" ++ executor.id ++ "' is already registered")
  pure (r.store executor)

def get (executorId : String) : Result RoutedSpec :=
  demand (r.byId.find? executorId) ("unknown executor '" ++ executorId ++ "'")

def contains (executorId : String) : Bool := (r.byId.find? executorId).isSome

/-- Drops an executor from the list of the capability it had. -/
def dropFromGroup (executor : RoutedSpec) : Registry :=
  match r.byId.find? executor.id with
  | none => r
  | some existing =>
    r.setGroup existing.capability
      ((r.group existing.capability).filter fun item => item.id ≠ executor.id)

def replace (executor : RoutedSpec) : Registry := (r.dropFromGroup executor).store executor

def find (capability : String) (includeDisabled : Bool) : List RoutedSpec :=
  (r.group capability).filter fun executor => includeDisabled || executor.enabled

/-- A round of `compatible`; `validate` is `validate_json` under the schema of an executor, with the
text of an `InputValidationError`. -/
def admitInput (validate : RoutedSpec → Result (Option String))
    (state : List RoutedSpec × List (String × String)) (executor : RoutedSpec) :
    Result (List RoutedSpec × List (String × String)) := do
  match ← validate executor with
  | none => pure (state.1 ++ [executor], state.2)
  | some error => pure (state.1, state.2 ++ [(executor.id, error)])

def compatible (validate : RoutedSpec → Result (Option String)) (capability : String) :
    Result (List RoutedSpec × List (String × String)) :=
  (r.find capability false).foldlM (admitInput validate) ([], [])

def capabilities : List String :=
  sortOn id ((r.byCapability.rows.filter fun row => row.2.any (·.enabled)).map Prod.fst)

/-- `all`. -/
def listed (includeDisabled : Bool) : List RoutedSpec :=
  (sortById r.byId.rows).filter fun executor => includeDisabled || executor.enabled

/-! ## Search -/

/-- What a search says of a capability. -/
structure Summary where
  capability : String
  executorCount : ℕ
  kinds : List String
  executors : Option (List RoutedSpec)

structure Page where
  capabilities : List Summary
  nextCursor : Option ℕ
  total : ℕ

structure Texts where
  casefold : String → String
  split : String → List String

variable (texts : Texts) (query : String) (initial : Option String) (includeExecutors : Bool)

/-- Whether a capability has the prefix and the terms that are searched. -/
def isMatch (capability : String) : Bool :=
  let executors := r.find capability false
  let haystack := texts.casefold
    (" ".intercalate (capability :: executors.map (·.id) ++ executors.map (·.description)))
  (initial.all fun text => text.toList.isPrefixOf capability.toList) &&
    (texts.split (texts.casefold query)).all fun term => textContains term haystack

def summary (capability : String) : Summary :=
  let executors := r.find capability false
  { capability := capability
    executorCount := executors.length
    kinds := sortOn id (executors.map fun executor => Policy.kindValue executor.kind).dedup
    executors := if includeExecutors then some executors else none }

def searchMatches : List Summary :=
  (r.capabilities.filter (r.isMatch texts query initial)).map (r.summary includeExecutors)

def pageOf (found : List Summary) (limit cursor : ℤ) : Page :=
  let start := (max 0 cursor).toNat
  let pageSize := (max 1 (min limit 100)).toNat
  let (page, nextCursor) := slice pageSize found start
  { capabilities := page
    nextCursor := nextCursor
    total := found.length }

def search (limit cursor : ℤ) : Page :=
  pageOf (r.searchMatches texts query initial includeExecutors) limit cursor

/-- The pages a caller reads who follows `next_cursor`, at most so many. -/
def pages (limit : ℤ) : ℕ → ℤ → List Page
  | 0, _ => []
  | n + 1, cursor =>
    let page := r.search texts query initial includeExecutors limit cursor
    page :: (page.nextCursor.map fun next => pages limit n next).getD []

/-! ## Runs -/

inductive Step where
  | register (executor : RoutedSpec)
  | replace (executor : RoutedSpec)

def step (r : Registry) : Step → Registry
  | .register executor => ((r.register executor).toOption).getD r
  | .replace executor => r.replace executor

end Registry

/-! ## Coherence -/

namespace Registry

variable {r r' : Registry} {executor spec : RoutedSpec} {capability : String}

@[simp] theorem group_setGroup (specs : List RoutedSpec) (c : String) :
    (r.setGroup capability specs).group c = if c = capability then specs else r.group c := by
  unfold group setGroup
  rw [Table.find?_assign]
  split
  · rfl
  · rfl

@[simp] theorem byId_setGroup (specs : List RoutedSpec) :
    (r.setGroup capability specs).byId = r.byId := rfl

/-- The lists of the capabilities are sorted, and have the executors that are stored by their ids,
but for those that are left out. -/
structure Holds (r : Registry) (out : RoutedSpec → Prop) : Prop where
  sorted : ∀ c, Increasing (·.id) (r.group c)
  mem : ∀ c spec, spec ∈ r.group c ↔
    r.byId.find? spec.id = some spec ∧ spec.capability = c ∧ ¬ out spec

/-- The lists of the capabilities and the executors by id agree. -/
abbrev Coherent (r : Registry) : Prop := r.Holds fun _ => False

theorem Holds.nodup_append (h : r.Holds fun spec => spec.id = executor.id) :
    ((r.group capability ++ [executor]).map (·.id)).Nodup := by
  rw [List.map_append, List.nodup_append]
  refine ⟨(h.sorted capability).nodup_map, by simp, ?_⟩
  rintro id hid other hother rfl
  obtain ⟨spec, hspec, rfl⟩ := List.mem_map.mp hid
  exact ((h.mem capability spec).mp hspec).2.2 (by simpa using hother)

/-- Storing an executor that the lists leave out. -/
theorem Holds.store (h : r.Holds fun spec => spec.id = executor.id) : (r.store executor).Coherent where
  sorted c := by
    unfold Registry.store
    rw [group_setGroup]
    split
    · exact sortOn_increasing h.nodup_append
    · exact h.sorted c
  mem c spec := by
    unfold Registry.store
    rw [group_setGroup, byId_setGroup, Table.find?_assign, not_false_eq_true, and_true]
    by_cases hid : spec.id = executor.id
    · have hout : spec ∉ r.group c := fun hmem => ((h.mem c spec).mp hmem).2.2 hid
      have hout' : spec ∉ r.group executor.capability := fun hmem =>
        ((h.mem executor.capability spec).mp hmem).2.2 hid
      rw [if_pos hid]
      split
      · next hc =>
        rw [sortById, mem_sortOn, List.mem_append, or_iff_right hout', List.mem_singleton, hc]
        constructor
        · rintro rfl
          exact ⟨rfl, rfl⟩
        · rintro ⟨heq, -⟩
          exact (Option.some.inj heq).symm
      · next hc =>
        refine ⟨fun hmem => absurd hmem hout, ?_⟩
        rintro ⟨heq, rfl⟩
        exact absurd (congrArg RoutedSpec.capability (Option.some.inj heq)).symm hc
    · have hne : spec ≠ executor := fun heq => hid (congrArg (·.id) heq)
      have hmem := h.mem c spec
      rw [if_neg hid]
      split
      · next hc =>
        subst hc
        rw [sortById, mem_sortOn, List.mem_append, List.mem_singleton, or_iff_left hne, hmem]
        simp [hid]
      · exact hmem.trans (by simp [hid])

theorem Holds.leaveOut (h : r.Coherent) (hfree : r.byId.find? executor.id = none) :
    r.Holds fun spec => spec.id = executor.id where
  sorted := h.sorted
  mem c spec := by
    rw [h.mem c spec]
    refine and_congr_right fun hfound => and_congr_right fun _ => ?_
    have hne : ¬ spec.id = executor.id := fun hid => by
      rw [hid, hfree] at hfound
      cases hfound
    exact ⟨fun _ => hne, fun _ hfalse => hfalse⟩

theorem Holds.dropFromGroup (h : r.Coherent) :
    (r.dropFromGroup executor).Holds fun spec => spec.id = executor.id := by
  unfold Registry.dropFromGroup
  cases hexisting : r.byId.find? executor.id with
  | none => exact Holds.leaveOut h hexisting
  | some existing =>
    refine ⟨fun c => ?_, fun c spec => ?_⟩
    · rw [group_setGroup]
      split
      · exact (h.sorted _).filter _
      · exact h.sorted c
    · have hmem := h.mem c spec
      simp only [not_false_eq_true, and_true] at hmem
      rw [group_setGroup, byId_setGroup]
      split
      · next hc =>
        subst hc
        rw [List.mem_filter, hmem, decide_eq_true_eq, and_assoc]
      · next hc =>
        rw [hmem]
        refine and_congr_right fun hfound => ⟨fun hcap => ⟨hcap, fun hid => ?_⟩, And.left⟩
        rw [hid, hexisting] at hfound
        exact hc (hcap ▸ congrArg RoutedSpec.capability (Option.some.inj hfound).symm)

/-- Every step keeps the lists and the executors in agreement. -/
theorem Holds.step (h : r.Coherent) (s : Step) : (r.step s).Coherent := by
  cases s with
  | register executor =>
    unfold Registry.step Registry.register
    by_cases hfound : (r.byId.find? executor.id).isSome
    · simp only [refuseIf, raiseIf, if_pos hfound]
      exact h
    · simp only [refuseIf, raiseIf, if_neg hfound]
      exact (Holds.leaveOut h (Option.not_isSome_iff_eq_none.mp hfound)).store
  | replace executor => exact (Holds.dropFromGroup h).store

theorem Holds.empty : Registry.empty.Coherent where
  sorted _ := List.Pairwise.nil
  mem _ _ := ⟨fun hmem => absurd hmem List.not_mem_nil, fun h => nomatch h.1⟩

theorem coherent_run (steps : List Step) : (run Registry.step .empty steps).Coherent :=
  run_invariant (fun (r : Registry) (s : Step) (h : r.Coherent) =>
    (Holds.step h s : (r.step s).Coherent)) steps Holds.empty

/-! ## Views -/

theorem mem_find (h : r.Coherent) {includeDisabled : Bool} :
    spec ∈ r.find capability includeDisabled ↔ r.byId.find? spec.id = some spec ∧
      spec.capability = capability ∧ (includeDisabled = true ∨ spec.enabled = true) := by
  rw [find, List.mem_filter, h.mem]
  simp [and_assoc]

theorem find_increasing (h : r.Coherent) (includeDisabled : Bool) :
    Increasing (·.id) (r.find capability includeDisabled) := (h.sorted capability).filter _

theorem mem_capabilities (h : r.Coherent) :
    capability ∈ r.capabilities ↔
      ∃ spec, r.byId.find? spec.id = some spec ∧ spec.capability = capability ∧ spec.enabled := by
  have hgroup : capability ∈ r.capabilities ↔ ∃ spec ∈ r.group capability, spec.enabled := by
    rw [capabilities, mem_sortOn, List.mem_map]
    constructor
    · rintro ⟨row, hrow, rfl⟩
      obtain ⟨hrow, hany⟩ := List.mem_filter.mp hrow
      obtain ⟨spec, hspec, henabled⟩ := List.any_eq_true.mp hany
      refine ⟨spec, ?_, henabled⟩
      rw [group, Table.find?_of_mem hrow]
      exact hspec
    · rintro ⟨spec, hspec, henabled⟩
      unfold group at hspec
      cases hrow : r.byCapability.find? capability with
      | none =>
        rw [hrow] at hspec
        cases hspec
      | some row =>
        rw [hrow] at hspec
        obtain ⟨hin, hkey⟩ := Table.find?_eq_some.mp hrow
        exact ⟨row, List.mem_filter.mpr ⟨hin, List.any_eq_true.mpr ⟨spec, hspec, henabled⟩⟩, hkey⟩
  rw [hgroup]
  refine exists_congr fun spec => ?_
  rw [h.mem]
  simp [and_assoc]

theorem capabilities_increasing : Increasing id r.capabilities := by
  refine sortOn_increasing ?_
  rw [List.map_id]
  exact (List.filter_sublist.map Prod.fst).nodup r.byCapability.nodup

theorem mem_listed {includeDisabled : Bool} :
    spec ∈ r.listed includeDisabled ↔
      r.byId.find? spec.id = some spec ∧ (includeDisabled = true ∨ spec.enabled = true) := by
  rw [listed, List.mem_filter, sortById, mem_sortOn, Table.find?_eq_some, Bool.or_eq_true]
  exact ⟨fun h => ⟨⟨h.1, rfl⟩, h.2⟩, fun h => ⟨h.1.1, h.2⟩⟩

theorem listed_increasing (includeDisabled : Bool) :
    Increasing (·.id) (r.listed includeDisabled) :=
  (sortOn_increasing r.byId.nodup).filter _

section Same

variable (h : r.Coherent) (h' : r'.Coherent) (hsame : ∀ id, r.byId.find? id = r'.byId.find? id)

include h h' hsame

theorem find_congr : r.find = r'.find := by
  funext c includeDisabled
  refine (find_increasing h _).eq (find_increasing h' _) fun spec => ?_
  rw [mem_find h, mem_find h', hsame]

theorem capabilities_congr : r.capabilities = r'.capabilities :=
  capabilities_increasing.eq capabilities_increasing fun c => by
    rw [mem_capabilities h, mem_capabilities h']
    simp only [hsame]

theorem search_congr : r.search = r'.search := by
  have hfind := find_congr h h' hsame
  have hmatch : r.isMatch = r'.isMatch := by
    unfold isMatch
    rw [hfind]
  have hsummary : r.summary = r'.summary := by
    unfold summary
    rw [hfind]
  unfold search searchMatches
  rw [hmatch, hsummary, capabilities_congr h h' hsame]

omit h h' in
theorem listed_congr : r.listed = r'.listed := by
  funext includeDisabled
  refine (listed_increasing _).eq (listed_increasing _) fun spec => ?_
  rw [mem_listed, mem_listed, hsame]

theorem compatible_congr : r.compatible = r'.compatible := by
  unfold compatible
  rw [find_congr h h' hsame]

end Same

theorem get_ok {id : String} : r.get id = .ok spec ↔ r.byId.find? id = some spec := require_ok

theorem find?_eq_of_get {id : String} (h : r.get id = r'.get id) :
    r.byId.find? id = r'.byId.find? id :=
  Option.ext fun spec => by rw [← get_ok, ← get_ok, h]

/-! ## Pages -/

theorem pages_eq_slices (texts : Texts) (query : String) (initial : Option String)
    (includeExecutors : Bool) (limit : ℤ) (n start : ℕ) :
    (r.pages texts query initial includeExecutors limit n start).map (·.capabilities) =
      slices (max 1 (min limit 100)).toNat (r.searchMatches texts query initial includeExecutors)
        n start := by
  induction n generalizing start with
  | zero => rfl
  | succ n ih =>
    unfold pages slices
    have hstart : (max 0 (start : ℤ)).toNat = start := by omega
    simp only [search, pageOf, hstart, List.map_cons]
    congr 1
    cases (slice (max 1 (min limit 100)).toNat
      (r.searchMatches texts query initial includeExecutors) start).2 with
    | none => rfl
    | some next => exact ih next

theorem pages_end (texts : Texts) (query : String) (initial : Option String)
    (includeExecutors : Bool) (limit : ℤ) (n start : ℕ)
    (hn : (r.searchMatches texts query initial includeExecutors).length < start + n) :
    ∀ page ∈ (r.pages texts query initial includeExecutors limit n start).getLast?,
      page.nextCursor = none := by
  induction n generalizing start with
  | zero => exact nofun
  | succ n ih =>
    unfold pages
    have hstart : (max 0 (start : ℤ)).toNat = start := by omega
    simp only [search, pageOf, hstart, List.getLast?_cons]
    cases hnext : (slice (max 1 (min limit 100)).toNat
        (r.searchMatches texts query initial includeExecutors) start).2 with
    | none => simp
    | some next =>
      have hlater := slice_next (by omega : 1 ≤ (max 1 (min limit 100)).toNat) hnext
      have hpages : r.pages texts query initial includeExecutors limit n next ≠ [] := by
        cases n with
        | zero => omega
        | succ n => exact List.cons_ne_nil _ _
      obtain ⟨last, hlast⟩ : ∃ last,
          (r.pages texts query initial includeExecutors limit n next).getLast? = some last :=
        ⟨_, List.getLast?_eq_some_getLast hpages⟩
      intro page hpage
      have heq : (r.pages texts query initial includeExecutors limit n next).getLast?.getD _ = page :=
        Option.some.inj hpage
      rw [hlast, Option.getD_some] at heq
      exact ih next (by omega) page (heq ▸ hlast)

end Registry

open Registry

/-- After any registrations and replacements, what the registry answers is what the executors it has by
their ids say, in the order of ids and each once; so two registries with the same executors answer the
same, however these came there. -/
theorem views_of_executors (steps : List Step) :
    let r := run Registry.step .empty steps
    (∀ capability includeDisabled, Increasing (·.id) (r.find capability includeDisabled) ∧
      ∀ spec, spec ∈ r.find capability includeDisabled ↔ r.get spec.id = .ok spec ∧
        spec.capability = capability ∧ (includeDisabled = true ∨ spec.enabled = true)) ∧
    (Increasing id r.capabilities ∧ ∀ capability, capability ∈ r.capabilities ↔
      ∃ spec, r.get spec.id = .ok spec ∧ spec.capability = capability ∧ spec.enabled = true) ∧
    (∀ includeDisabled, Increasing (·.id) (r.listed includeDisabled) ∧
      ∀ spec, spec ∈ r.listed includeDisabled ↔
        r.get spec.id = .ok spec ∧ (includeDisabled = true ∨ spec.enabled = true)) ∧
    ∀ steps', (∀ id, r.get id = (run Registry.step .empty steps').get id) →
      (run Registry.step .empty steps').find = r.find ∧
      (run Registry.step .empty steps').compatible = r.compatible ∧
      (run Registry.step .empty steps').capabilities = r.capabilities ∧
      (run Registry.step .empty steps').listed = r.listed ∧
      (run Registry.step .empty steps').search = r.search := by
  intro r
  have h : r.Coherent := coherent_run steps
  simp only [get_ok]
  refine ⟨fun c d => ⟨find_increasing h d, fun spec => mem_find h⟩,
    ⟨capabilities_increasing, fun c => mem_capabilities h⟩,
    fun d => ⟨listed_increasing d, fun spec => mem_listed⟩, fun steps' hsame => ?_⟩
  have h' : (run Registry.step .empty steps').Coherent := coherent_run steps'
  have hfound := fun id => (find?_eq_of_get (hsame id)).symm
  exact ⟨find_congr h' h hfound, compatible_congr h' h hfound, capabilities_congr h' h hfound,
    listed_congr hfound, search_congr h' h hfound⟩

/-! ## Two histories -/

def localSpec (id capability : String) : RoutedSpec where
  id := id
  kind := .python
  sideEffect := .read
  locality := .inProcess
  requiresNetwork := false
  dataResidency := []
  resourcePool := none
  acceptsRestrictedData := false
  capability := capability
  description := ""
  enabled := true

/-- An executor that is registered for another capability first, and after its neighbour. -/
def corrected : List Registry.Step :=
  [.register (localSpec "b" "count"), .replace (localSpec "a" "sum"), .replace (localSpec "b" "sum")]

def registered : List Registry.Step :=
  [.register (localSpec "a" "sum"), .register (localSpec "b" "sum")]

theorem views_of_executors_corrected :
    (run Registry.step .empty corrected).find = (run Registry.step .empty registered).find := by
  refine ((views_of_executors registered).2.2.2 corrected fun id => ?_).1
  have hcorrected : (run Registry.step .empty corrected).byId.rows =
      [localSpec "b" "sum", localSpec "a" "sum"] := by rfl
  have hregistered : (run Registry.step .empty registered).byId.rows =
      [localSpec "a" "sum", localSpec "b" "sum"] := by rfl
  simp only [Registry.get, Table.find?, hcorrected, hregistered]
  obtain rfl | ha := eq_or_ne "a" id
  · rfl
  · obtain rfl | hb := eq_or_ne "b" id
    · rfl
    · simp [localSpec, ha, hb]

/-! ## Pages of a search -/

/-- A caller who follows `next_cursor` from the first page on reads every capability that the search
matches once, in the order of the capabilities, whatever the limit; and the last page has no cursor. -/
theorem pages_of_search (r : Registry) (texts : Texts) (query : String) (initial : Option String)
    (includeExecutors : Bool) (limit : ℤ) (more : ℕ) :
    let total := (r.search texts query initial includeExecutors limit 0).total
    ((r.pages texts query initial includeExecutors limit (total + 1 + more) 0).flatMap
        (·.capabilities)).map (·.capability) =
      r.capabilities.filter (r.isMatch texts query initial) ∧
      ∀ page ∈ (r.pages texts query initial includeExecutors limit (total + 1 + more) 0).getLast?,
        page.nextCursor = none := by
  intro total
  have hslices : (r.pages texts query initial includeExecutors limit (total + 1 + more) 0).map
      (·.capabilities) = slices (max 1 (min limit 100)).toNat
        (r.searchMatches texts query initial includeExecutors) (total + 1 + more) 0 :=
    pages_eq_slices texts query initial includeExecutors limit (total + 1 + more) 0
  have htotal : total = (r.searchMatches texts query initial includeExecutors).length := rfl
  refine ⟨?_, pages_end texts query initial includeExecutors limit _ 0 (by omega)⟩
  rw [List.flatMap_def, hslices, flatten_slices (by omega) _ _ (by omega),
    List.drop_zero, searchMatches, List.map_map]
  exact List.map_id _

end AeepRouter.Router

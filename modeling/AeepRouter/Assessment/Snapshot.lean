import AeepRouter.Lib.DepthFirst
import AeepRouter.Lib.JsonSchema
import AeepRouter.Base

/-!
# Scoped snapshots of assessment records

`_scoped_campaign_records` keeps every record of runtime authority, and of the bulky definitions those
that it depends on. It follows the references of each document from the bound digests, the admitted
definitions and the task records: any text of 64 characters that names a record, the fields that must
name one, and the identities some kinds have. The limit the interpreter sets to recursion, which
would raise, is left out.
-/

namespace AeepRouter.Snapshot

open Lib Lib.DepthFirst Relation

/-! ## Rows and documents -/

/-- A row of `assessment_records`; `none` is a payload that is no JSON. -/
structure AssessmentRow where
  kind : String
  id : String
  digest : String
  payload : Option Json

/-- The kinds of which only dependencies are copied. -/
def bulky : List String :=
  ["plan", "mapping", "boundary_probe_definition", "boundary_probe", "boundary_conformance",
    "execution_evidence", "execution_event", "operation_ledger", "campaign", "recipe_case_set",
    "conformance_request", "recipe_receipt", "host_inventory", "worker_pair_definition",
    "worker_pair_inspection", "planning_request", "planning_mapping",
    "recipe_materialization_request", "report", "comparison", "probe_runtime", "environment",
    "recipe", "subject", "worker_binding", "recipe_runtime", "runtime_binding", "run_binding",
    "effective_policy_definition", "enforcement_definition", "reviewed_inventory",
    "differential_conformance", "grader_validation", "utility_policy", "pilot_policy",
    "shared_environment", "shared_environment_definition", "capability_profile"]

def taskKinds : List String :=
  ["task_scope", "task_activation", "task_lifecycle", "task_codex_binding"]

/-- The fields that refer to stored documents. -/
def required : List String :=
  ["subject_digest", "recipe_digest", "mapping_digest", "environment_digest", "plan_digest",
    "campaign_digest", "recipe_case_set_digest", "execution_evidence_digest",
    "enforcement_definition_digest", "effective_policy_digest", "reviewed_inventory_digest",
    "scope_digest", "activation_digest", "capability_profile_digest", "definition_digests",
    "probe_digests", "conformance_digests", "differential_conformance_digest",
    "operation_ledger_digest", "grader_validation_digest"]

mutual

/-- `strings`: the texts of a value, keys apart. -/
def strings : Json → List String
  | .str text => [text]
  | .arr items => stringsOfItems items
  | .obj fields => stringsOfFields fields
  | .null | .bool _ | .num _ => []

def stringsOfItems : List Json → List String
  | [] => []
  | item :: items => strings item ++ stringsOfItems items

def stringsOfFields : List (String × Json) → List String
  | [] => []
  | (_, value) :: fields => strings value ++ stringsOfFields fields

end

/-- The truth of a value. -/
def truthy : Json → Bool
  | .null => false
  | .bool b => b
  | .num q => q ≠ 0
  | .str text => text ≠ ""
  | .arr items => ¬ items.isEmpty
  | .obj fields => ¬ fields.isEmpty

/-- What a loop over a value goes through. -/
def iterate : Json → Result (List Json)
  | .arr items => pure items
  | .str text => pure (text.toList.map fun c => .str (String.singleton c))
  | .obj fields => pure (fields.map fun field => .str field.1)
  | .null | .bool _ | .num _ => .error .fault

/-- `document.get(field)`. -/
def get (fields : List (String × Json)) (field : String) : Json :=
  (fields.lookup field).getD .null

/-- The fields of a document, which others than objects do not have. -/
def entries : Json → Result (List (String × Json))
  | .obj fields => pure fields
  | _ => .error .fault

/-! ## Lookups -/

section Lookups

variable (rows : List AssessmentRow)

def byIdentity (kind id : String) : Option String :=
  ((rows.filter fun row => row.kind = kind ∧ row.id = id).getLast?).map (·.digest)

def named (text : String) : List String :=
  (if text ∈ rows.map (·.digest) then [text] else []) ++
    (rows.filter (·.id = text)).map (·.digest)

/-- The digests an identity has in some kinds; only texts are identities. -/
def found (kinds : List String) : Json → List String
  | .str id => kinds.filterMap fun kind => byIdentity rows kind id
  | _ => []

/-- A list or an object cannot be looked up. -/
def hashable : Json → Bool
  | .arr _ | .obj _ => false
  | _ => true

/-- What a required reference resolves to. -/
def resolved (digests : List String) (message : String) : Result (List String) := do
  refuseIf (digests = []) message
  pure digests

def needed (kinds : List String) (message : String) (identity : Json) : Result (List String) := do
  raiseIf (¬ hashable identity) .fault
  resolved (found rows kinds identity) message

end Lookups

def collect {α : Type} (f : α → Result (List String)) : List α → Result (List String)
  | [] => pure []
  | a :: as => do
    let first ← f a
    let rest ← collect f as
    pure (first ++ rest)

/-! ## References -/

section Identities

variable (kind : String) (fields : List (String × Json))

/-- The texts of the fields that must name stored documents. -/
def requiredTexts : List String :=
  (required ++ if kind = "boundary_probe" then ["implementation_digest"] else []).flatMap
    fun field => strings (get fields field)

def reportIds : List Json :=
  if kind = "admission" then
    match get fields "report_id" with
    | .null => []
    | given => [given]
  else []

def preparationIds : Result (List Json) :=
  if kind ∈ ["plan", "recipe_case_set"] then
    if kind = "recipe_case_set" ∧ truthy (get fields "request_id") then
      pure [get fields "request_id"]
    else if truthy (get fields "preparation_request_ids") then
      iterate (get fields "preparation_request_ids")
    else pure []
  else pure []

def planningIds : Result (List Json) :=
  if kind = "plan" then
    match fields.lookup "planning_request_ids" with
    | none => pure []
    | some given => iterate given
  else pure []

def activationIds : List Json :=
  if kind = "task_codex_binding" then [get fields "activation_id"] else []

end Identities

def preparationKinds : List String := ["recipe_materialization_request", "plan"]

def AssessmentRow.references (rows : List AssessmentRow) (row : AssessmentRow) :
    Result (List String) := do
  let document ← require row.payload .fault
  let texts := ((strings document).filter (·.length = 64)).flatMap (named rows)
  let fields ← entries document
  let required ← collect
    (fun text => resolved (named rows text) "scoped snapshot assessment dependency is missing")
    (requiredTexts row.kind fields)
  let reports ← collect
    (needed rows ["report"] "scoped snapshot admission report is missing")
    (reportIds row.kind fields)
  let preparations ← preparationIds row.kind fields
  let preparations ← collect
    (needed rows preparationKinds "scoped snapshot preparation definition is missing") preparations
  let plannings ← planningIds row.kind fields
  let plannings ← collect
    (needed rows ["planning_request"] "scoped snapshot planning definition is missing") plannings
  let activations ← collect
    (needed rows ["task_activation"] "scoped snapshot task activation is missing")
    (activationIds row.kind fields)
  pure (texts.filter (· ≠ row.digest) ++
    (required ++ reports ++ preparations ++ plannings ++ activations))

/-! ## The traversal -/

structure SetOrder where
  arrange : List String → List String
  perm : ∀ l, (arrange l).Perm l

section Traversal

variable (order : SetOrder) (rows : List AssessmentRow)

def steps (digest : String) : List (Result (List String)) :=
  (rows.filter (·.digest = digest)).map fun row =>
    (row.references rows).map fun references => order.arrange references.dedup

def scopedCampaignRecords (markers boundDigests : List String) :
    Except (Option Err) (List AssessmentRow) := do
  let bound := boundDigests.filter (· ∈ rows.map (·.digest))
  (refuseIf (bound = []) "scoped snapshot has no stored bound definitions").mapError some
  let admitted ← (collect
    (fun marker => resolved (byIdentity rows "admission" marker).toList
      "scoped snapshot admission definition is missing") markers).mapError some
  let tasks := (rows.filter (·.kind ∈ taskKinds)).map (·.digest)
  let selected ← visitAll (steps order rows)
    (.configuration "scoped snapshot assessment references are cyclic") (rows.length + 1)
    (order.arrange (bound ++ admitted ++ tasks).dedup)
  pure (rows.filter fun row => row.kind ∉ bulky ∨ row.digest ∈ selected)

/-- The rows `campaign_snapshot` copies some of. -/
def definitions : List AssessmentRow :=
  rows.filter (·.kind ∉ ["operation_start", "operation_measurement", "setup_cost", "worker",
    "recovery", "planning_receipt"])

def campaignSnapshotRecords (markers : List String) :
    Option (List String) → Except (Option Err) (List AssessmentRow)
  | none => pure (definitions rows)
  | some boundDigests => do
    (refuseIf (boundDigests = [])
      "scoped campaign snapshot requires reviewed definition digests").mapError some
    scopedCampaignRecords order (definitions rows) markers boundDigests

end Traversal

/-! ## What a document depends on -/

section Dependencies

variable (rows : List AssessmentRow)

/-- The digests that one of the required references of a document resolves to. -/
inductive Need (kind : String) (fields : List (String × Json)) : List String → Prop where
  | required {text : String} : text ∈ requiredTexts kind fields → Need kind fields (named rows text)
  | report {identity : Json} : identity ∈ reportIds kind fields →
      Need kind fields (found rows ["report"] identity)
  | preparation {identities : List Json} {identity : Json} :
      preparationIds kind fields = .ok identities → identity ∈ identities →
      Need kind fields (found rows preparationKinds identity)
  | planning {identities : List Json} {identity : Json} :
      planningIds kind fields = .ok identities → identity ∈ identities →
      Need kind fields (found rows ["planning_request"] identity)
  | activation {identity : Json} : identity ∈ activationIds kind fields →
      Need kind fields (found rows ["task_activation"] identity)

def AssessmentRow.RefersTo (row : AssessmentRow) (digest : String) : Prop :=
  ∃ fields, row.payload = some (.obj fields) ∧
    ((∃ text ∈ strings (.obj fields), text.length = 64 ∧ digest ∈ named rows text ∧
        digest ≠ row.digest) ∨
      ∃ digests, Need rows row.kind fields digests ∧ digest ∈ digests)

/-- A required reference of the row resolves to no stored row. -/
def AssessmentRow.Dangling (row : AssessmentRow) : Prop :=
  ∃ fields, row.payload = some (.obj fields) ∧ Need rows row.kind fields []

def Linked (digest digest' : String) : Prop :=
  ∃ row ∈ rows, row.digest = digest ∧ row.RefersTo rows digest'

/-- Stored bound digests, admitted definitions and task records. -/
def IsRoot (markers boundDigests : List String) (root : String) : Prop :=
  (root ∈ boundDigests ∧ root ∈ rows.map (·.digest)) ∨
    (∃ marker ∈ markers, byIdentity rows "admission" marker = some root) ∨
    ∃ row ∈ rows, row.kind ∈ taskKinds ∧ row.digest = root

def Reachable (markers boundDigests : List String) (digest : String) : Prop :=
  ∃ root, IsRoot rows markers boundDigests root ∧ ReflTransGen (Linked rows) root digest

end Dependencies

section Proofs

variable {rows : List AssessmentRow} {row : AssessmentRow} {digest : String}

theorem collect_ok {α : Type} {f : α → Result (List String)} {as : List α} {refs : List String}
    (h : collect f as = .ok refs) :
    (∀ a ∈ as, ∃ given, f a = .ok given) ∧
      ∀ b, b ∈ refs ↔ ∃ a ∈ as, ∃ given, f a = .ok given ∧ b ∈ given := by
  induction as generalizing refs with
  | nil =>
    obtain rfl : [] = refs := pure_ok.mp h
    exact ⟨List.forall_mem_nil _, fun b => by simp⟩
  | cons a as ih =>
    simp only [collect, bind_ok, pure_ok] at h
    obtain ⟨first, hfirst, rest, hrest, rfl⟩ := h
    obtain ⟨hall, hmem⟩ := ih hrest
    refine ⟨List.forall_mem_cons.mpr ⟨⟨first, hfirst⟩, hall⟩, fun b => ?_⟩
    rw [List.mem_append, hmem, List.exists_mem_cons_iff, hfirst]
    simp

theorem resolved_ok {digests given : List String} {message : String} :
    resolved digests message = .ok given ↔ digests ≠ [] ∧ digests = given := by
  simp only [resolved, bind_ok, raiseIf_ok, pure_ok, exists_const]

theorem needed_ok {kinds given : List String} {message : String} {identity : Json}
    (h : needed rows kinds message identity = .ok given) :
    found rows kinds identity ≠ [] ∧ found rows kinds identity = given := by
  simp only [needed, bind_ok] at h
  obtain ⟨-, -, h⟩ := h
  exact resolved_ok.mp h

/-- What a list of required references resolves to, none of them to nothing. -/
theorem collect_resolves {α : Type} {f : α → Result (List String)} {g : α → List String}
    {as : List α} {refs : List String}
    (hf : ∀ a given, f a = .ok given → g a ≠ [] ∧ g a = given) (h : collect f as = .ok refs) :
    (∀ a ∈ as, g a ≠ []) ∧ ∀ b, b ∈ refs ↔ ∃ a ∈ as, b ∈ g a := by
  obtain ⟨hall, hmem⟩ := collect_ok h
  constructor
  · intro a ha
    obtain ⟨given, hgiven⟩ := hall a ha
    exact (hf a given hgiven).1
  · intro b
    rw [hmem]
    constructor
    · rintro ⟨a, ha, given, hgiven, hb⟩
      exact ⟨a, ha, (hf a given hgiven).2 ▸ hb⟩
    · rintro ⟨a, ha, hb⟩
      obtain ⟨given, hgiven⟩ := hall a ha
      exact ⟨a, ha, given, hgiven, (hf a given hgiven).2 ▸ hb⟩

theorem entries_ok {document : Json} {fields : List (String × Json)}
    (h : entries document = .ok fields) : document = .obj fields := by
  cases document with
  | obj given => exact congrArg Json.obj (pure_ok.mp h)
  | _ => cases h

theorem references_parts {refs : List String} (h : row.references rows = .ok refs) :
    ∃ fields preparations plannings, row.payload = some (.obj fields) ∧
      preparationIds row.kind fields = .ok preparations ∧
      planningIds row.kind fields = .ok plannings ∧
      ((∀ text ∈ requiredTexts row.kind fields, named rows text ≠ []) ∧
        (∀ identity ∈ reportIds row.kind fields, found rows ["report"] identity ≠ []) ∧
        (∀ identity ∈ preparations, found rows preparationKinds identity ≠ []) ∧
        (∀ identity ∈ plannings, found rows ["planning_request"] identity ≠ []) ∧
        ∀ identity ∈ activationIds row.kind fields, found rows ["task_activation"] identity ≠ []) ∧
      ∀ b, b ∈ refs ↔
        (∃ text ∈ strings (.obj fields), text.length = 64 ∧ b ∈ named rows text ∧ b ≠ row.digest) ∨
        (∃ text ∈ requiredTexts row.kind fields, b ∈ named rows text) ∨
        (∃ identity ∈ reportIds row.kind fields, b ∈ found rows ["report"] identity) ∨
        (∃ identity ∈ preparations, b ∈ found rows preparationKinds identity) ∨
        (∃ identity ∈ plannings, b ∈ found rows ["planning_request"] identity) ∨
        ∃ identity ∈ activationIds row.kind fields, b ∈ found rows ["task_activation"] identity := by
  simp only [AssessmentRow.references, bind_ok, require_ok, pure_ok] at h
  obtain ⟨document, hpayload, fields, hfields, required, hrequired, reports, hreports, preparationIds,
    hpreparationIds, preparations, hpreparations, planningIds, hplanningIds, plannings, hplannings,
    activations, hactivations, rfl⟩ := h
  obtain rfl := entries_ok hfields
  obtain ⟨hrequired, hrequired'⟩ := collect_resolves (fun _ _ => resolved_ok.mp) hrequired
  obtain ⟨hreports, hreports'⟩ := collect_resolves (fun _ _ => needed_ok) hreports
  obtain ⟨hpreparations, hpreparations'⟩ := collect_resolves (fun _ _ => needed_ok) hpreparations
  obtain ⟨hplannings, hplannings'⟩ := collect_resolves (fun _ _ => needed_ok) hplannings
  obtain ⟨hactivations, hactivations'⟩ := collect_resolves (fun _ _ => needed_ok) hactivations
  refine ⟨fields, preparationIds, planningIds, hpayload, hpreparationIds, hplanningIds,
    ⟨hrequired, hreports, hpreparations, hplannings, hactivations⟩, fun b => ?_⟩
  simp only [List.mem_append, List.mem_filter, List.mem_flatMap, decide_eq_true_eq, hrequired',
    hreports', hpreparations', hplannings', hactivations']
  constructor
  · rintro (⟨⟨text, ⟨htext, hlength⟩, hb⟩, hne⟩ | (((hb | hb) | hb) | hb) | hb)
    · exact .inl ⟨text, htext, hlength, hb, hne⟩
    · exact .inr (.inl hb)
    · exact .inr (.inr (.inl hb))
    · exact .inr (.inr (.inr (.inl hb)))
    · exact .inr (.inr (.inr (.inr (.inl hb))))
    · exact .inr (.inr (.inr (.inr (.inr hb))))
  · rintro (⟨text, htext, hlength, hb, hne⟩ | hb | hb | hb | hb | hb)
    · exact .inl ⟨⟨text, ⟨htext, hlength⟩, hb⟩, hne⟩
    · exact .inr (.inl (.inl (.inl (.inl hb))))
    · exact .inr (.inl (.inl (.inl (.inr hb))))
    · exact .inr (.inl (.inl (.inr hb)))
    · exact .inr (.inl (.inr hb))
    · exact .inr (.inr hb)

/-- The references of a document are those it depends on, and none is missing. -/
theorem references_ok {refs : List String} (h : row.references rows = .ok refs) :
    ¬ row.Dangling rows ∧ ∀ b, b ∈ refs ↔ row.RefersTo rows b := by
  obtain ⟨fields, preparations, plannings, hpayload, hpreparations, hplannings,
    ⟨hrequired', hreports', hpreparations', hplannings', hactivations'⟩, hmem⟩ := references_parts h
  constructor
  · rintro ⟨fields', hpayload', hneed⟩
    obtain rfl : fields = fields' := Json.obj.inj (Option.some.inj (hpayload.symm.trans hpayload'))
    generalize hnone : [] = digests at hneed
    cases hneed with
    | required htext => exact hrequired' _ htext hnone.symm
    | report hid => exact hreports' _ hid hnone.symm
    | preparation hids hid =>
      obtain rfl := Except.ok.inj (hpreparations.symm.trans hids)
      exact hpreparations' _ hid hnone.symm
    | planning hids hid =>
      obtain rfl := Except.ok.inj (hplannings.symm.trans hids)
      exact hplannings' _ hid hnone.symm
    | activation hid => exact hactivations' _ hid hnone.symm
  · intro b
    rw [hmem]
    constructor
    · rintro (htext | ⟨text, htext, hb⟩ | ⟨id, hid, hb⟩ | ⟨id, hid, hb⟩ | ⟨id, hid, hb⟩ | ⟨id, hid, hb⟩)
      · exact ⟨fields, hpayload, .inl htext⟩
      · exact ⟨fields, hpayload, .inr ⟨_, .required htext, hb⟩⟩
      · exact ⟨fields, hpayload, .inr ⟨_, .report hid, hb⟩⟩
      · exact ⟨fields, hpayload, .inr ⟨_, .preparation hpreparations hid, hb⟩⟩
      · exact ⟨fields, hpayload, .inr ⟨_, .planning hplannings hid, hb⟩⟩
      · exact ⟨fields, hpayload, .inr ⟨_, .activation hid, hb⟩⟩
    · rintro ⟨fields', hpayload', hb⟩
      obtain rfl : fields = fields' :=
        Json.obj.inj (Option.some.inj (hpayload.symm.trans hpayload'))
      rcases hb with htext | ⟨digests, hneed, hb⟩
      · exact .inl htext
      · right
        cases hneed with
        | required htext => exact .inl ⟨_, htext, hb⟩
        | report hid => exact .inr (.inl ⟨_, hid, hb⟩)
        | preparation hids hid =>
          obtain rfl := Except.ok.inj (hpreparations.symm.trans hids)
          exact .inr (.inr (.inl ⟨_, hid, hb⟩))
        | planning hids hid =>
          obtain rfl := Except.ok.inj (hplannings.symm.trans hids)
          exact .inr (.inr (.inr (.inl ⟨_, hid, hb⟩)))
        | activation hid => exact .inr (.inr (.inr (.inr ⟨_, hid, hb⟩)))

/-! ## Stored digests -/

theorem mem_of_named {text : String} (h : digest ∈ named rows text) : digest ∈ rows.map (·.digest) := by
  rcases List.mem_append.mp h with hown | hnamed
  · split_ifs at hown with hstored
    · rwa [List.mem_singleton.mp hown]
    · cases hown
  · obtain ⟨row, hrow, rfl⟩ := List.mem_map.mp hnamed
    exact List.mem_map_of_mem (List.mem_filter.mp hrow).1

theorem mem_of_byIdentity {kind id : String} (h : byIdentity rows kind id = some digest) :
    digest ∈ rows.map (·.digest) := by
  obtain ⟨row, hlast, rfl⟩ := Option.map_eq_some_iff.mp h
  exact List.mem_map_of_mem (List.mem_filter.mp (List.mem_of_getLast? hlast)).1

theorem mem_of_found {kinds : List String} {identity : Json} (h : digest ∈ found rows kinds identity) :
    digest ∈ rows.map (·.digest) := by
  cases identity with
  | str id =>
    obtain ⟨kind, -, hkind⟩ := List.mem_filterMap.mp h
    exact mem_of_byIdentity hkind
  | _ => cases h

theorem mem_of_need {kind : String} {fields : List (String × Json)} {digests : List String}
    (h : Need rows kind fields digests) (hdigest : digest ∈ digests) :
    digest ∈ rows.map (·.digest) := by
  cases h with
  | required _ => exact mem_of_named hdigest
  | report _ => exact mem_of_found hdigest
  | preparation _ _ => exact mem_of_found hdigest
  | planning _ _ => exact mem_of_found hdigest
  | activation _ => exact mem_of_found hdigest

theorem AssessmentRow.RefersTo.stored (h : row.RefersTo rows digest) :
    digest ∈ rows.map (·.digest) := by
  obtain ⟨fields, -, ⟨text, -, -, hnamed, -⟩ | ⟨digests, hneed, hdigest⟩⟩ := h
  · exact mem_of_named hnamed
  · exact mem_of_need hneed hdigest

/-! ## Steps of the traversal -/

variable {order : SetOrder} {digest' : String} {markers boundDigests : List String}

theorem mem_arrange {l : List String} : digest ∈ order.arrange l.dedup ↔ digest ∈ l := by
  rw [(order.perm _).mem_iff, List.mem_dedup]

theorem mem_steps {step : Result (List String)} :
    step ∈ steps order rows digest ↔ ∃ row ∈ rows, row.digest = digest ∧
      (row.references rows).map (fun refs => order.arrange refs.dedup) = step := by
  simp only [steps, List.mem_map, List.mem_filter, decide_eq_true_eq, and_assoc]

theorem edge_iff :
    Edge (steps order rows) digest digest' ↔ ∃ row ∈ rows, row.digest = digest ∧
      ∃ refs, row.references rows = .ok refs ∧ digest' ∈ refs := by
  constructor
  · rintro ⟨given, hstep, hgiven⟩
    obtain ⟨row, hrow, hdigest, hmap⟩ := mem_steps.mp hstep
    obtain ⟨refs, hrefs, rfl⟩ := map_ok.mp hmap
    exact ⟨row, hrow, hdigest, refs, hrefs, mem_arrange.mp hgiven⟩
  · rintro ⟨row, hrow, hdigest, refs, hrefs, hmem⟩
    exact ⟨_, mem_steps.mpr ⟨row, hrow, hdigest, map_ok.mpr ⟨refs, hrefs, rfl⟩⟩, mem_arrange.mpr hmem⟩

theorem linked_of_edge (h : Edge (steps order rows) digest digest') : Linked rows digest digest' := by
  obtain ⟨row, hrow, hdigest, refs, hrefs, hmem⟩ := edge_iff.mp h
  exact ⟨row, hrow, hdigest, ((references_ok hrefs).2 digest').mp hmem⟩

theorem references_of_sound (h : Sound (steps order rows) row.digest) (hrow : row ∈ rows) :
    ∃ refs, row.references rows = .ok refs := by
  obtain ⟨given, hgiven⟩ := h _ (mem_steps.mpr ⟨row, hrow, rfl, rfl⟩)
  obtain ⟨refs, hrefs, -⟩ := map_ok.mp hgiven
  exact ⟨refs, hrefs⟩

theorem edge_of_linked (hsound : Sound (steps order rows) digest) (h : Linked rows digest digest') :
    Edge (steps order rows) digest digest' := by
  obtain ⟨row, hrow, rfl, hrefers⟩ := h
  obtain ⟨refs, hrefs⟩ := references_of_sound hsound hrow
  exact edge_iff.mpr ⟨row, hrow, rfl, refs, hrefs, ((references_ok hrefs).2 digest').mpr hrefers⟩

/-! ## The records of a snapshot -/

theorem mem_of_edge (h : Edge (steps order rows) digest digest') : digest' ∈ rows.map (·.digest) := by
  obtain ⟨row, -, -, hrefers⟩ := linked_of_edge h
  exact hrefers.stored

theorem isRoot_iff {admitted : List String}
    (h : collect (fun marker => resolved (byIdentity rows "admission" marker).toList
      "scoped snapshot admission definition is missing") markers = .ok admitted) :
    digest ∈ order.arrange (boundDigests.filter (· ∈ rows.map (·.digest)) ++ admitted ++
        (rows.filter (·.kind ∈ taskKinds)).map (·.digest)).dedup ↔
      IsRoot rows markers boundDigests digest := by
  obtain ⟨-, hadmitted⟩ := collect_resolves (fun _ _ => resolved_ok.mp) h
  rw [mem_arrange, List.mem_append, List.mem_append, List.mem_filter, hadmitted, or_assoc]
  simp only [decide_eq_true_eq, Option.mem_toList, List.mem_map, List.mem_filter, IsRoot, and_assoc]

theorem IsRoot.stored (h : IsRoot rows markers boundDigests digest) :
    digest ∈ rows.map (·.digest) := by
  obtain ⟨-, hstored⟩ | ⟨marker, -, hmarker⟩ | ⟨row, hrow, -, rfl⟩ := h
  · exact hstored
  · exact mem_of_byIdentity hmarker
  · exact List.mem_map_of_mem hrow

/-- A snapshot that is made: the traversal ended, and no reachable row dangles or lies on a cycle. -/
structure Scoped (rows : List AssessmentRow) (markers boundDigests selected : List String) : Prop where
  mem_iff : ∀ row ∈ rows, row.digest ∈ selected ↔ Reachable rows markers boundDigests row.digest
  resolved : ∀ row ∈ rows, Reachable rows markers boundDigests row.digest → ¬ row.Dangling rows
  acyclic : ∀ digest, Reachable rows markers boundDigests digest →
    ¬ TransGen (Linked rows) digest digest

theorem scoped_of_visited {fuel : ℕ} {cyclic : Err} {roots selected : List String}
    (hroots : ∀ root, root ∈ roots ↔ IsRoot rows markers boundDigests root)
    (h : visitAll (steps order rows) cyclic fuel roots = .ok selected) :
    Scoped rows markers boundDigests selected := by
  obtain ⟨hsettled, hsound, hstart, hreached⟩ := visitAll_ok h
  have hlinked : Settled (Linked rows) selected :=
    hsettled.mono fun a ha b hab => edge_of_linked (hsound a ha) hab
  have hmem : ∀ digest, Reachable rows markers boundDigests digest → digest ∈ selected := by
    rintro digest ⟨root, hroot, hpath⟩
    exact hlinked.mem_of_reach (hstart root ((hroots root).mpr hroot)) hpath
  refine ⟨fun row _ => ⟨fun hselected => ?_, hmem row.digest⟩, fun row hrow hreach => ?_,
    fun digest hreach => hlinked.acyclic (hmem digest hreach)⟩
  · obtain ⟨root, hroot, hpath⟩ := hreached row.digest hselected
    exact ⟨root, (hroots root).mp hroot,
      ReflTransGen.mono (fun _ _ hedge => linked_of_edge hedge) _ _ hpath⟩
  · obtain ⟨refs, hrefs⟩ := references_of_sound (hsound _ (hmem _ hreach)) hrow
    exact (references_ok hrefs).1

theorem scopedCampaignRecords_ok {kept : List AssessmentRow}
    (h : scopedCampaignRecords order rows markers boundDigests = .ok kept) :
    ∃ selected, Scoped rows markers boundDigests selected ∧
      kept = rows.filter fun row => row.kind ∉ bulky ∨ row.digest ∈ selected := by
  simp only [scopedCampaignRecords, bind_ok, mapError_ok, pure_ok] at h
  obtain ⟨-, -, admitted, hadmitted, selected, hvisited, rfl⟩ := h
  exact ⟨selected, scoped_of_visited (fun root => isRoot_iff hadmitted) hvisited, rfl⟩

theorem scopedCampaignRecords_ends :
    scopedCampaignRecords order rows markers boundDigests ≠ .error none := by
  intro h
  have hpure : ∀ kept : List AssessmentRow, (pure kept : Except (Option Err) _) ≠ .error none := by
    rintro kept ⟨⟩
  simp only [scopedCampaignRecords, bind_error, mapError_some_ne, mapError_ok, false_or, hpure,
    and_false, exists_false, or_false] at h
  obtain ⟨-, -, admitted, hadmitted, hfails⟩ := h
  refine visitAll_ends (fun a (_ : a ∈ rows.map (·.digest)) _ => mem_of_edge)
    (fun root hroot => ?_) ?_ hfails
  · exact ((isRoot_iff hadmitted).mp hroot).stored
  · rw [List.length_map]
    exact Nat.lt_succ_self _

/-- The records of a scoped snapshot are, in their order, those of no bulky kind and those reachable
from the roots; and none is made where a reachable row dangles or lies on a cycle. -/
theorem scoped_records_reachable (order : SetOrder) (rows : List AssessmentRow)
    (markers boundDigests : List String) :
    scopedCampaignRecords order rows markers boundDigests ≠ .error none ∧
      (∀ kept, scopedCampaignRecords order rows markers boundDigests = .ok kept →
        (∃ selected : List String,
          (∀ row ∈ rows, row.digest ∈ selected ↔ Reachable rows markers boundDigests row.digest) ∧
          kept = rows.filter fun row => row.kind ∉ bulky ∨ row.digest ∈ selected) ∧
        (rows.Nodup → kept.Nodup)) ∧
      ∀ row ∈ rows, Reachable rows markers boundDigests row.digest →
        row.Dangling rows ∨ TransGen (Linked rows) row.digest row.digest →
        ∃ e, scopedCampaignRecords order rows markers boundDigests = .error (some e) := by
  refine ⟨scopedCampaignRecords_ends, fun kept h => ?_, fun row hrow hreach hbad => ?_⟩
  · obtain ⟨selected, hscoped, rfl⟩ := scopedCampaignRecords_ok h
    exact ⟨⟨selected, hscoped.mem_iff, rfl⟩, fun hnodup => hnodup.filter _⟩
  · cases hresult : scopedCampaignRecords order rows markers boundDigests with
    | error e =>
      cases e with
      | none => exact absurd hresult scopedCampaignRecords_ends
      | some e => exact ⟨e, rfl⟩
    | ok kept =>
      obtain ⟨selected, hscoped, -⟩ := scopedCampaignRecords_ok hresult
      rcases hbad with hdangling | hcycle
      · exact absurd hdangling (hscoped.resolved row hrow hreach)
      · exact absurd hcycle (hscoped.acyclic row.digest hreach)

theorem campaign_snapshot_closed {kept : List AssessmentRow}
    (h : campaignSnapshotRecords order rows markers (some boundDigests) = .ok kept)
    (hreach : Reachable (definitions rows) markers boundDigests digest)
    (hlinked : Linked (definitions rows) digest digest') :
    ∀ row ∈ definitions rows, row.digest = digest' → row ∈ kept := by
  rintro row hrow rfl
  simp only [campaignSnapshotRecords, bind_ok] at h
  obtain ⟨-, -, h⟩ := h
  obtain ⟨selected, hscoped, rfl⟩ := scopedCampaignRecords_ok h
  obtain ⟨root, hroot, hpath⟩ := hreach
  have hselected := (hscoped.mem_iff row hrow).mpr ⟨root, hroot, hpath.tail hlinked⟩
  exact List.mem_filter.mpr ⟨hrow, decide_eq_true (.inr hselected)⟩

/-- The subject a bound plan refers to is kept, and another plan is not. -/
example :
    let digest (c : Char) : String := String.ofList (List.replicate 64 c)
    let rows : List AssessmentRow :=
      [⟨"plan", "p", digest 'a', some (.obj [("subject_digest", .str (digest 'b'))])⟩,
        ⟨"subject", "s", digest 'b', some (.obj [("id", .str "s")])⟩,
        ⟨"plan", "q", digest 'c', some (.obj [("subject_digest", .str (digest 'b'))])⟩]
    (scopedCampaignRecords ⟨id, fun l => .refl l⟩ rows [] [digest 'a']).map (·.map (·.id)) =
      .ok ["p", "s"] := by
  decide +kernel

end Proofs

end AeepRouter.Snapshot

import AeepRouter.Lib.Objects
import AeepRouter.Workflow.Request

/-!
# The bindings of a step

The input of a step is a copy of its action's input, in objects of its own; `pointerReplace`
overwrites one slot of one of them by a reference to the source value, which may be an object of
the workflow's input or of an output. So a target below another one is written into that source.
`valid_dag` compares the texts of the targets only: different texts may mean one place, and places
may lie one below the other.
-/

namespace AeepRouter.Workflow

open Lib Stack

/-! ## Objects -/

inductive Scalar where
  | null
  | bool (b : Bool)
  | num (q : ℚ)
  | str (s : String)
  deriving DecidableEq

/-- A list or a dictionary. -/
inductive Container where
  | arr (items : List (Ref Scalar))
  | obj (fields : List (String × Ref Scalar))
  deriving DecidableEq

inductive Slot where
  | key (k : String)
  | item (i : ℕ)
  deriving DecidableEq

namespace Container

def get : Container → Slot → Option (Ref Scalar)
  | .obj fields, .key k => fields.lookup k
  | .arr items, .item i => items[i]?
  | _, _ => none

def set : Container → Slot → Ref Scalar → Container
  | .obj fields, .key k, v => .obj (fields.map fun field => if field.1 = k then (k, v) else field)
  | .arr items, .item i, v => .arr (items.set i v)
  | c, _, _ => c

/-- The slot a token means; several numerals mean one index. -/
def slot? : Container → String → Option Slot
  | .obj fields, token => if (fields.lookup token).isSome then some (.key token) else none
  | .arr items, token =>
    (index? token).bind fun i => if i < items.length then some (.item i) else none

section Laws

variable {fields : List (String × Ref Scalar)} {k k' : String} {v w : Ref Scalar} {c : Container}
  {s s' : Slot}

theorem lookup_set :
    (fields.map fun field => if field.1 = k then (k, v) else field).lookup k' =
      if k' = k then (fields.lookup k).map fun _ => v else fields.lookup k' := by
  induction fields with
  | nil => simp
  | cons field fields ih =>
    obtain ⟨key, r⟩ := field
    rw [List.map_cons]
    by_cases hkey : key = k
    · subst hkey
      rw [if_pos rfl, List.lookup_cons, List.lookup_cons, List.lookup_cons, ih]
      by_cases hk : k' = key
      · simp [hk]
      · simp [hk, beq_false_of_ne hk]
    · rw [if_neg hkey, List.lookup_cons, List.lookup_cons, List.lookup_cons, ih]
      by_cases hk : k' = key
      · subst hk
        simp [hkey]
      · simp [beq_false_of_ne hk, beq_false_of_ne (Ne.symm hkey)]

theorem get_set_self (h : (c.get s).isSome) : (c.set s v).get s = some v := by
  cases c <;> cases s
  · cases h
  · rename_i items i
    have hi : i < items.length := by simpa [get] using h
    simp [get, set, hi]
  · rename_i fields k
    simp only [get, set, lookup_set, if_pos]
    obtain ⟨r, hr⟩ := Option.isSome_iff_exists.mp h
    rw [show fields.lookup k = some r from hr, Option.map_some]
  · cases h

theorem get_set_none (h : c.get s = none) : (c.set s v).get s = none := by
  cases c <;> cases s
  · exact h
  · simpa [get, set] using h
  · simpa [get, set, lookup_set] using h
  · exact h

theorem get_set_ne (h : s' ≠ s) : (c.set s v).get s' = c.get s' := by
  cases c <;> cases s <;> cases s' <;> try rfl
  · rename_i items i j
    have hij : i ≠ j := fun hij => h (by rw [hij])
    exact List.getElem?_set_ne hij
  · rename_i fields k j
    have hkj : j ≠ k := fun hkj => h (by rw [hkj])
    simp only [get, set, lookup_set, if_neg hkj]

theorem set_comm (h : s ≠ s') : (c.set s v).set s' w = (c.set s' w).set s v := by
  cases c <;> cases s <;> cases s' <;> try rfl
  · rename_i items i j
    have hij : i ≠ j := fun hij => h (by rw [hij])
    exact congrArg Container.arr (List.set_comm v w hij)
  · rename_i fields k j
    have hkj : k ≠ j := fun hkj => h (by rw [hkj])
    simp only [set, List.map_map, obj.injEq]
    refine List.map_congr_left fun field _ => ?_
    by_cases hk : field.1 = k
    · simp [hk, hkj]
    · by_cases hj : field.1 = j
      · simp [hj, hkj.symm]
      · simp [hk, hj]

theorem slot?_set {token : String} : (c.set s v).slot? token = c.slot? token := by
  cases c <;> cases s <;> try rfl
  · simp [set, slot?]
  · rename_i fields k
    simp only [set, slot?, lookup_set]
    by_cases hk : token = k
    · subst hk
      rw [if_pos rfl, Option.isSome_map]
    · rw [if_neg hk]

theorem get_slot? {token : String} (h : c.slot? token = some s) : (c.get s).isSome := by
  cases c with
  | arr items =>
    obtain ⟨i, -, hi⟩ := Option.bind_eq_some_iff.mp h
    rw [Option.ite_none_right_eq_some] at hi
    obtain ⟨hlt, hs⟩ := hi
    rw [← Option.some.inj hs]
    simpa [get] using hlt
  | obj fields =>
    simp only [slot?, Option.ite_none_right_eq_some] at h
    rw [← Option.some.inj h.2]
    exact h.1

end Laws

instance : Slots Container Slot String Scalar where
  get := get
  set := set
  slot? := slot?
  get_set_self := get_set_self
  get_set_none := get_set_none
  get_set_ne := get_set_ne
  set_comm := set_comm
  slot?_set := slot?_set
  get_slot? := get_slot?

end Container

/-- The objects are a copy of a value. -/
inductive Holds (heap : Heap Container) : Ref Scalar → Json → Prop
  | null : Holds heap (.atom .null) .null
  | bool (b : Bool) : Holds heap (.atom (.bool b)) (.bool b)
  | num (q : ℚ) : Holds heap (.atom (.num q)) (.num q)
  | str (s : String) : Holds heap (.atom (.str s)) (.str s)
  | arr {n : ℕ} {items : List (Ref Scalar)} {values : List Json}
      (hn : heap n = some (.arr items)) (hlength : items.length = values.length)
      (hitems : ∀ (i : ℕ) r v, items[i]? = some r → values[i]? = some v → Holds heap r v) :
      Holds heap (.loc n) (.arr values)
  | obj {n : ℕ} {fields : List (String × Ref Scalar)} {values : List (String × Json)}
      (hn : heap n = some (.obj fields)) (hkeys : fields.map (·.1) = values.map (·.1))
      (hfields : ∀ k r v, fields.lookup k = some r → values.lookup k = some v → Holds heap r v) :
      Holds heap (.loc n) (.obj values)

/-- The input is a copy that shares no objects. -/
structure Copy (heap : Heap Container) (input : Ref Scalar) (value : Json) : Prop where
  holds : Holds heap input value
  tree : heap.Tree input

/-! ## The pointers on objects -/

namespace Objects

def pointerGet (heap : Heap Container) (value : Ref Scalar) (pointer : String) :
    Result (Ref Scalar) := do
  (← tokens pointer).foldlM
    (fun current token => require ((heap.named current token).bind (heap.read current))
      (.value ("JSON Pointer '" ++ pointer ++ "' does not exist"))) value

def pointerReplace (heap : Heap Container) (value : Ref Scalar) (pointer : String)
    (replacement : Ref Scalar) : Result (Heap Container) := do
  let path ← tokens pointer
  let missing := Err.value ("binding target '" ++ pointer ++ "' does not exist")
  match path.getLast? with
  | none => .error (.value "binding cannot replace the action-input root")
  | some final => do
    let parent ← path.dropLast.foldlM
      (fun parent token => require ((heap.named parent token).bind (heap.read parent)) missing) value
    match parent with
    | .loc n => do
      let slot ← require (heap.named parent final) missing
      return heap.write n slot replacement
    | .atom _ => .error missing

end Objects

/-- The loop over the bindings of a step, with the values of their sources. -/
def applyBindings (heap : Heap Container) (input : Ref Scalar)
    (value : WorkflowInputBinding → Ref Scalar) (bindings : List WorkflowInputBinding) :
    Result (Heap Container) :=
  bindings.foldlM (fun heap binding =>
    Objects.pointerReplace heap input binding.targetPath (value binding)) heap

/-! ## Places -/

def slotOf (value : Json) (token : String) : Option Slot :=
  match value with
  | .obj fields => if (fields.lookup token).isSome then some (.key token) else none
  | .arr items => (index? token).bind fun i => if i < items.length then some (.item i) else none
  | _ => none

def place (value : Json) : List String → Option (List Slot)
  | [] => some []
  | token :: path => (slotOf value token).bind fun slot =>
      (child? value token).bind fun part => (place part path).map (slot :: ·)

def target (step : WorkflowStep) (binding : WorkflowInputBinding) : Option (List Slot) :=
  (tokens binding.targetPath).toOption.bind (place step.action.input)

/-- No place that is replaced is another one, or in another one. -/
def TargetsApart (step : WorkflowStep) : Prop :=
  step.bindings.Pairwise fun b c => ∀ p ∈ target step b, ∀ q ∈ target step c,
    ¬ p <+: q ∧ ¬ q <+: p

instance (step : WorkflowStep) : Decidable (TargetsApart step) :=
  inferInstanceAs (Decidable (List.Pairwise _ _))

/-! ## What the bindings should come to -/

structure Substituted (heap heap' : Heap Container) (input : Ref Scalar) (step : WorkflowStep)
    (value : WorkflowInputBinding → Ref Scalar) : Prop where
  targets : ∀ b ∈ step.bindings, Objects.pointerGet heap' input b.targetPath = .ok (value b)
  elsewhere : ∀ path : List Slot, (∀ b ∈ step.bindings, ∀ p ∈ target step b, ¬ p <+: path) →
    heap'.follow input path = heap.follow input path
  sources : ∀ b ∈ step.bindings, ∀ n, heap.Reaches (value b) n → heap' n = heap n

/-- The bindings fail or substitute, whatever their order. -/
structure Lawful (heap : Heap Container) (input : Ref Scalar) (step : WorkflowStep)
    (value : WorkflowInputBinding → Ref Scalar) : Prop where
  substituted : ∀ heap', applyBindings heap input value step.bindings = .ok heap' →
    Substituted heap heap' input step value
  ordered : ∀ bindings, bindings.Perm step.bindings →
    (applyBindings heap input value bindings).toOption =
      (applyBindings heap input value step.bindings).toOption

section Places

variable {heap : Heap Container} {r : Ref Scalar} {value : Json} {token : String} {slot : Slot}

theorem Holds.named_eq (h : Holds heap r value) : heap.named r token = slotOf value token := by
  cases h with
  | null | bool | num | str => rfl
  | arr hn hlength hitems =>
    simp only [Heap.named, hn, Option.bind_some, Slots.slot?, Container.slot?, slotOf, hlength]
  | obj hn hkeys hfields =>
    have hsome : ∀ {β : Type} (entries : List (String × β)),
        (entries.lookup token).isSome ↔ token ∈ entries.map (·.1) := by
      intro β entries
      rw [List.lookup_isSome_iff, List.mem_map]
      exact exists_congr fun entry => and_congr_right fun _ => by rw [beq_iff_eq, eq_comm]
    simp only [Heap.named, hn, Option.bind_some, Slots.slot?, Container.slot?, slotOf, hsome, hkeys]

theorem Holds.read (h : Holds heap r value) (hslot : slotOf value token = some slot) :
    ∃ r' part, heap.read r slot = some r' ∧ child? value token = some part ∧
      Holds heap r' part := by
  cases h with
  | null | bool | num | str => cases hslot
  | arr hn hlength hitems =>
    obtain ⟨i, hi, hlt⟩ := Option.bind_eq_some_iff.mp hslot
    rw [Option.ite_none_right_eq_some] at hlt
    obtain ⟨hlt, hslot⟩ := hlt
    obtain rfl := Option.some.inj hslot
    have hv := List.getElem?_eq_getElem hlt
    have hr := List.getElem?_eq_getElem (hlt.trans_eq hlength.symm)
    refine ⟨_, _, ?_, ?_, hitems i _ _ hr hv⟩
    · simp only [Heap.read, hn, Option.bind_some]
      exact hr
    · simp only [child?, hi, Option.bind_some, hv]
  | obj hn hkeys hfields =>
    simp only [slotOf, Option.ite_none_right_eq_some] at hslot
    obtain ⟨hsome, hslot⟩ := hslot
    obtain rfl := Option.some.inj hslot
    obtain ⟨v, hv⟩ := Option.isSome_iff_exists.mp hsome
    obtain ⟨r', hr'⟩ := exists_lookup (hkeys ▸ mem_keys_of_lookup hv)
    refine ⟨r', v, ?_, hv, hfields token r' v hr' hv⟩
    simp only [Heap.read, hn, Option.bind_some]
    exact hr'

/-- Tokens mean the same place in a copy. -/
theorem Holds.locate_eq (h : Holds heap r value) (path : List String) :
    heap.locate r path = place value path := by
  induction path generalizing r value with
  | nil => rfl
  | cons token path ih =>
    rw [Heap.locate, place, h.named_eq]
    refine Option.bind_congr fun slot hslot => ?_
    obtain ⟨r', part, hr', hpart, hholds⟩ := h.read hslot
    rw [hr', hpart, Option.bind_some, Option.bind_some, ih hholds]

theorem place_of_pointerGet {pointer : String} {found : Json}
    (h : pointerGet value pointer = .ok found) :
    ∃ path p, tokens pointer = .ok path ∧ place value path = some p := by
  simp only [pointerGet, bind_ok] at h
  obtain ⟨path, hpath, h⟩ := h
  refine ⟨path, ?_⟩
  suffices hplace : ∃ p, place value path = some p from
    hplace.imp fun p hp => ⟨hpath, hp⟩
  clear hpath
  induction path generalizing value with
  | nil => exact ⟨[], rfl⟩
  | cons token path ih =>
    simp only [List.foldlM_cons, bind_ok, require_ok] at h
    obtain ⟨part, hpart, h⟩ := h
    obtain ⟨p, hp⟩ := ih h
    obtain ⟨slot, hslot⟩ : ∃ slot, slotOf value token = some slot := by
      cases value with
      | obj fields =>
        exact ⟨.key token, if_pos (Option.isSome_iff_exists.mpr ⟨part, hpart⟩)⟩
      | arr items =>
        obtain ⟨i, hi, hitem⟩ := Option.bind_eq_some_iff.mp hpart
        refine ⟨.item i, ?_⟩
        simp only [slotOf, hi, Option.bind_some]
        exact if_pos (List.getElem?_eq_some_iff.mp hitem).1
      | null | bool | num | str => cases hpart
    exact ⟨slot :: p, by rw [place, hslot, hpart, Option.bind_some, Option.bind_some, hp]; rfl⟩

end Places

/-! ## The loop as assignments -/

def assignment (value : WorkflowInputBinding → Ref Scalar) (binding : WorkflowInputBinding) :
    Assignment String Scalar :=
  let path := (tokens binding.targetPath).toOption.getD []
  ⟨path.dropLast, path.getLast?.getD "", value binding⟩

section Loop

variable {heap : Heap Container} {input : Ref Scalar} {step : WorkflowStep}
  {value : WorkflowInputBinding → Ref Scalar} {binding : WorkflowInputBinding}
  {bindings : List WorkflowInputBinding} {path : List String}

theorem toOption_bind {α β : Type} (x : Result α) (f : α → Result β) :
    (x >>= f).toOption = x.toOption.bind fun a => (f a).toOption := by
  cases x <;> rfl

theorem toOption_require {α : Type} (x : Option α) (e : Err) : (require x e).toOption = x := by
  cases x <;> rfl

theorem toOption_foldlM {α β : Type} (f : α → β → Result α) (a : α) (l : List β) :
    (l.foldlM f a).toOption = l.foldlM (fun a b => (f a b).toOption) a := by
  induction l generalizing a with
  | nil => rfl
  | cons b l ih =>
    rw [List.foldlM_cons, List.foldlM_cons, toOption_bind]
    exact Option.bind_congr fun a' _ => ih a'

theorem foldlM_child (r : Ref Scalar) (e : Err) (path : List String) :
    (path.foldlM (fun r token => require ((heap.named r token).bind (heap.read r)) e) r).toOption =
      heap.walk r path := by
  rw [toOption_foldlM]
  simp only [toOption_require]
  induction path generalizing r with
  | nil => rfl
  | cons token path ih => exact Option.bind_congr fun r' _ => ih r'

theorem toOption_eq_some {α : Type} {x : Result α} {a : α} : x.toOption = some a ↔ x = .ok a := by
  cases x <;> simp [Except.toOption]

theorem pointerGet_eq_ok {pointer : String} {r : Ref Scalar} (hpath : tokens pointer = .ok path) :
    Objects.pointerGet heap input pointer = .ok r ↔ heap.walk input path = some r := by
  rw [← toOption_eq_some, Objects.pointerGet, hpath, toOption_bind]
  change Except.toOption (List.foldlM _ input path : Result (Ref Scalar)) = _ ↔ _
  rw [foldlM_child]

theorem pointerReplace_toOption (hpath : tokens binding.targetPath = .ok path) (hne : path ≠ []) :
    (Objects.pointerReplace heap input binding.targetPath (value binding)).toOption =
      heap.assign input (assignment value binding) := by
  have hlast : path.getLast? = some (path.getLast hne) := List.getLast?_eq_some_getLast hne
  have hassignment : assignment value binding =
      ⟨path.dropLast, path.getLast hne, value binding⟩ := by
    simp only [assignment, hpath, Except.toOption, Option.getD_some, hlast]
  rw [hassignment, Heap.assign, Objects.pointerReplace, hpath, toOption_bind]
  change (match path.getLast? with
    | none => _
    | some final => _ : Result (Heap Container)).toOption = _
  rw [hlast]
  dsimp only
  rw [toOption_bind, foldlM_child]
  cases heap.walk input path.dropLast with
  | none => rfl
  | some parent =>
    cases parent with
    | atom a => rfl
    | loc n =>
      rw [Option.bind_some, toOption_bind, toOption_require]
      dsimp only
      cases heap.named (.loc n : Ref Scalar) (path.getLast hne) <;> rfl

theorem applyBindings_root (hmem : binding ∈ bindings) (hroot : tokens binding.targetPath = .ok []) :
    (applyBindings heap input value bindings).toOption = none := by
  induction bindings generalizing heap with
  | nil => cases hmem
  | cons b bindings ih =>
    rw [applyBindings, List.foldlM_cons, toOption_bind, Option.bind_eq_none_iff]
    intro heap' hheap'
    rcases List.mem_cons.mp hmem with rfl | hmem
    · simp only [Objects.pointerReplace, hroot] at hheap'
      cases hheap'
    · exact ih hmem

theorem applyBindings_toOption
    (hpaths : ∀ b ∈ bindings, ∃ path, tokens b.targetPath = .ok path ∧ path ≠ []) :
    (applyBindings heap input value bindings).toOption =
      (bindings.map (assignment value)).foldlM (fun heap e => heap.assign input e) heap := by
  rw [applyBindings, toOption_foldlM, List.foldlM_map]
  induction bindings generalizing heap with
  | nil => rfl
  | cons b bindings ih =>
    rw [List.forall_mem_cons] at hpaths
    obtain ⟨⟨path, hpath, hne⟩, hrest⟩ := hpaths
    rw [List.foldlM_cons, List.foldlM_cons, pointerReplace_toOption hpath hne]
    exact Option.bind_congr fun heap' _ => ih hrest

end Loop

/-! ## When the bindings substitute -/

section Lawfulness

variable {heap : Heap Container} {input : Ref Scalar} {step : WorkflowStep}
  {value : WorkflowInputBinding → Ref Scalar} {binding b c : WorkflowInputBinding}

instance : Nonempty Slot := ⟨.item 0⟩

def Bound (step : WorkflowStep) (binding : WorkflowInputBinding) : Prop :=
  ∃ path p, tokens binding.targetPath = .ok path ∧ path ≠ [] ∧
    place step.action.input path = some p

theorem assignment_path {path : List String} (hpath : tokens binding.targetPath = .ok path)
    (hne : path ≠ []) :
    (assignment value binding).path ++ [(assignment value binding).name] = path := by
  simp only [assignment, hpath, Except.toOption, Option.getD_some,
    List.getLast?_eq_some_getLast hne]
  exact List.dropLast_append_getLast hne

theorem Bound.exists_at (h : Bound step binding) (hcopy : Copy heap input step.action.input) :
    ∃ spot : Spot Slot, heap.At input (assignment value binding) spot := by
  obtain ⟨path, p, hpath, hne, hp⟩ := h
  rw [← hcopy.holds.locate_eq, ← assignment_path hpath hne] at hp
  exact (Heap.exists_at hp).imp fun spot hspot => hspot.1

theorem Bound.target_eq (h : Bound step binding) (hcopy : Copy heap input step.action.input)
    {spot : Spot Slot} (hat : heap.At input (assignment value binding) spot) :
    target step binding = some spot.full := by
  obtain ⟨path, p, hpath, hne, hp⟩ := h
  rw [target, hpath]
  change place step.action.input path = some spot.full
  rw [← hcopy.holds.locate_eq, ← assignment_path hpath hne]
  exact hat.locate_full

/-- The bindings write to their spots, if none is strictly below an earlier one. -/
theorem applyBindings_ordered (hcopy : Copy heap input step.action.input)
    {bindings : List WorkflowInputBinding} (hbound : ∀ b ∈ bindings, Bound step b)
    {spot : Assignment String Scalar → Spot Slot}
    (hspot : ∀ b ∈ bindings, heap.At input (assignment value b) (spot (assignment value b)))
    (horder : (bindings.map (assignment value)).Pairwise fun a b =>
      ¬ (spot a).full <+: (spot b).path) :
    (applyBindings heap input value bindings).toOption =
        some (heap.writes spot (bindings.map (assignment value))) ∧
      heap.Kept (heap.writes spot (bindings.map (assignment value))) input
        ((bindings.map (assignment value)).map fun e => (spot e).full).reverse := by
  have hrun := (Heap.Kept.refl heap input).assignAll hcopy.tree
    (List.forall_mem_map.mpr hspot) (by simp) horder
  rw [List.append_nil] at hrun
  rw [applyBindings_toOption fun b hb => ?_]
  · exact hrun
  · obtain ⟨path, -, hpath, hne, -⟩ := hbound b hb
    exact ⟨path, hpath, hne⟩

variable (value) in
theorem exists_spots (hcopy : Copy heap input step.action.input)
    (hbound : ∀ b ∈ step.bindings, Bound step b) :
    ∃ spot : Assignment String Scalar → Spot Slot, ∀ b ∈ step.bindings,
      heap.At input (assignment value b) (spot (assignment value b)) := by
  have hat : ∀ e ∈ step.bindings.map (assignment value), ∃ spot, heap.At input e spot :=
    List.forall_mem_map.mpr fun b hb => (hbound b hb).exists_at hcopy
  obtain ⟨spot, hspot⟩ := Heap.exists_spots hat
  exact ⟨spot, List.forall_mem_map.mp hspot⟩

/-- Places that are apart are written independently. -/
theorem lawful_of_apart (hcopy : Copy heap input step.action.input)
    (hbound : ∀ b ∈ step.bindings, Bound step b) (hapart : TargetsApart step)
    (hvalue : ∀ b ∈ step.bindings, heap.Apart input (value b)) :
    Lawful heap input step value := by
  obtain ⟨spot, hspot⟩ := exists_spots value hcopy hbound
  have htarget : ∀ b ∈ step.bindings, target step b = some (spot (assignment value b)).full :=
    fun b hb => (hbound b hb).target_eq hcopy (hspot b hb)
  have hnodup : (step.bindings.map (assignment value)).Nodup := by
    refine List.pairwise_map.mpr (hapart.imp_of_mem fun {b c} hb hc hbc heq => ?_)
    exact (hbc _ (htarget b hb) _ (htarget c hc)).1 (by rw [heq])
  have hat : ∀ e ∈ step.bindings.map (assignment value), heap.At input e (spot e) :=
    List.forall_mem_map.mpr hspot
  have hplaces : ∀ a ∈ step.bindings.map (assignment value),
      ∀ e ∈ step.bindings.map (assignment value), a ≠ e → ¬ (spot a).full <+: (spot e).full := by
    refine List.forall_mem_map.mpr fun b hb => List.forall_mem_map.mpr fun c hc hne => ?_
    have hsymm : Std.Symm fun b c => ∀ p ∈ target step b, ∀ q ∈ target step c,
        ¬ p <+: q ∧ ¬ q <+: p := ⟨fun _ _ h p hp q hq => (h q hq p hp).symm⟩
    exact (hapart.forall hb hc (fun hbc => hne (by rw [hbc])) _ (htarget b hb) _ (htarget c hc)).1
  have hbelow : ∀ a ∈ step.bindings.map (assignment value),
      ∀ e ∈ step.bindings.map (assignment value), a ≠ e → ¬ (spot a).full <+: (spot e).path :=
    fun a ha e he hne hunder => hplaces a ha e he hne (hunder.trans (List.prefix_append _ _))
  -- every order comes to the same writes
  have hrun : ∀ bindings, bindings.Perm step.bindings →
      (applyBindings heap input value bindings).toOption =
        some (heap.writes spot (step.bindings.map (assignment value))) := by
    intro bindings hperm
    have hmap := hperm.map (assignment value)
    have hwrites : heap.writes spot (bindings.map (assignment value)) =
        heap.writes spot (step.bindings.map (assignment value)) := by
      refine Heap.writes_perm hmap fun a ha e he hne heq => ?_
      have ha := hmap.mem_iff.mp ha
      have he := hmap.mem_iff.mp he
      exact hplaces a ha e he hne (by rw [(hat a ha).full_eq hcopy.tree (hat e he) heq])
    rw [← hwrites]
    refine (applyBindings_ordered hcopy (fun b hb => hbound b (hperm.mem_iff.mp hb))
      (fun b hb => hspot b (hperm.mem_iff.mp hb)) ?_).1
    exact (hmap.nodup_iff.mpr hnodup).pairwise_of_forall_ne fun a ha e he hne =>
      hbelow a (hmap.mem_iff.mp ha) e (hmap.mem_iff.mp he) hne
  refine ⟨fun heap' hheap' => ?_, fun bindings hperm => ?_⟩
  · have hsome := (toOption_eq_some.mpr hheap').symm.trans (hrun _ (List.Perm.refl _))
    obtain rfl := Option.some.inj hsome
    obtain ⟨-, hkept⟩ := applyBindings_ordered hcopy hbound hspot
      (hnodup.pairwise_of_forall_ne hbelow)
    refine ⟨fun b hb => ?_, fun path hpath => hkept.outside path fun d hd => ?_, fun b hb n hn => ?_⟩
    · obtain ⟨path, -, hpath, hne, -⟩ := hbound b hb
      have hwalk := Heap.walk_writes hcopy.tree hat hnodup hplaces (List.mem_map_of_mem hb)
      rw [assignment_path hpath hne] at hwalk
      exact (pointerGet_eq_ok hpath).mpr hwalk
    · simp only [List.mem_reverse, List.mem_map, exists_exists_and_eq_and] at hd
      obtain ⟨c, hc, rfl⟩ := hd
      exact hpath c hc _ (htarget c hc)
    · -- the spots are objects of the input
      refine Heap.writes_of_ne fun e he hnode => ?_
      exact hvalue b hb n ⟨_, hnode ▸ (hat e he).node⟩ hn
  · rw [hrun bindings hperm, hrun _ (List.Perm.refl _)]

/-- The text of its target as the value of each binding: no two are equal. -/
def ownText (binding : WorkflowInputBinding) : Ref Scalar := .atom (.str binding.targetPath)

/-- Places that are not apart show when the places inside others are written first. -/
theorem apart_of_lawful (hcopy : Copy heap input step.action.input)
    (hbound : ∀ b ∈ step.bindings, Bound step b)
    (hnodup : (step.bindings.map (·.targetPath)).Nodup)
    (hlawful : Lawful heap input step ownText) : TargetsApart step := by
  obtain ⟨spot, hspot⟩ := exists_spots ownText hcopy hbound
  have htarget : ∀ b ∈ step.bindings, target step b = some (spot (assignment ownText b)).full :=
    fun b hb => (hbound b hb).target_eq hcopy (hspot b hb)
  let depth (b : WorkflowInputBinding) : ℕ := (spot (assignment ownText b)).full.length
  let deepest := step.bindings.insertionSort fun b c => depth c ≤ depth b
  have hperm : deepest.Perm step.bindings := List.perm_insertionSort _ _
  have hdeepest : deepest.Pairwise fun b c => depth c ≤ depth b := List.pairwise_insertionSort _ _
  obtain ⟨hrun, hkept⟩ := applyBindings_ordered hcopy
    (fun b hb => hbound b (hperm.mem_iff.mp hb)) (fun b hb => hspot b (hperm.mem_iff.mp hb))
    (List.pairwise_map.mpr (hdeepest.imp fun {b c} hbc hunder => by
      have hlength := hunder.length_le
      simp only [depth, Spot.full, List.length_append, List.length_singleton] at hbc hlength
      omega))
  rw [hlawful.ordered deepest hperm, toOption_eq_some] at hrun
  have htargets := (hlawful.substituted _ hrun).targets
  have hatoms : ∀ e ∈ deepest.map (assignment ownText), ∃ a, e.value = .atom a :=
    List.forall_mem_map.mpr fun b _ => ⟨_, rfl⟩
  have hheld : ∀ b ∈ step.bindings, ∀ p ∈ target step b,
      (heap.writes spot (deepest.map (assignment ownText))).follow input p = some (ownText b) := by
    intro b hb p hp
    obtain ⟨path, q, hpath, hne, hq⟩ := hbound b hb
    obtain rfl : q = p := by
      rw [target, hpath] at hp
      exact Option.some.inj (hq.symm.trans hp)
    rw [← hcopy.holds.locate_eq] at hq
    exact Heap.follow_of_walk hkept.named (fun r s m => Heap.read_writes_loc hatoms)
      ((pointerGet_eq_ok hpath).mp (htargets b hb)) hq
  -- a place inside one that holds an atom is not there
  have hinside : ∀ b ∈ step.bindings, ∀ c ∈ step.bindings, b.targetPath ≠ c.targetPath →
      ∀ p ∈ target step b, ∀ q ∈ target step c, ¬ p <+: q := by
    rintro b hb c hc hne p hp - hq ⟨rest, rfl⟩
    have hc' := hheld c hc _ hq
    rw [Heap.follow_append, hheld b hb p hp, Option.bind_some] at hc'
    cases rest with
    | nil =>
      have heq : ownText b = ownText c := Option.some.inj hc'
      simp only [ownText, Ref.atom.injEq, Scalar.str.injEq] at heq
      exact hne heq
    | cons s rest =>
      rw [ownText, Heap.follow_atom (List.cons_ne_nil s rest)] at hc'
      cases hc'
  refine (List.pairwise_map.mp hnodup).imp_of_mem fun {b c} hb hc hne p hp q hq => ?_
  exact ⟨hinside b hb c hc hne p hp q hq, hinside c hc b hb hne.symm q hq p hp⟩

theorem bound_of_validate {workflow : WorkflowRequest} (hvalid : workflow.validate = .ok ())
    (hstep : step ∈ workflow.steps) : (step.bindings.map (·.targetPath)).Nodup ∧
      ∀ b ∈ step.bindings, tokens b.targetPath ≠ .ok [] → Bound step b := by
  simp only [WorkflowRequest.validate, WorkflowRequest.checkStep, WorkflowRequest.checkBinding,
    bind_ok, raiseIf_ok, exists_const, not_not, forM_ok] at hvalid
  obtain ⟨-, -, -, -, hsteps, -⟩ := hvalid
  obtain ⟨-, hnodup, hbindings⟩ := hsteps step hstep
  refine ⟨hnodup, fun b hb hroot => ?_⟩
  obtain ⟨-, _, _, _, _, found, hfound, -⟩ := hbindings b hb
  obtain ⟨path, p, hpath, hp⟩ := place_of_pointerGet hfound
  exact ⟨path, p, hpath, fun hnil => hroot (hnil ▸ hpath), hp⟩

/-- The bindings of a step of an accepted request substitute the given values, whatever these are,
exactly if one of them names the root, so that every order fails, or no place that is replaced is
another one or in another one. -/
theorem bindings_lawful_iff {workflow : WorkflowRequest} (hvalid : workflow.validate = .ok ())
    (hstep : step ∈ workflow.steps) (hcopy : Copy heap input step.action.input) :
    (∀ value : WorkflowInputBinding → Ref Scalar,
        (∀ b ∈ step.bindings, heap.Apart input (value b)) → Lawful heap input step value) ↔
      (∃ b ∈ step.bindings, tokens b.targetPath = .ok []) ∨ TargetsApart step := by
  obtain ⟨hnodup, hbound⟩ := bound_of_validate hvalid hstep
  constructor
  · intro h
    by_cases hroot : ∃ b ∈ step.bindings, tokens b.targetPath = .ok []
    · exact .inl hroot
    · have hlawful := h ownText fun b _ n _ => Heap.not_reaches_atom
      exact .inr (apart_of_lawful hcopy (fun b hb => hbound b hb fun hb' => hroot ⟨b, hb, hb'⟩)
        hnodup hlawful)
  · intro h value hvalue
    by_cases hroot : ∃ b ∈ step.bindings, tokens b.targetPath = .ok []
    · obtain ⟨b, hb, hb'⟩ := hroot
      have hnone : ∀ bindings, bindings.Perm step.bindings →
          (applyBindings heap input value bindings).toOption = none :=
        fun bindings hperm => applyBindings_root (hperm.mem_iff.mpr hb) hb'
      refine ⟨fun heap' hheap' => ?_, fun bindings hperm => ?_⟩
      · rw [← toOption_eq_some, hnone _ (List.Perm.refl _)] at hheap'
        cases hheap'
      · rw [hnone bindings hperm, hnone _ (List.Perm.refl _)]
    · exact lawful_of_apart hcopy (fun b hb => hbound b hb fun hb' => hroot ⟨b, hb, hb'⟩)
        (h.resolve_left hroot) hvalue

end Lawfulness

/-! ## A target in another one -/

def stepWith (bindings : List WorkflowInputBinding) : WorkflowStep where
  stepId := "one"
  action := ⟨"cap", .obj [("a", .obj [("b", .num 0), ("c", .num 0)])]⟩
  bindings := bindings

def requestWith (bindings : List WorkflowInputBinding) : WorkflowRequest where
  workflowId := "wf"
  input := .obj [("x", .obj [("b", .num 1)]), ("y", .num 2)]
  steps := [stepWith bindings]

/-- The copy of the action's input is at 0; what `/x` means in the workflow's input is at 2. -/
def exampleHeap : Heap Container
  | 0 => some (.obj [("a", .loc 1)])
  | 1 => some (.obj [("b", .atom (.num 0)), ("c", .atom (.num 0))])
  | 2 => some (.obj [("b", .atom (.num 1))])
  | _ => none

def exampleValue (binding : WorkflowInputBinding) : Ref Scalar :=
  if binding.sourcePath = "/x" then .loc 2 else .atom (.num 2)

theorem exampleHeap_read {n m : ℕ} {s : Slot} (h : exampleHeap.read (.loc n) s = some (.loc m)) :
    n = 0 ∧ s = .key "a" ∧ m = 1 := by
  obtain ⟨c, hc, hget⟩ := Option.bind_eq_some_iff.mp h
  simp only [exampleHeap] at hc
  split at hc <;> cases hc <;> cases s <;>
    simp only [Slots.get, Container.get, List.lookup_cons, List.lookup_nil, reduceCtorEq] at hget
  · split at hget
    · rename_i k hk
      cases hget
      exact ⟨rfl, by rw [beq_iff_eq.mp hk], rfl⟩
    · cases hget
  all_goals grind

theorem exampleHeap_follow {n m : ℕ} {path : List Slot}
    (h : exampleHeap.follow (.loc n) path = some (.loc m)) :
    path = [] ∧ m = n ∨ path = [.key "a"] ∧ n = 0 ∧ m = 1 := by
  cases path with
  | nil => exact .inl ⟨rfl, by cases h; rfl⟩
  | cons s path =>
    obtain ⟨r, hr, hrest⟩ := Option.bind_eq_some_iff.mp h
    cases r with
    | atom a => cases path <;> cases hrest
    | loc k =>
      obtain ⟨rfl, rfl, rfl⟩ := exampleHeap_read hr
      cases path with
      | nil => exact .inr ⟨rfl, rfl, by cases hrest; rfl⟩
      | cons s' path =>
        obtain ⟨r, hr', hrest'⟩ := Option.bind_eq_some_iff.mp hrest
        cases r with
        | atom a => cases path <;> cases hrest'
        | loc k => cases (exampleHeap_read hr').1

theorem exampleHeap_copy (bindings : List WorkflowInputBinding) :
    Copy exampleHeap (.loc 0) (stepWith bindings).action.input := by
  constructor
  · refine .obj rfl rfl fun k r v hr hv => ?_
    obtain ⟨rfl, rfl⟩ : r = .loc 1 ∧ v = .obj [("b", .num 0), ("c", .num 0)] := by grind
    refine .obj rfl rfl fun k r v hr hv => ?_
    obtain ⟨rfl, rfl⟩ : r = .atom (.num 0) ∧ v = .num 0 := by grind
    exact .num 0
  · intro p q n hp hq
    rcases exampleHeap_follow hp with ⟨rfl, hn⟩ | ⟨rfl, -, hn⟩ <;>
      rcases exampleHeap_follow hq with ⟨rfl, hm⟩ | ⟨rfl, -, hm⟩
    · rfl
    · omega
    · omega
    · rfl

theorem exampleHeap_apart (binding : WorkflowInputBinding) :
    exampleHeap.Apart (.loc 0) (exampleValue binding) := by
  rintro n ⟨p, hp⟩ hv
  rw [exampleValue] at hv
  split at hv
  · obtain ⟨q, hq⟩ := hv
    have hp := exampleHeap_follow hp
    have hq := exampleHeap_follow hq
    omega
  · exact Heap.not_reaches_atom hv

/-- Targets side by side hold their sources. -/
theorem sideBySide_lawful :
    Lawful exampleHeap (.loc 0) (stepWith [⟨"/a/b", none, "/x"⟩, ⟨"/a/c", none, "/y"⟩])
      exampleValue :=
  have hvalid : (requestWith [⟨"/a/b", none, "/x"⟩, ⟨"/a/c", none, "/y"⟩]).validate = .ok () := by
    decide +kernel
  (bindings_lawful_iff hvalid List.mem_cons_self (exampleHeap_copy _)).mpr
    (.inr (by decide +kernel)) exampleValue fun b _ => exampleHeap_apart b

/-- With `/a` bound to `/x` and `/a/b` bound to `/y`, the workflow's own input is written to. -/
theorem nested_source_changed :
    ¬ ∀ (workflow : WorkflowRequest) (step : WorkflowStep) (heap : Heap Container)
        (input : Ref Scalar) (value : WorkflowInputBinding → Ref Scalar),
      workflow.validate = .ok () → step ∈ workflow.steps → Copy heap input step.action.input →
        (∀ b ∈ step.bindings, heap.Apart input (value b)) → Lawful heap input step value := by
  intro h
  let step := stepWith [⟨"/a", none, "/x"⟩, ⟨"/a/b", none, "/y"⟩]
  have hlawful := h (requestWith step.bindings) step exampleHeap (.loc 0) exampleValue
    (by decide +kernel) List.mem_cons_self (exampleHeap_copy _) fun b _ => exampleHeap_apart b
  have hrun : ((applyBindings exampleHeap (.loc 0) exampleValue step.bindings).toOption.map
      fun heap => heap 2) = some (some (.obj [("b", .atom (.num 2))])) := by decide +kernel
  obtain ⟨heap', hheap', htwo⟩ := Option.map_eq_some_iff.mp hrun
  have hsource := (hlawful.substituted heap' (toOption_eq_some.mp hheap')).sources
    ⟨"/a", none, "/x"⟩ List.mem_cons_self 2 ⟨[], rfl⟩
  rw [htwo] at hsource
  exact absurd hsource (by decide +kernel)

end AeepRouter.Workflow

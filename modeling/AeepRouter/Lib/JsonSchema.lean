import Mathlib.Tactic

/-!
# JSON values and schemas

A JSON value is a tree; numbers are their exact values, and an object is read through the first
entry of a key. Two equalities are of interest (`Json.eqv`): that of JSON Schema, and that of a host
language in which `true` is 1 and `false` is 0.

A schema is a set of assertions with a schema for some properties of an object and one for the items
of an array (`Schema.valid`). What else a schema may be is `foreign`, with a meaning given from
outside.
-/

namespace AeepRouter.Lib

/-! ## Entries by name -/

section Lookup

variable {β : Type} {entries : List (String × β)} {k : String} {b : β}

theorem mem_of_lookup (h : entries.lookup k = some b) : (k, b) ∈ entries := by
  obtain ⟨before, after, rfl, -⟩ := List.lookup_eq_some_iff.mp h
  simp

theorem exists_lookup (h : k ∈ entries.map (·.1)) : ∃ b, entries.lookup k = some b := by
  obtain ⟨entry, hentry, rfl⟩ := List.mem_map.mp h
  exact Option.isSome_iff_exists.mp (List.lookup_isSome_iff.mpr ⟨entry, hentry, beq_self_eq_true _⟩)

theorem mem_keys_of_lookup (h : entries.lookup k = some b) : k ∈ entries.map (·.1) :=
  List.mem_map_of_mem (mem_of_lookup h)

end Lookup

/-! ## Values -/

inductive Json where
  | null
  | bool (b : Bool)
  | num (q : ℚ)
  | str (s : String)
  | arr (items : List Json)
  | obj (fields : List (String × Json))

namespace Json

/-- The number a truth value is taken for. -/
def ofBool (b : Bool) : ℚ := if b then 1 else 0

mutual

/-- Equality of values; `mixed` takes a truth value for its number. -/
def eqv (mixed : Bool) : Json → Json → Bool
  | null, null => true
  | bool a, bool b => a = b
  | num a, num b => a = b
  | bool a, num b => mixed && decide (ofBool a = b)
  | num a, bool b => mixed && decide (a = ofBool b)
  | str a, str b => a = b
  | arr xs, arr ys => eqvItems mixed xs ys
  | obj fs, obj gs => decide (fs.length = gs.length) && eqvFields mixed fs gs
  | _, _ => false

def eqvItems (mixed : Bool) : List Json → List Json → Bool
  | [], [] => true
  | x :: xs, y :: ys => eqv mixed x y && eqvItems mixed xs ys
  | _, _ => false

/-- Every field has an equal one on the other side. -/
def eqvFields (mixed : Bool) : List (String × Json) → List (String × Json) → Bool
  | [], _ => true
  | (k, x) :: fs, gs =>
    (match gs.lookup k with
      | some y => eqv mixed x y
      | none => false) && eqvFields mixed fs gs

end

theorem eqvItems_mem {mixed : Bool} {xs ys : List Json} (h : eqvItems mixed xs ys = true) {x : Json}
    (hx : x ∈ xs) : ∃ y ∈ ys, eqv mixed x y = true := by
  induction xs generalizing ys with
  | nil => cases hx
  | cons z xs ih =>
    cases ys with
    | nil => simp [eqvItems] at h
    | cons y ys =>
      rw [eqvItems, Bool.and_eq_true] at h
      rcases List.mem_cons.mp hx with rfl | hx
      · exact ⟨y, List.mem_cons_self, h.1⟩
      · obtain ⟨w, hw, hxw⟩ := ih h.2 hx
        exact ⟨w, List.mem_cons_of_mem _ hw, hxw⟩

end Json

/-! ## Schemas -/

inductive JsonType where
  | null
  | boolean
  | integer
  | number
  | string
  | array
  | object
  deriving DecidableEq, Repr

/-- A number without a fractional part is an integer, however it is written. -/
def Json.hasType : Json → JsonType → Bool
  | .null, .null => true
  | .bool _, .boolean => true
  | .num q, .integer => q.den = 1
  | .num _, .number => true
  | .str _, .string => true
  | .arr _, .array => true
  | .obj _, .object => true
  | _, _ => false

inductive TypeKeyword where
  | one (type : JsonType)
  | many (types : List JsonType)
  deriving DecidableEq, Repr

def TypeKeyword.admits (v : Json) : TypeKeyword → Bool
  | one type => v.hasType type
  | many types => types.any v.hasType

/-- The keywords that hold no schema. -/
structure Assertions where
  type : Option TypeKeyword
  required : Option (List String)
  additionalProperties : Option Bool
  enum : Option (List Json)
  minimum : Option ℚ
  maximum : Option ℚ
  minLength : Option ℕ
  maxLength : Option ℕ
  minItems : Option ℕ
  maxItems : Option ℕ

def Assertions.none : Assertions := ⟨.none, .none, .none, .none, .none, .none, .none, .none, .none, .none⟩

inductive Schema where
  | foreign (json : Json)
  | mk (assertions : Assertions) (properties : Option (List (String × Schema)))
      (items : Option Schema)

namespace Assertions

/-- The bounds on numbers, texts and arrays. -/
def bounds (a : Assertions) : Json → Bool
  | .num q => a.minimum.all (· ≤ q) && a.maximum.all (q ≤ ·)
  | .str s => a.minLength.all (· ≤ s.length) && a.maxLength.all (s.length ≤ ·)
  | .arr items => a.minItems.all (· ≤ items.length) && a.maxItems.all (items.length ≤ ·)
  | _ => true

/-- An enumeration lists the value, or there is none. -/
def listed (a : Assertions) (v : Json) : Bool := a.enum.all (·.any (Json.eqv false · v))

/-- The properties an object has to have and those it may have. -/
def names (a : Assertions) (known : List String) : Json → Bool
  | .obj fields =>
    (a.required.getD []).all (· ∈ fields.map (·.1)) &&
      (a.additionalProperties ≠ some false || fields.all (·.1 ∈ known))
  | _ => true

end Assertions

namespace Schema

abbrev keys (properties : Option (List (String × Schema))) : List String :=
  (properties.getD []).map (·.1)

variable (other : Json → Json → Bool)

mutual

/-- A value is valid under a schema; `other` says which are under a foreign one. -/
def valid : Schema → Json → Bool
  | foreign json, v => other json v
  | mk a properties items, v =>
    a.type.all (·.admits v) && a.listed v && a.bounds v && a.names (keys properties) v &&
      match v with
      | .obj fields => fields.all fun field => validProperties properties field.1 field.2
      | .arr elements => elements.all fun element => validItem items element
      | _ => true

def validProperties : Option (List (String × Schema)) → String → Json → Bool
  | none, _, _ => true
  | some properties, k, v => validProperty properties k v

def validProperty : List (String × Schema) → String → Json → Bool
  | [], _, _ => true
  | (k', schema) :: properties, k, v =>
    if k = k' then valid schema v else validProperty properties k v

def validItem : Option Schema → Json → Bool
  | none, _ => true
  | some schema, v => valid schema v

end

theorem induction {P : Schema → Prop} (hforeign : ∀ json, P (foreign json))
    (hmk : ∀ a properties items, (∀ entry ∈ properties.getD [], P entry.2) →
      (∀ schema ∈ items, P schema) → P (mk a properties items)) : ∀ schema, P schema := by
  intro schema
  refine @Schema.rec P (fun properties => ∀ entry ∈ properties.getD [], P entry.2)
    (fun items => ∀ schema ∈ items, P schema) (fun properties => ∀ entry ∈ properties, P entry.2)
    (fun entry => P entry.2) ?_ ?_ ?_ ?_ ?_ ?_ ?_ ?_ ?_ schema
  · exact hforeign
  · exact fun a properties items => hmk a properties items
  · exact fun entry h => absurd h List.not_mem_nil
  · exact fun properties ih => ih
  · exact fun _ h => absurd h (Option.not_mem_none _)
  · intro schema ih schema' h
    exact Option.some.inj h ▸ ih
  · exact fun entry h => absurd h List.not_mem_nil
  · intro entry properties hentry hproperties
    rw [List.forall_mem_cons]
    exact ⟨hentry, hproperties⟩
  · exact fun k schema ih => ih

section Valid

variable {other : Json → Json → Bool} {k : String} {v : Json}

theorem validProperty_eq (properties : List (String × Schema)) :
    validProperty other properties k v =
      match properties.lookup k with
      | some schema => valid other schema v
      | none => true := by
  induction properties with
  | nil => rfl
  | cons entry properties ih =>
    obtain ⟨k', schema⟩ := entry
    rw [validProperty, List.lookup_cons]
    by_cases h : k = k'
    · simp [h]
    · rw [if_neg h, ih, beq_eq_false_iff_ne.mpr h]

theorem validProperties_eq (properties : Option (List (String × Schema))) :
    validProperties other properties k v =
      match (properties.getD []).lookup k with
      | some schema => valid other schema v
      | none => true := by
  cases properties with
  | none => rfl
  | some properties => exact validProperty_eq properties

theorem valid_mk {a : Assertions} {properties : Option (List (String × Schema))}
    {items : Option Schema} : valid other (mk a properties items) v = true ↔
      (∀ type ∈ a.type, type.admits v = true) ∧ a.listed v = true ∧ a.bounds v = true ∧
        a.names (keys properties) v = true ∧
        (∀ fields, v = .obj fields → ∀ field ∈ fields, ∀ schema,
          (properties.getD []).lookup field.1 = some schema → valid other schema field.2 = true) ∧
        ∀ elements, v = .arr elements → ∀ element ∈ elements, ∀ schema ∈ items,
          valid other schema element = true := by
  cases v with
  | obj fields =>
    simp only [valid, Bool.and_eq_true, Option.all_eq_true, and_assoc, List.all_eq_true,
      validProperties_eq, reduceCtorEq, false_implies, implies_true, and_true, Json.obj.injEq,
      forall_eq']
    refine and_congr_right fun _ => and_congr_right fun _ => and_congr_right fun _ =>
      and_congr_right fun _ => forall_congr' fun field => forall_congr' fun _ => ?_
    cases (properties.getD []).lookup field.1 <;> simp
  | arr elements =>
    simp only [valid, Bool.and_eq_true, Option.all_eq_true, and_assoc, List.all_eq_true,
      reduceCtorEq, false_implies, implies_true, true_and, Json.arr.injEq, forall_eq']
    refine and_congr_right fun _ => and_congr_right fun _ => and_congr_right fun _ =>
      and_congr_right fun _ => forall_congr' fun element => forall_congr' fun _ => ?_
    cases items <;> simp [validItem]
  | _ =>
    simp [valid, Option.all_eq_true, and_assoc]

end Valid

end Schema

end AeepRouter.Lib

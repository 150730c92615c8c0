import AeepRouter.Lib.JsonSchema
import AeepRouter.Lib.Run

/-!
# Compatibility of artifact contracts

`schemaCompatibility` compares the schema of an output with that of an input, `compatible` their
contracts. Values listed by enumerations are compared as the host language does, which takes `true`
for 1 and `false` for 0; a validator keeps them apart.
-/

namespace AeepRouter.Stack

open Lib

/-- What a comparison can say. -/
inductive Verdict where
  | compatible
  | incompatible
  | unknown
  deriving DecidableEq, Repr

/-! ## Schemas -/

def isEmpty : Schema → Bool
  | .mk ⟨none, none, none, none, none, none, none, none, none, none⟩ none none => true
  | _ => false

mutual

def supportedSchema : Schema → Bool
  | .foreign _ => false
  | .mk _ properties items => supportedProperties properties && supportedItems items

def supportedProperties : Option (List (String × Schema)) → Bool
  | none => true
  | some properties => supportedEntries properties

def supportedEntries : List (String × Schema) → Bool
  | [] => true
  | (_, child) :: entries => supportedSchema child && supportedEntries entries

def supportedItems : Option Schema → Bool
  | none => true
  | some items => supportedSchema items

end

/-- Lists the host language finds equal. -/
def sameEnum : Option (List Json) → Option (List Json) → Bool
  | none, none => true
  | some xs, some ys => Json.eqvItems true xs ys
  | _, _ => false

/-- The keywords without a schema are equal in the host language. -/
def sameAssertions (a b : Assertions) : Bool :=
  a.type = b.type && a.required = b.required && a.additionalProperties = b.additionalProperties &&
    sameEnum a.enum b.enum && a.minimum = b.minimum && a.maximum = b.maximum &&
    a.minLength = b.minLength && a.maxLength = b.maxLength && a.minItems = b.minItems &&
    a.maxItems = b.maxItems

mutual

/-- `producer == consumer`; dictionaries are equal when neither misses a key of the other. -/
def sameSchema : Schema → Schema → Bool
  | .foreign json, .foreign json' => Json.eqv true json json'
  | .mk a properties items, .mk b properties' items' =>
    sameAssertions a b && sameProperties properties properties' && sameItems items items'
  | _, _ => false

def sameProperties : Option (List (String × Schema)) → Option (List (String × Schema)) → Bool
  | none, none => true
  | some properties, some properties' =>
    decide (properties'.map (·.1) ⊆ properties.map (·.1)) && sameEntries properties properties'
  | _, _ => false

def sameEntries : List (String × Schema) → List (String × Schema) → Bool
  | [], _ => true
  | (k, child) :: entries, properties =>
    (match properties.lookup k with
      | some child' => sameSchema child child'
      | none => false) && sameEntries entries properties

def sameItems : Option Schema → Option Schema → Bool
  | none, none => true
  | some items, some items' => sameSchema items items'
  | _, _ => false

end

/-- A bound of the input that the output gives at least as tightly. -/
def guarantees {α : Type} (weaker : α → α → Bool) : Option α → Option α → Bool
  | _, none => true
  | none, some _ => false
  | some producer, some consumer => !weaker producer consumer

def enumBounded : Option (List Json) → Option (List Json) → Bool
  | _, none => true
  | none, some _ => false
  | some producer, some consumer => producer.all fun value => consumer.any (Json.eqv true value ·)

/-- The first fault of the keywords without a schema. -/
def assertionFault (a b : Assertions) : Option (Verdict × List String) :=
  match a.type, b.type with
  | some (.one pt), some (.one ct) =>
    if pt ≠ ct ∧ (pt, ct) ≠ (.integer, .number) then some (.incompatible, ["schema types differ"])
    else if ¬ enumBounded a.enum b.enum then
      some (.unknown, ["output enumeration is not bounded by input enumeration"])
    else if ¬ guarantees (fun p c => p < c) a.minimum b.minimum then
      some (.unknown, ["output does not guarantee minimum"])
    else if ¬ guarantees (fun p c => p < c) a.minLength b.minLength then
      some (.unknown, ["output does not guarantee minLength"])
    else if ¬ guarantees (fun p c => p < c) a.minItems b.minItems then
      some (.unknown, ["output does not guarantee minItems"])
    else if ¬ guarantees (fun p c => c < p) a.maximum b.maximum then
      some (.unknown, ["output does not guarantee maximum"])
    else if ¬ guarantees (fun p c => c < p) a.maxLength b.maxLength then
      some (.unknown, ["output does not guarantee maxLength"])
    else if ¬ guarantees (fun p c => c < p) a.maxItems b.maxItems then
      some (.unknown, ["output does not guarantee maxItems"])
    else none
  | _, _ => some (.unknown, ["schema type unavailable"])

def namesFault (a b : Assertions) (pp cp : List String) : Option (Verdict × List String) :=
  if ¬ b.required.getD [] ⊆ a.required.getD [] then
    some (.unknown, ["required input properties are not guaranteed"])
  else if b.additionalProperties = some false ∧
      (a.additionalProperties ≠ some false ∨ ¬ pp ⊆ cp) then
    some (.unknown, ["additional output properties may be rejected"])
  else if ¬ cp ⊆ pp ∧ a.additionalProperties ≠ some false then
    some (.unknown, ["unconstrained output property may violate input schema"])
  else none

mutual

def schemaCompatibility : Option Schema → Option Schema → Verdict × List String
  | none, consumer =>
    if consumer.any isEmpty then (.compatible, []) else (.unknown, ["value schema unavailable"])
  | some _, none => (.unknown, ["value schema unavailable"])
  | some producer, some consumer => schemaRelation producer consumer

def schemaRelation : Schema → Schema → Verdict × List String
  | .foreign _, consumer =>
    if isEmpty consumer then (.compatible, []) else (.unknown, ["unsupported schema relationship"])
  | .mk a properties items, consumer =>
    if isEmpty consumer then (.compatible, [])
    else if ¬ (supportedSchema (.mk a properties items) ∧ supportedSchema consumer) then
      (.unknown, ["unsupported schema relationship"])
    else if sameSchema (.mk a properties items) consumer then (.compatible, [])
    else match consumer with
      | .foreign _ => (.unknown, ["unsupported schema relationship"])
      | .mk b properties' items' =>
        match assertionFault a b with
        | some fault => fault
        | none =>
          if b.type = some (.one .object) then
            match namesFault a b (Schema.keys properties) (Schema.keys properties') with
            | some fault => fault
            | none => propertiesRelation properties (properties'.getD [])
          else if b.type = some (.one .array) then schemaCompatibility items items'
          else (.compatible, [])

/-- The properties both sides give a schema for; the order, open in the source, is that of the
producer. -/
def propertiesRelation :
    Option (List (String × Schema)) → List (String × Schema) → Verdict × List String
  | none, _ => (.compatible, [])
  | some properties, properties' => entriesRelation properties properties'

def entriesRelation : List (String × Schema) → List (String × Schema) → Verdict × List String
  | [], _ => (.compatible, [])
  | (k, child) :: entries, properties =>
    match properties.lookup k with
    | none => entriesRelation entries properties
    | some child' =>
      match schemaRelation child child' with
      | (.compatible, _) => entriesRelation entries properties
      | relation => relation

end

/-! ## What a validator keeps apart -/

/-- At a place both schemas enumerate, the value has a part that the producer lists and the consumer
lists only up to the equality of the host language. -/
inductive Confused : Schema → Schema → Json → Prop where
  | here {a b : Assertions} {properties properties' : Option (List (String × Schema))}
      {items items' : Option Schema} {producer consumer : List Json} {x y v : Json} :
      a.enum = some producer → b.enum = some consumer → x ∈ producer → Json.eqv false x v = true →
      y ∈ consumer → Json.eqv true x y = true → (∀ z ∈ consumer, Json.eqv false z v = false) →
      Confused (.mk a properties items) (.mk b properties' items') v
  | property {a b : Assertions} {properties properties' : Option (List (String × Schema))}
      {items items' : Option Schema} {fields : List (String × Json)} {field : String × Json}
      {child child' : Schema} :
      (properties.getD []).lookup field.1 = some child →
      (properties'.getD []).lookup field.1 = some child' → field ∈ fields →
      Confused child child' field.2 →
      Confused (.mk a properties items) (.mk b properties' items') (.obj fields)
  | item {a b : Assertions} {properties properties' : Option (List (String × Schema))}
      {child child' : Schema} {elements : List Json} {element : Json} :
      element ∈ elements → Confused child child' element →
      Confused (.mk a properties (some child)) (.mk b properties' (some child')) (.arr elements)

section Soundness

variable {other : Json → Json → Bool} {a b : Assertions}
  {properties properties' : Option (List (String × Schema))} {items items' : Option Schema} {v : Json}

theorem Confused.not_valid {producer consumer : Schema} (h : Confused producer consumer v) :
    ¬ consumer.valid other v = true := by
  induction h with
  | here _ hconsumer _ _ _ _ hnone =>
    intro hvalid
    have hlisted := (Schema.valid_mk.mp hvalid).2.1
    unfold Assertions.listed at hlisted
    rw [hconsumer, Option.all_some, List.any_eq_true] at hlisted
    obtain ⟨z, hz, heq⟩ := hlisted
    rw [hnone z hz] at heq
    cases heq
  | property _ hchild hfield _ ih =>
    intro hvalid
    exact ih ((Schema.valid_mk.mp hvalid).2.2.2.2.1 _ rfl _ hfield _ hchild)
  | item helement _ ih =>
    intro hvalid
    exact ih ((Schema.valid_mk.mp hvalid).2.2.2.2.2 _ rfl _ helement _ rfl)

/-- Every listed value has one it is equal to in the host language. -/
theorem listed_or_confused {properties properties' : Option (List (String × Schema))}
    {items items' : Option Schema} (hlisted : a.listed v = true)
    (h : ∀ consumer ∈ b.enum, ∃ producer ∈ a.enum, ∀ x ∈ producer, ∃ y ∈ consumer,
      Json.eqv true x y = true) :
    b.listed v = true ∨ Confused (.mk a properties items) (.mk b properties' items') v := by
  unfold Assertions.listed at hlisted ⊢
  cases hb : b.enum with
  | none => exact .inl rfl
  | some consumer =>
    obtain ⟨producer, hproducer, hall⟩ := h consumer hb
    rw [Option.mem_def] at hproducer
    rw [hproducer, Option.all_some, List.any_eq_true] at hlisted
    obtain ⟨x, hx, hxv⟩ := hlisted
    obtain ⟨y, hy, hxy⟩ := hall x hx
    by_cases hsome : consumer.any (Json.eqv false · v)
    · exact .inl hsome
    · rw [Bool.not_eq_true, List.any_eq_false] at hsome
      exact .inr (.here hproducer hb hx hxv hy hxy fun z hz => by simpa using hsome z hz)

theorem children_or_confused (hvalid : Schema.valid other (.mk a properties items) v = true)
    (hproperties : ∀ k child', (properties'.getD []).lookup k = some child' →
      (∃ child, (properties.getD []).lookup k = some child ∧ ∀ w, child.valid other w = true →
        child'.valid other w = true ∨ Confused child child' w) ∨
      ∀ fields, v = .obj fields → ∀ field ∈ fields, field.1 ≠ k)
    (hitems : ∀ elements, v = .arr elements → ∀ child' ∈ items',
      (∀ w, child'.valid other w = true) ∨ ∃ child ∈ items, ∀ w, child.valid other w = true →
        child'.valid other w = true ∨ Confused child child' w) :
    ((∀ fields, v = .obj fields → ∀ field ∈ fields, ∀ child',
        (properties'.getD []).lookup field.1 = some child' → child'.valid other field.2 = true) ∧
      ∀ elements, v = .arr elements → ∀ element ∈ elements, ∀ child' ∈ items',
        child'.valid other element = true) ∨
      Confused (.mk a properties items) (.mk b properties' items') v := by
  obtain ⟨-, -, -, -, hfields, helements⟩ := Schema.valid_mk.mp hvalid
  by_contra hnot
  rw [not_or, not_and_or] at hnot
  obtain ⟨hsome | hsome, hconfused⟩ := hnot
  · push Not at hsome
    obtain ⟨fields, rfl, field, hfield, child', hchild', hinvalid⟩ := hsome
    rcases hproperties field.1 child' hchild' with ⟨child, hchild, himp⟩ | habsent
    · rcases himp field.2 (hfields fields rfl field hfield child hchild) with hok | hbad
      · exact hinvalid hok
      · exact hconfused (.property hchild hchild' hfield hbad)
    · exact habsent fields rfl field hfield rfl
  · push Not at hsome
    obtain ⟨elements, rfl, element, helement, child', hchild', hinvalid⟩ := hsome
    obtain ⟨child, hchild, himp⟩ :=
      (hitems elements rfl child' hchild').resolve_left fun hall => hinvalid (hall element)
    rw [Option.mem_def] at hchild hchild'
    subst hchild hchild'
    rcases himp element (helements elements rfl element helement child rfl) with hok | hbad
    · exact hinvalid hok
    · exact hconfused (.item helement hbad)

/-- What the consumer asserts beside its enumeration, and asks of the parts, makes a value valid. -/
theorem valid_or_confused (hvalid : Schema.valid other (.mk a properties items) v = true)
    (htype : ∀ type ∈ b.type, type.admits v = true)
    (henum : ∀ consumer ∈ b.enum, ∃ producer ∈ a.enum, ∀ x ∈ producer, ∃ y ∈ consumer,
      Json.eqv true x y = true)
    (hbounds : b.bounds v = true) (hnames : b.names (Schema.keys properties') v = true)
    (hproperties : ∀ k child', (properties'.getD []).lookup k = some child' →
      (∃ child, (properties.getD []).lookup k = some child ∧ ∀ w, child.valid other w = true →
        child'.valid other w = true ∨ Confused child child' w) ∨
      ∀ fields, v = .obj fields → ∀ field ∈ fields, field.1 ≠ k)
    (hitems : ∀ elements, v = .arr elements → ∀ child' ∈ items',
      (∀ w, child'.valid other w = true) ∨ ∃ child ∈ items, ∀ w, child.valid other w = true →
        child'.valid other w = true ∨ Confused child child' w) :
    Schema.valid other (.mk b properties' items') v = true ∨
      Confused (.mk a properties items) (.mk b properties' items') v := by
  rcases listed_or_confused (Schema.valid_mk.mp hvalid).2.1 henum with hlisted | hconfused
  · rcases children_or_confused hvalid hproperties hitems with ⟨hfields, helements⟩ | hconfused
    · exact .inl (Schema.valid_mk.mpr ⟨htype, hlisted, hbounds, hnames, hfields, helements⟩)
    · exact .inr hconfused
  · exact .inr hconfused

/-- `{}` accepts every value. -/
theorem valid_of_isEmpty {consumer : Schema} (h : isEmpty consumer = true) :
    consumer.valid other v = true := by
  unfold isEmpty at h
  split at h
  · rw [Schema.valid_mk]
    refine ⟨nofun, rfl, ?_, ?_, nofun, nofun⟩
    · cases v <;> rfl
    · cases v <;> simp [Assertions.names]
  · cases h

/-! ### Equal schemas -/

theorem supportedSchema_children (h : supportedSchema (.mk a properties items) = true) :
    (∀ entry ∈ properties.getD [], supportedSchema entry.2 = true) ∧
      ∀ child ∈ items, supportedSchema child = true := by
  rw [supportedSchema, Bool.and_eq_true] at h
  refine ⟨?_, ?_⟩
  · cases properties with
    | none => exact nofun
    | some entries =>
      have hentries : supportedEntries entries = true := h.1
      show ∀ entry ∈ entries, _
      clear h
      induction entries with
      | nil => exact nofun
      | cons entry entries ih =>
        rw [supportedEntries, Bool.and_eq_true] at hentries
        rw [List.forall_mem_cons]
        exact ⟨hentries.1, ih hentries.2⟩
  · rintro child ⟨⟩
    exact h.2

theorem sameAssertions_iff : sameAssertions a b = true ↔
    a.type = b.type ∧ a.required = b.required ∧ a.additionalProperties = b.additionalProperties ∧
      sameEnum a.enum b.enum = true ∧ a.minimum = b.minimum ∧ a.maximum = b.maximum ∧
      a.minLength = b.minLength ∧ a.maxLength = b.maxLength ∧ a.minItems = b.minItems ∧
      a.maxItems = b.maxItems := by
  simp [sameAssertions, and_assoc]

theorem sameEntries_lookup {entries properties : List (String × Schema)} {k : String}
    {child : Schema} (h : sameEntries entries properties = true) (hchild : (k, child) ∈ entries) :
    ∃ child', properties.lookup k = some child' ∧ sameSchema child child' = true := by
  induction entries with
  | nil => cases hchild
  | cons entry entries ih =>
    obtain ⟨k', child'⟩ := entry
    rw [sameEntries, Bool.and_eq_true] at h
    rcases List.mem_cons.mp hchild with heq | hchild
    · obtain ⟨rfl, rfl⟩ := Prod.mk.injEq .. ▸ heq
      cases hlookup : properties.lookup k with
      | none => simp [hlookup] at h
      | some found => exact ⟨found, rfl, by simpa [hlookup] using h.1⟩
    · exact ih h.2 hchild

theorem sameProperties_lookup (h : sameProperties properties properties' = true) :
    Schema.keys properties ⊆ Schema.keys properties' ∧
      ∀ k child', (properties'.getD []).lookup k = some child' →
        ∃ child, (properties.getD []).lookup k = some child ∧ sameSchema child child' = true := by
  cases properties with
  | none =>
    cases properties' with
    | none => exact ⟨List.Subset.refl _, nofun⟩
    | some entries' => simp [sameProperties] at h
  | some entries =>
    cases properties' with
    | none => simp [sameProperties] at h
    | some entries' =>
      rw [sameProperties, Bool.and_eq_true, decide_eq_true_eq] at h
      refine ⟨fun k hk => ?_, fun k child' hchild' => ?_⟩
      · obtain ⟨child, hchild⟩ := exists_lookup hk
        obtain ⟨child', hchild', -⟩ := sameEntries_lookup h.2 (mem_of_lookup hchild)
        exact mem_keys_of_lookup hchild'
      · obtain ⟨child, hchild⟩ := exists_lookup (h.1 (mem_keys_of_lookup hchild'))
        obtain ⟨found, hfound, hsame⟩ := sameEntries_lookup h.2 (mem_of_lookup hchild)
        have hlookup : entries'.lookup k = some child' := hchild'
        obtain rfl := Option.some.inj (hfound.symm.trans hlookup)
        exact ⟨child, hchild, hsame⟩

theorem sameSchema_sound (producer : Schema) : ∀ (consumer : Schema) (v : Json),
    sameSchema producer consumer = true → supportedSchema producer = true →
      producer.valid other v = true → consumer.valid other v = true ∨
        Confused producer consumer v := by
  induction producer using Schema.induction with
  | hforeign json =>
    intro consumer v _ hsupported
    simp [supportedSchema] at hsupported
  | hmk a properties items ihproperties ihitems =>
    intro consumer v hsame hsupported hvalid
    cases consumer with
    | foreign json => simp [sameSchema] at hsame
    | mk b properties' items' =>
      rw [sameSchema, Bool.and_eq_true, Bool.and_eq_true, sameAssertions_iff] at hsame
      obtain ⟨⟨⟨htype, hrequired, hadditional, henum, hmin, hmax, hminLength, hmaxLength, hminItems,
        hmaxItems⟩, hproperties⟩, hitems⟩ := hsame
      obtain ⟨hkeys, hlookup⟩ := sameProperties_lookup hproperties
      obtain ⟨hsupportedEntries, hsupportedItems⟩ := supportedSchema_children hsupported
      obtain ⟨hatype, -, habounds, hanames, -, -⟩ := Schema.valid_mk.mp hvalid
      refine valid_or_confused hvalid (htype ▸ hatype) ?_ ?_ ?_ ?_ ?_
      · intro consumer hconsumer
        rw [Option.mem_def] at hconsumer
        rw [hconsumer] at henum
        cases hproducer : a.enum with
        | none => simp [hproducer, sameEnum] at henum
        | some producer =>
          rw [hproducer] at henum
          exact ⟨producer, rfl, fun x hx => Json.eqvItems_mem henum hx⟩
      · unfold Assertions.bounds at habounds ⊢
        rw [← hmin, ← hmax, ← hminLength, ← hmaxLength, ← hminItems, ← hmaxItems]
        exact habounds
      · cases v with
        | obj fields =>
          simp only [Assertions.names, ← hrequired, ← hadditional, Bool.and_eq_true,
            Bool.or_eq_true, List.all_eq_true, decide_eq_true_eq] at hanames ⊢
          exact ⟨hanames.1, hanames.2.imp_right fun h field hfield => hkeys (h field hfield)⟩
        | _ => rfl
      · intro k child' hchild'
        obtain ⟨child, hchild, hsame⟩ := hlookup k child' hchild'
        have hmem := mem_of_lookup hchild
        exact .inl ⟨child, hchild, fun w => ihproperties _ hmem child' w hsame
          (hsupportedEntries _ hmem)⟩
      · rintro elements - child' ⟨⟩
        cases items with
        | none => simp [sameItems] at hitems
        | some child =>
          rw [sameItems] at hitems
          exact .inr ⟨child, rfl, fun w => ihitems child rfl child' w hitems
            (hsupportedItems child rfl)⟩

/-! ### Related schemas -/

theorem guarantees_min {α : Type} [LinearOrder α] {p c : Option α} {q : α}
    (h : guarantees (fun p c => decide (p < c)) p c = true) (hp : p.all (· ≤ q) = true) :
    c.all (· ≤ q) = true := by
  cases c with
  | none => rfl
  | some c =>
    cases p with
    | none => simp [guarantees] at h
    | some p =>
      simp only [guarantees, Bool.not_eq_true', decide_eq_false_iff_not, not_lt, Option.all_some,
        decide_eq_true_eq] at h hp ⊢
      exact h.trans hp

theorem guarantees_max {α : Type} [LinearOrder α] {p c : Option α} {q : α}
    (h : guarantees (fun p c => decide (c < p)) p c = true) (hp : p.all (q ≤ ·) = true) :
    c.all (q ≤ ·) = true := by
  cases c with
  | none => rfl
  | some c =>
    cases p with
    | none => simp [guarantees] at h
    | some p =>
      simp only [guarantees, Bool.not_eq_true', decide_eq_false_iff_not, not_lt, Option.all_some,
        decide_eq_true_eq] at h hp ⊢
      exact hp.trans h

theorem assertionFault_some {fault : Verdict × List String} (h : assertionFault a b = some fault) :
    fault.1 ≠ .compatible ∧ fault.2 ≠ [] := by
  unfold assertionFault at h
  split at h
  · split_ifs at h <;> cases h <;> decide
  · cases h
    decide

theorem namesFault_some {fault : Verdict × List String} {pp cp : List String}
    (h : namesFault a b pp cp = some fault) : fault.1 ≠ .compatible ∧ fault.2 ≠ [] := by
  unfold namesFault at h
  split_ifs at h <;> cases h <;> decide

theorem assertionFault_none (h : assertionFault a b = none) :
    (∃ pt ct, a.type = some (.one pt) ∧ b.type = some (.one ct) ∧
        (pt = ct ∨ pt = .integer ∧ ct = .number)) ∧
      enumBounded a.enum b.enum = true ∧ ∀ v, a.bounds v = true → b.bounds v = true := by
  unfold assertionFault at h
  split at h
  · next pt ct hpt hct =>
    simp only [ite_some_eq_none, not_and_or, not_not, Prod.mk.injEq, and_true] at h
    obtain ⟨htype, henum, hmin, hminLength, hminItems, hmax, hmaxLength, hmaxItems⟩ := h
    refine ⟨⟨pt, ct, hpt, hct, ?_⟩, henum, fun v hv => ?_⟩
    · exact htype
    · cases v with
      | num q =>
        simp only [Assertions.bounds, Bool.and_eq_true] at hv ⊢
        exact ⟨guarantees_min hmin hv.1, guarantees_max hmax hv.2⟩
      | str s =>
        simp only [Assertions.bounds, Bool.and_eq_true] at hv ⊢
        exact ⟨guarantees_min hminLength hv.1, guarantees_max hmaxLength hv.2⟩
      | arr elements =>
        simp only [Assertions.bounds, Bool.and_eq_true] at hv ⊢
        exact ⟨guarantees_min hminItems hv.1, guarantees_max hmaxItems hv.2⟩
      | _ => rfl
  · cases h

theorem names_of_namesFault {pp cp : List String} (h : namesFault a b pp cp = none)
    (hv : a.names pp v = true) : b.names cp v = true := by
  simp only [namesFault, ite_some_eq_none, not_and_or, not_not, not_or, and_true] at h
  obtain ⟨hrequired, hadditional, -⟩ := h
  cases v with
  | obj fields =>
    simp only [Assertions.names, Bool.and_eq_true, Bool.or_eq_true, List.all_eq_true,
      decide_eq_true_eq] at hv ⊢
    refine ⟨fun k hk => hv.1 k (hrequired hk), ?_⟩
    rcases hadditional with hopen | ⟨hclosed, hsub⟩
    · exact .inl hopen
    · exact .inr fun field hfield => hsub (hv.2.resolve_left (not_not.mpr hclosed) field hfield)
  | _ => rfl

/-- A property of the consumer that the producer gives no schema is absent. -/
theorem absent_of_namesFault {pp cp : List String} {k : String} {fields : List (String × Json)}
    (h : namesFault a b pp cp = none) (hv : a.names pp (.obj fields) = true) (hk : k ∈ cp)
    (hunknown : k ∉ pp) : ∀ field ∈ fields, field.1 ≠ k := by
  simp only [namesFault, ite_some_eq_none, not_and_or, not_not, not_or, and_true] at h
  obtain ⟨-, -, hextra⟩ := h
  simp only [Assertions.names, Bool.and_eq_true, Bool.or_eq_true, List.all_eq_true,
    decide_eq_true_eq] at hv
  have hclosed : a.additionalProperties = some false :=
    hextra.resolve_left fun hsub => hunknown (hsub hk)
  rintro field hfield rfl
  exact hunknown (hv.2.resolve_left (not_not.mpr hclosed) field hfield)

theorem entriesRelation_compatible {entries properties : List (String × Schema)}
    (h : (entriesRelation entries properties).1 = .compatible) {k : String} {child child' : Schema}
    (hchild : (k, child) ∈ entries) (hchild' : properties.lookup k = some child') :
    (schemaRelation child child').1 = .compatible := by
  induction entries with
  | nil => cases hchild
  | cons entry entries ih =>
    obtain ⟨k', other⟩ := entry
    rw [entriesRelation] at h
    rcases List.mem_cons.mp hchild with heq | hchild
    · obtain ⟨rfl, rfl⟩ := Prod.mk.injEq .. ▸ heq
      rw [hchild'] at h
      dsimp only at h
      split at h
      · next hrelation => rw [hrelation]
      · exact h
    · split at h
      · exact ih h hchild
      · split at h
        · exact ih h hchild
        · next hne => exact (hne _ (Prod.ext h rfl)).elim

theorem schemaRelation_sound (producer : Schema) : ∀ (consumer : Schema) (v : Json),
    (schemaRelation producer consumer).1 = .compatible → producer.valid other v = true →
      consumer.valid other v = true ∨ Confused producer consumer v := by
  induction producer using Schema.induction with
  | hforeign json =>
    intro consumer v h _
    rw [schemaRelation] at h
    split at h
    · next hempty => exact .inl (valid_of_isEmpty hempty)
    · cases h
  | hmk a properties items ihproperties ihitems =>
    intro consumer v h hvalid
    cases consumer with
    | foreign json => simp [schemaRelation, isEmpty, supportedSchema] at h
    | mk b properties' items' =>
    rw [schemaRelation.eq_def] at h
    dsimp only at h
    split at h
    · next hempty => exact .inl (valid_of_isEmpty hempty)
    split at h
    · cases h
    next hsupported =>
    rw [not_not] at hsupported
    split at h
    · next hsame => exact sameSchema_sound _ _ v hsame hsupported.1 hvalid
    split at h
    · next fault hfault => exact absurd h (assertionFault_some hfault).1
    next hfault =>
    obtain ⟨⟨pt, ct, hpt, hct, htypes⟩, henum, hbounds⟩ := assertionFault_none hfault
    obtain ⟨hatype, -, habounds, hanames, -, -⟩ := Schema.valid_mk.mp hvalid
    have hvpt : v.hasType pt = true := hatype _ hpt
    have hvct : v.hasType ct = true := by
      rcases htypes with rfl | ⟨rfl, rfl⟩
      · exact hvpt
      · cases v <;> simp_all [Json.hasType]
    -- the part of the comparison that looks at the type of the consumer
    have hobject : ∀ fields, v = .obj fields →
        namesFault a b (Schema.keys properties) (Schema.keys properties') = none ∧
          (propertiesRelation properties (properties'.getD [])).1 = .compatible := by
      rintro fields rfl
      obtain rfl : ct = .object := by cases ct <;> simp_all [Json.hasType]
      rw [if_pos hct] at h
      split at h
      · next fault hnames => exact absurd h (namesFault_some hnames).1
      · next hnames => exact ⟨hnames, h⟩
    have harray : ∀ elements, v = .arr elements →
        (schemaCompatibility items items').1 = .compatible := by
      rintro elements rfl
      obtain rfl : ct = .array := by cases ct <;> simp_all [Json.hasType]
      rwa [if_neg (by rw [hct]; decide), if_pos hct] at h
    refine valid_or_confused hvalid ?_ ?_ (hbounds v habounds) ?_ ?_ ?_
    · rw [hct]
      rintro type ⟨⟩
      exact hvct
    · intro consumer hconsumer
      rw [Option.mem_def] at hconsumer
      rw [hconsumer] at henum
      cases hproducer : a.enum with
      | none => simp [hproducer, enumBounded] at henum
      | some listed =>
        simp only [hproducer, enumBounded, List.all_eq_true, List.any_eq_true] at henum
        exact ⟨listed, rfl, henum⟩
    · cases v with
      | obj fields => exact names_of_namesFault (hobject fields rfl).1 hanames
      | _ => rfl
    · intro k child' hchild'
      cases v with
      | obj fields =>
        obtain ⟨hnames, hproperties⟩ := hobject fields rfl
        by_cases hk : k ∈ Schema.keys properties
        · obtain ⟨child, hchild⟩ := exists_lookup hk
          have hmem := mem_of_lookup hchild
          have hentries : (entriesRelation (properties.getD []) (properties'.getD [])).1 =
              .compatible := by
            cases properties with
            | none => cases hmem
            | some entries => rwa [propertiesRelation] at hproperties
          exact .inl ⟨child, hchild, fun w => ihproperties _ hmem child' w
            (entriesRelation_compatible hentries hmem hchild')⟩
        · refine .inr fun fields' heq => ?_
          cases heq
          exact absent_of_namesFault hnames hanames (mem_keys_of_lookup hchild') hk
      | _ => exact .inr nofun
    · rintro elements heq child' ⟨⟩
      have hitems := harray elements heq
      cases items with
      | none =>
        rw [schemaCompatibility] at hitems
        split at hitems
        · next hempty => exact .inl fun w => valid_of_isEmpty (by simpa using hempty)
        · cases hitems
      | some child =>
        rw [schemaCompatibility] at hitems
        exact .inr ⟨child, rfl, fun w => ihitems child rfl child' w hitems⟩

theorem valid_imp_iff {producer consumer : Schema}
    (h : (schemaRelation producer consumer).1 = .compatible) :
    (∀ v, producer.valid other v = true → consumer.valid other v = true) ↔
      ¬ ∃ v, producer.valid other v = true ∧ Confused producer consumer v := by
  constructor
  · rintro himp ⟨v, hvalid, hconfused⟩
    exact hconfused.not_valid (himp v hvalid)
  · intro hnone v hvalid
    exact (schemaRelation_sound producer consumer v h hvalid).resolve_right fun hconfused =>
      hnone ⟨v, hvalid, hconfused⟩

theorem entriesRelation_reasons {entries properties : List (String × Schema)}
    (hentries : ∀ entry ∈ entries, ∀ consumer, (schemaRelation entry.2 consumer).2 = [] →
      (schemaRelation entry.2 consumer).1 = .compatible)
    (h : (entriesRelation entries properties).2 = []) :
    (entriesRelation entries properties).1 = .compatible := by
  induction entries with
  | nil => rw [entriesRelation]
  | cons entry entries ih =>
    obtain ⟨k, child⟩ := entry
    rw [List.forall_mem_cons] at hentries
    rw [entriesRelation] at h ⊢
    cases hlookup : properties.lookup k with
    | none =>
      rw [hlookup] at h
      exact ih hentries.2 h
    | some child' =>
      rw [hlookup] at h
      dsimp only at h ⊢
      split at h
      · exact ih hentries.2 h
      · next hne => exact (hne _ (Prod.ext (hentries.1 child' h) rfl)).elim

theorem schemaRelation_reasons (producer : Schema) : ∀ consumer : Schema,
    (schemaRelation producer consumer).2 = [] →
      (schemaRelation producer consumer).1 = .compatible := by
  induction producer using Schema.induction with
  | hforeign json =>
    intro consumer h
    rw [schemaRelation] at h ⊢
    split at h
    · next hempty => rw [if_pos hempty]
    · cases h
  | hmk a properties items ihproperties ihitems =>
    intro consumer
    cases consumer with
    | foreign json => simp [schemaRelation, isEmpty, supportedSchema]
    | mk b properties' items' =>
    rw [schemaRelation.eq_def]
    dsimp only
    split
    · exact fun _ => rfl
    split
    · exact nofun
    split
    · exact fun _ => rfl
    split
    · next hfault => exact fun h => absurd h (assertionFault_some hfault).2
    split
    · split
      · next hnames => exact fun h => absurd h (namesFault_some hnames).2
      · cases properties with
        | none => simp [propertiesRelation]
        | some entries =>
          rw [propertiesRelation]
          exact entriesRelation_reasons ihproperties
    split
    · cases items with
      | none =>
        rw [schemaCompatibility]
        split
        · exact fun _ => rfl
        · exact nofun
      | some child =>
        cases items' with
        | none => simp [schemaCompatibility]
        | some child' =>
          rw [schemaCompatibility]
          exact ihitems child rfl child'
    · exact fun _ => rfl

end Soundness

/-! ## Contracts -/

/-- `Literal['local', 'remote']`. -/
inductive Locality where
  | localHost
  | remote
  deriving DecidableEq, Repr

/-- `Literal['public', 'private', 'restricted']`. -/
inductive Confidentiality where
  | publicData
  | privateData
  | restricted
  deriving DecidableEq, Repr

structure ArtifactContract where
  semanticType : String
  mediaType : Option String
  valueSchema : Option Schema
  encoding : Option String
  maxBytes : Option ℕ
  maxWidth : Option ℕ
  maxHeight : Option ℕ
  maxDurationSeconds : Option ℚ
  locality : Option Locality
  confidentiality : Option Confidentiality
  duration : ∀ seconds ∈ maxDurationSeconds, 0 ≤ seconds

theorem unlimited_duration : ∀ seconds ∈ (none : Option ℚ), 0 ≤ seconds := by simp

/-- A field of the input that the output has to match; what is unknown is added to the list, a
difference ends the comparison with its reason. -/
def matchField {α : Type} [DecidableEq α] (field : String) (actual expected : Option α)
    (unknowns : List String) : Except String (List String) :=
  match expected, actual with
  | none, _ => pure unknowns
  | some _, none => pure (unknowns ++ [field ++ " unavailable"])
  | some expected, some actual =>
    if actual ≠ expected then .error (field ++ " differs") else pure unknowns

/-- A bound of the input that the output may not exceed. -/
def boundField {α : Type} [LinearOrder α] (field : String) (actual maximum : Option α)
    (unknowns : List String) : Except String (List String) :=
  match maximum, actual with
  | none, _ => pure unknowns
  | some _, none => pure (unknowns ++ [field ++ " unavailable"])
  | some maximum, some actual =>
    if maximum < actual then .error (field ++ " exceeds input bound") else pure unknowns

/-- The fields two contracts are compared by before their schemas. -/
def compareFields (producer consumer : ArtifactContract) : Except String (List String) :=
  matchField "media_type" producer.mediaType consumer.mediaType [] >>=
    matchField "encoding" producer.encoding consumer.encoding >>=
    matchField "locality" producer.locality consumer.locality >>=
    matchField "confidentiality" producer.confidentiality consumer.confidentiality >>=
    boundField "max_bytes" producer.maxBytes consumer.maxBytes >>=
    boundField "max_width" producer.maxWidth consumer.maxWidth >>=
    boundField "max_height" producer.maxHeight consumer.maxHeight >>=
    boundField "max_duration_seconds" producer.maxDurationSeconds consumer.maxDurationSeconds

def compatible (producer consumer : Option ArtifactContract) : Verdict × List String :=
  match producer, consumer with
  | some producer, some consumer =>
    if producer.semanticType ≠ consumer.semanticType then
      (.incompatible, ["semantic types differ"])
    else match compareFields producer consumer with
      | .error reason => (.incompatible, [reason])
      | .ok unknowns =>
        match schemaCompatibility producer.valueSchema consumer.valueSchema with
        | (.incompatible, reasons) => (.incompatible, reasons)
        | (_, reasons) =>
          if unknowns ++ reasons ≠ [] then (.unknown, unknowns ++ reasons) else (.compatible, [])
  | _, _ => (.unknown, ["artifact contract unavailable"])

structure Artifact where
  semanticType : String
  mediaType : String
  value : Json
  encoding : String
  bytes : ℕ
  width : ℕ
  height : ℕ
  durationSeconds : ℚ
  locality : Locality
  confidentiality : Confidentiality

/-- The artifact is as the contract says, where it says anything. -/
structure ArtifactContract.Satisfies (other : Json → Json → Bool) (contract : ArtifactContract)
    (artifact : Artifact) : Prop where
  semanticType : artifact.semanticType = contract.semanticType
  mediaType : ∀ mediaType ∈ contract.mediaType, artifact.mediaType = mediaType
  encoding : ∀ encoding ∈ contract.encoding, artifact.encoding = encoding
  locality : ∀ locality ∈ contract.locality, artifact.locality = locality
  confidentiality : ∀ confidentiality ∈ contract.confidentiality,
    artifact.confidentiality = confidentiality
  bytes : ∀ maximum ∈ contract.maxBytes, artifact.bytes ≤ maximum
  width : ∀ maximum ∈ contract.maxWidth, artifact.width ≤ maximum
  height : ∀ maximum ∈ contract.maxHeight, artifact.height ≤ maximum
  durationSeconds : ∀ maximum ∈ contract.maxDurationSeconds, artifact.durationSeconds ≤ maximum
  value : ∀ schema ∈ contract.valueSchema, schema.valid other artifact.value = true

section Contracts

variable {other : Json → Json → Bool} {producer consumer : ArtifactContract}

theorem matchField_ok {α : Type} [DecidableEq α] {field : String} {actual expected : Option α}
    {unknowns : List String} (h : matchField field actual expected unknowns = .ok []) :
    unknowns = [] ∧ ∀ e ∈ expected, actual = some e := by
  unfold matchField at h
  split at h
  · exact ⟨Except.ok.inj h, nofun⟩
  · exact absurd (Except.ok.inj h) (by simp)
  · split at h
    · cases h
    · next heq =>
      refine ⟨Except.ok.inj h, ?_⟩
      rintro e ⟨⟩
      rw [not_not.mp heq]

theorem boundField_ok {α : Type} [LinearOrder α] {field : String} {actual maximum : Option α}
    {unknowns : List String} (h : boundField field actual maximum unknowns = .ok []) :
    unknowns = [] ∧ ∀ m ∈ maximum, ∃ a ∈ actual, a ≤ m := by
  unfold boundField at h
  split at h
  · exact ⟨Except.ok.inj h, nofun⟩
  · exact absurd (Except.ok.inj h) (by simp)
  · split at h
    · cases h
    · next hle =>
      refine ⟨Except.ok.inj h, ?_⟩
      rintro m ⟨⟩
      exact ⟨_, rfl, not_lt.mp hle⟩

/-- What a comparison of the fields without unknowns has found. -/
structure ArtifactContract.Covers (producer consumer : ArtifactContract) : Prop where
  mediaType : ∀ e ∈ consumer.mediaType, producer.mediaType = some e
  encoding : ∀ e ∈ consumer.encoding, producer.encoding = some e
  locality : ∀ e ∈ consumer.locality, producer.locality = some e
  confidentiality : ∀ e ∈ consumer.confidentiality, producer.confidentiality = some e
  bytes : ∀ m ∈ consumer.maxBytes, ∃ a ∈ producer.maxBytes, a ≤ m
  width : ∀ m ∈ consumer.maxWidth, ∃ a ∈ producer.maxWidth, a ≤ m
  height : ∀ m ∈ consumer.maxHeight, ∃ a ∈ producer.maxHeight, a ≤ m
  durationSeconds : ∀ m ∈ consumer.maxDurationSeconds, ∃ a ∈ producer.maxDurationSeconds, a ≤ m

theorem compareFields_ok (h : compareFields producer consumer = .ok []) :
    producer.Covers consumer := by
  simp only [compareFields, bind_ok] at h
  obtain ⟨u, ⟨u, ⟨u, ⟨u, ⟨u, ⟨u, ⟨u, hmedia, hencoding⟩, hlocality⟩, hconfidentiality⟩, hbytes⟩,
    hwidth⟩, hheight⟩, hduration⟩ := h
  obtain ⟨rfl, hd⟩ := boundField_ok hduration
  obtain ⟨rfl, hh⟩ := boundField_ok hheight
  obtain ⟨rfl, hw⟩ := boundField_ok hwidth
  obtain ⟨rfl, hb⟩ := boundField_ok hbytes
  obtain ⟨rfl, hc⟩ := matchField_ok hconfidentiality
  obtain ⟨rfl, hl⟩ := matchField_ok hlocality
  obtain ⟨rfl, he⟩ := matchField_ok hencoding
  exact ⟨(matchField_ok hmedia).2, he, hl, hc, hb, hw, hh, hd⟩

theorem schemaCompatibility_reasons {p c : Option Schema} (h : (schemaCompatibility p c).2 = []) :
    (schemaCompatibility p c).1 = .compatible := by
  cases p with
  | none =>
    rw [schemaCompatibility] at h ⊢
    split at h
    · next hempty => rw [if_pos hempty]
    · cases h
  | some p =>
    cases c with
    | none => simp [schemaCompatibility] at h
    | some c =>
      rw [schemaCompatibility] at h ⊢
      exact schemaRelation_reasons p c h

theorem compatible_ok (h : (compatible (some producer) (some consumer)).1 = .compatible) :
    producer.semanticType = consumer.semanticType ∧ producer.Covers consumer ∧
      (schemaCompatibility producer.valueSchema consumer.valueSchema).1 = .compatible := by
  unfold compatible at h
  dsimp only at h
  split at h
  · cases h
  next hsemantic =>
  split at h
  · cases h
  next unknowns hfields =>
  split at h
  · cases h
  next reasons hne hschema =>
  split at h
  · cases h
  next hnone =>
  rw [not_not, List.append_eq_nil_iff] at hnone
  obtain ⟨rfl, rfl⟩ := hnone
  refine ⟨not_not.mp hsemantic, compareFields_ok hfields, schemaCompatibility_reasons ?_⟩
  rw [hschema]

theorem ArtifactContract.Covers.satisfies (hcovers : producer.Covers consumer)
    (hsemantic : producer.semanticType = consumer.semanticType) {artifact : Artifact}
    (h : producer.Satisfies other artifact)
    (hvalue : ∀ schema ∈ consumer.valueSchema, schema.valid other artifact.value = true) :
    consumer.Satisfies other artifact where
  semanticType := h.semanticType.trans hsemantic
  mediaType e he := h.mediaType e (hcovers.mediaType e he)
  encoding e he := h.encoding e (hcovers.encoding e he)
  locality e he := h.locality e (hcovers.locality e he)
  confidentiality e he := h.confidentiality e (hcovers.confidentiality e he)
  bytes m hm := by
    obtain ⟨a, ha, hle⟩ := hcovers.bytes m hm
    exact (h.bytes a ha).trans hle
  width m hm := by
    obtain ⟨a, ha, hle⟩ := hcovers.width m hm
    exact (h.width a ha).trans hle
  height m hm := by
    obtain ⟨a, ha, hle⟩ := hcovers.height m hm
    exact (h.height a ha).trans hle
  durationSeconds m hm := by
    obtain ⟨a, ha, hle⟩ := hcovers.durationSeconds m hm
    exact (h.durationSeconds a ha).trans hle
  value := hvalue

def ArtifactContract.least (contract : ArtifactContract) (value : Json) : Artifact where
  semanticType := contract.semanticType
  mediaType := contract.mediaType.getD ""
  value := value
  encoding := contract.encoding.getD ""
  bytes := 0
  width := 0
  height := 0
  durationSeconds := 0
  locality := contract.locality.getD .localHost
  confidentiality := contract.confidentiality.getD .publicData

theorem ArtifactContract.least_satisfies {contract : ArtifactContract} {value : Json}
    (h : ∀ schema ∈ contract.valueSchema, schema.valid other value = true) :
    contract.Satisfies other (contract.least value) where
  semanticType := rfl
  mediaType e he := by simp [least, Option.mem_def.mp he]
  encoding e he := by simp [least, Option.mem_def.mp he]
  locality e he := by simp [least, Option.mem_def.mp he]
  confidentiality e he := by simp [least, Option.mem_def.mp he]
  bytes m _ := Nat.zero_le m
  width m _ := Nat.zero_le m
  height m _ := Nat.zero_le m
  durationSeconds m hm := contract.duration m hm
  value := h

/-- A verdict of compatibility holds for all values, and for all artifacts, unless a valid value is
confused. -/
theorem compatible_sound_iff (other : Json → Json → Bool) :
    (∀ producer consumer : Schema,
      (schemaCompatibility (some producer) (some consumer)).1 = .compatible →
        ((∀ v, producer.valid other v = true → consumer.valid other v = true) ↔
          ¬ ∃ v, producer.valid other v = true ∧ Confused producer consumer v)) ∧
      ∀ producer consumer : ArtifactContract,
        (compatible (some producer) (some consumer)).1 = .compatible →
          ((∀ artifact, producer.Satisfies other artifact → consumer.Satisfies other artifact) ↔
            ¬ ∃ p ∈ producer.valueSchema, ∃ c ∈ consumer.valueSchema, ∃ v,
              p.valid other v = true ∧ Confused p c v) := by
  refine ⟨fun producer consumer h => ?_, fun producer consumer h => ?_⟩
  · rw [schemaCompatibility] at h
    exact valid_imp_iff h
  · obtain ⟨hsemantic, hcovers, hschema⟩ := compatible_ok h
    constructor
    · rintro himp ⟨p, hp, c, hc, v, hvalid, hconfused⟩
      have hleast : producer.Satisfies other (producer.least v) :=
        ArtifactContract.least_satisfies fun schema hs => Option.mem_unique hp hs ▸ hvalid
      exact hconfused.not_valid ((himp _ hleast).value c hc)
    · intro hnone artifact hartifact
      refine hcovers.satisfies hsemantic hartifact fun c hc => ?_
      rw [Option.mem_def] at hc
      rw [hc] at hschema
      cases hp : producer.valueSchema with
      | none =>
        rw [hp, schemaCompatibility] at hschema
        split at hschema
        · next hempty => exact valid_of_isEmpty (by simpa using hempty)
        · cases hschema
      | some p =>
        rw [hp, schemaCompatibility] at hschema
        exact (valid_imp_iff hschema).mpr
          (fun ⟨v, hvalid, hconfused⟩ => hnone ⟨p, hp, c, hc, v, hvalid, hconfused⟩) _
          (hartifact.value p hp)

/-- No foreign schema accepts a value. -/
def noForeign : Json → Json → Bool := fun _ _ => false

def typed (type : JsonType) (enum : Option (List Json)) (minimum : Option ℚ) : Schema :=
  .mk { Assertions.none with type := some (.one type), enum := enum, minimum := minimum } none none

def plainContract (schema : Schema) : ArtifactContract :=
  ⟨"artifact", none, some schema, none, none, none, none, none, none, none, unlimited_duration⟩

theorem compatible_sound_iff_of_minimum :
    (∀ v, (typed .integer none (some 3)).valid noForeign v = true →
        (typed .number none (some 1)).valid noForeign v = true) ∧
      ∀ artifact, (plainContract (typed .integer none (some 3))).Satisfies noForeign artifact →
        (plainContract (typed .number none (some 1))).Satisfies noForeign artifact := by
  have hnone : ∀ v, ¬ Confused (typed .integer none (some 3)) (typed .number none (some 1)) v := by
    intro v h
    cases h with
    | here hproducer => cases hproducer
    | property hchild => cases hchild
  refine ⟨((compatible_sound_iff noForeign).1 _ _ (by decide +kernel)).mpr ?_,
    ((compatible_sound_iff noForeign).2 _ _ (by decide +kernel)).mpr ?_⟩
  · rintro ⟨v, -, hconfused⟩
    exact hnone v hconfused
  · rintro ⟨p, ⟨⟩, c, ⟨⟩, v, -, hconfused⟩
    exact hnone v hconfused

/-- An integer from `[1]` is found compatible with one from `[true]`, an equal schema, and with one
from `[true, 2]`, which lists it; 1 is valid under the first and under neither of the others. -/
theorem one_taken_for_true :
    (schemaCompatibility (some (typed .integer (some [.num 1]) none))
        (some (typed .integer (some [.bool true]) none))).1 = .compatible ∧
      (schemaCompatibility (some (typed .integer (some [.num 1]) none))
        (some (typed .integer (some [.bool true, .num 2]) none))).1 = .compatible ∧
      (compatible (some (plainContract (typed .integer (some [.num 1]) none)))
        (some (plainContract (typed .integer (some [.bool true]) none)))).1 = .compatible ∧
      (typed .integer (some [.num 1]) none).valid noForeign (.num 1) = true ∧
      (typed .integer (some [.bool true]) none).valid noForeign (.num 1) = false ∧
      (typed .integer (some [.bool true, .num 2]) none).valid noForeign (.num 1) = false := by
  decide +kernel

end Contracts

end AeepRouter.Stack

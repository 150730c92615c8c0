import AeepRouter.Economic.Pricing

/-!
# Disclosure of quote features

`disclose_quote_features` projects an action onto the fields a policy names, and
`validate_disclosed_quote_features` checks a map before it leaves. Both validate values by
`_validate_value`; what is missing, null or required each treats in its own way. `lower` is
`str.lower`.
-/

namespace AeepRouter.Disclosure

open Lib

/-! ## Actions -/

inductive InputValue where
  | null
  | bool (value : Bool)
  | int (value : ℤ)
  | float (text : String)
  | string (value : String)
  | list (items : List InputValue)
  | dict (entries : List (String × InputValue))

/-- A value of a disclosed map, as the checker gets it. -/
def InputValue.ofPrimitive : JsonPrimitive → InputValue
  | .string value => string value
  | .int value => int value
  | .bool value => bool value
  | .null => null

structure ActionFeatures where
  inputBytes : ℕ
  inputItems : ℕ
  textCharacters : ℕ
  maxDepth : ℕ
  sizeBucket : String

/-- `getattr(action_features, key)`, for the keys there are. -/
def ActionFeatures.get (features : ActionFeatures) (key : String) : Option InputValue :=
  [("input_bytes", .int features.inputBytes), ("input_items", .int features.inputItems),
    ("text_characters", .int features.textCharacters), ("max_depth", .int features.maxDepth),
    ("size_bucket", InputValue.string features.sizeBucket)].lookup key

/-! ## Names and categories -/

inductive DisclosureValueType where
  | integer
  | boolean
  | enum
  deriving DecidableEq, Repr

def featureTypes : List (String × DisclosureValueType) :=
  [("input_bytes", .integer), ("input_items", .integer), ("text_characters", .integer),
    ("max_depth", .integer), ("size_bucket", .enum)]

def alwaysDeniedNameParts : List String :=
  ["access_key", "authorization", "cookie", "credential", "email", "name", "password", "secret",
    "token", "url", "uri"]

def freeFormNameParts : List String := ["body", "content", "file", "prompt", "resume", "text"]

def aggregateSuffixes : List String := ["_bucket", "_bytes", "_characters", "_count", "_items"]

def Contains (part text : String) : Prop := part.toList <:+: text.toList

instance (part text : String) : Decidable (Contains part text) :=
  inferInstanceAs (Decidable (_ <:+: _))

section Names

variable (lower : String → String)

def safeName (label value : String) : Result String := do
  let normalized := String.ofList ((lower value).toList.map fun c => if c = '-' then '_' else c)
  let aggregate := aggregateSuffixes.any fun suffix => suffix.toList.isSuffixOf normalized.toList
  raiseIf ((∃ part ∈ alwaysDeniedNameParts, Contains part normalized) ∨
      ¬ aggregate ∧ ∃ part ∈ freeFormNameParts, Contains part normalized)
    (.value (label ++ " selects a sensitive or free-form field"))
  pure value

end Names

/-- `str.isspace` of one character. -/
def isSpace (c : Char) : Bool :=
  c.toNat ∈ [0x20, 0x85, 0xa0, 0x1680, 0x2028, 0x2029, 0x202f, 0x205f, 0x3000] ∨
    (0x09 ≤ c.toNat ∧ c.toNat ≤ 0x0d) ∨ (0x1c ≤ c.toNat ∧ c.toNat ≤ 0x1f) ∨
    (0x2000 ≤ c.toNat ∧ c.toNat ≤ 0x200a)

def safeEnum (value : String) : Result String := do
  refuseIf (value = "" ∨ 64 < value.length ∨ Contains "://" value ∨ Contains "@" value)
    "quote enum value is not a bounded category"
  refuseIf (value.toList.any isSpace) "quote enum values cannot contain whitespace"
  pure value

/-- `(?:empty|2\^[0-9]+)`, in full. -/
def wellFormedBucket (value : String) : Bool :=
  match value.toList with
  | '2' :: '^' :: digits => digits ≠ [] ∧ digits.all (·.isDigit)
  | cs => cs = "empty".toList

/-- A letter, and at most `more` letters, digits and characters of `extra`, in ASCII. -/
def identifier (extra : List Char) (more : ℕ) (value : String) : Bool :=
  match value.toList with
  | [] => false
  | c :: rest =>
    c.isAlpha ∧ rest.length ≤ more ∧ rest.all fun c => c.isAlphanum ∨ c ∈ extra

/-! ## Policies -/

inductive Namespace where
  | actionFeatures
  | actionInput
  deriving DecidableEq, Repr

/-- `source`, parted at its first point. -/
structure DisclosureSource where
  «namespace» : Namespace
  key : String
  deriving DecidableEq

def sizeBucket : DisclosureSource := ⟨.actionFeatures, "size_bucket"⟩

/-- The fields of a `QuoteDisclosureField`, before its validators. -/
structure DisclosureField where
  source : DisclosureSource
  name : String
  type : Option DisclosureValueType
  allowedValues : List String
  minimum : Option ℤ
  maximum : Option ℤ
  required : Bool

namespace DisclosureField

variable (lower : String → String) (field : DisclosureField)

def sourceType : Option DisclosureValueType := featureTypes.lookup field.source.key

def valueType? : Option DisclosureValueType := field.type.or field.sourceType

def safeSource : Result Unit := do
  raiseIf (¬ identifier ['_', '-'] 63 field.source.key)
    (.value "quote disclosure sources must be top-level action fields")
  let _ ← safeName lower "quote disclosure source" field.source.key
  raiseIf (field.source.namespace = .actionFeatures ∧ field.sourceType = none)
    (.value "unknown action feature in quote disclosure")

def safeOutputName : Result Unit := do
  raiseIf (¬ identifier ['_', '.', '-'] 99 field.name)
    (.value "quote disclosure names must be bounded identifiers")
  let _ ← safeName lower "quote disclosure name" field.name

def boundedAllowedValues : Result Unit := do
  raiseIf (64 < field.allowedValues.length ∨ ¬ field.allowedValues.Nodup)
    (.value "quote enum allowlist must contain at most 64 unique values")
  field.allowedValues.forM fun value => do
    let _ ← safeEnum value

def consistentType : Result Unit := do
  let valueType ← require field.valueType?
    (.value "action_input quote disclosures require an explicit type")
  raiseIf (field.sourceType ≠ none ∧ some valueType ≠ field.sourceType)
    (.value "action feature disclosure type does not match the feature")
  raiseIf (valueType = .enum ∧ ¬ (field.allowedValues ≠ [] ∨ field.source = sizeBucket))
    (.value "enum quote disclosures require an operator allowlist")
  raiseIf (valueType ≠ .enum ∧ field.allowedValues ≠ [])
    (.value "allowed_values applies only to enum quote disclosures")
  raiseIf (valueType ≠ .integer ∧ (field.minimum ≠ none ∨ field.maximum ≠ none))
    (.value "numeric bounds apply only to integer quote disclosures")
  raiseIf (∃ least ∈ field.minimum, ∃ most ∈ field.maximum, most < least)
    (.value "quote disclosure minimum cannot exceed maximum")

/-- The validators of the model. -/
def validate : Result Unit := do
  field.safeSource lower
  field.safeOutputName lower
  field.boundedAllowedValues
  field.consistentType

end DisclosureField

/-- `QuoteDisclosurePolicy`, of fields its validators admit. -/
structure DisclosurePolicy (lower : String → String) where
  fields : List DisclosureField
  maximumEncodedBytes : ℕ
  valid : ∀ field ∈ fields, field.validate lower = .ok ()
  encoded_bounds : 2 ≤ maximumEncodedBytes ∧ maximumEncodedBytes ≤ 65536
  few : fields.length ≤ 64
  distinct : (fields.map (·.name)).Nodup

/-! ## Encoded sizes -/

/-- The bytes of a character in a JSON string. -/
def escapedSize (c : Char) : ℕ :=
  if c ∈ ['"', '\\', '\n', '\r', '\t', '\x08', '\x0c'] then 2
  else if c.toNat < 0x20 then 6 else c.utf8Size

def stringSize (text : String) : ℕ := 2 + (text.toList.map escapedSize).sum

def primitiveSize : JsonPrimitive → ℕ
  | .string value => stringSize value
  | .int value => (toString value).length
  | .bool value => if value then 4 else 5
  | .null => 4

/-- `_encoded_size`: members with their commas, between braces. -/
def encodedSize (values : List (String × JsonPrimitive)) : ℕ :=
  2 + (values.map fun (name, value) => stringSize name + 1 + primitiveSize value).sum +
    (values.length - 1)

/-! ## Values -/

namespace DisclosureField

variable (field : DisclosureField)

/-- The start of the messages about a feature. -/
def featureLabel : String := "quote feature '" ++ field.name ++ "'"

/-- The integers a field takes. -/
def WithinBounds (value : ℤ) : Prop :=
  field.minimum.getD 0 ≤ value ∧ value ≤ field.maximum.getD 1000000000

instance (value : ℤ) : Decidable (field.WithinBounds value) :=
  inferInstanceAs (Decidable (_ ∧ _))

def validateEnum : InputValue → Result JsonPrimitive
  | .string value => do
    let _ ← safeEnum value
    refuseIf (field.allowedValues ≠ [] ∧ value ∉ field.allowedValues)
      (field.featureLabel ++ " is not allowlisted")
    refuseIf (field.source = sizeBucket ∧ ¬ wellFormedBucket value)
      "action size bucket is invalid"
    pure (.string value)
  | _ => .error (.configuration (field.featureLabel ++ " must be an enum"))

def validateValue (raw : InputValue) : Result JsonPrimitive :=
  match raw, field.valueType? with
  | .null, _ => .error (.configuration (field.featureLabel ++ " cannot be null"))
  | _, none => .error .fault
  | .int value, some .integer => do
    refuseIf (¬ field.WithinBounds value) (field.featureLabel ++ " is outside its bounds")
    pure (.int value)
  | _, some .integer => .error (.configuration (field.featureLabel ++ " must be an integer"))
  | .bool value, some .boolean => pure (.bool value)
  | _, some .boolean => .error (.configuration (field.featureLabel ++ " must be a boolean"))
  | raw, some .enum => field.validateEnum raw

def selected (input : List (String × InputValue)) (features : ActionFeatures) : Option InputValue :=
  match field.source.namespace with
  | .actionFeatures => features.get field.source.key
  | .actionInput => input.lookup field.source.key

/-- One round of the loop of `disclose_quote_features`. -/
def disclose (input : List (String × InputValue)) (features : ActionFeatures) :
    Result (Option JsonPrimitive) :=
  match field.selected input features with
  | none =>
    -- `getattr` has every feature a policy may name
    if field.required then
      .error (.configuration ("required " ++ field.featureLabel ++ " is unavailable"))
    else pure none
  | some .null =>
    if field.required then
      .error (.configuration ("required " ++ field.featureLabel ++ " is null"))
    else pure none
  | some raw => (field.validateValue raw).map some

end DisclosureField

/-! ## The producer and the checker -/

def discloseFields (input : List (String × InputValue)) (features : ActionFeatures) :
    List DisclosureField → Result (List (String × JsonPrimitive))
  | [] => pure []
  | field :: fields => do
    let value ← field.disclose input features
    let rest ← discloseFields input features fields
    pure ((value.map fun value => (field.name, value)).toList ++ rest)

section Policies

variable {lower : String → String}

def discloseQuoteFeatures (policy : DisclosurePolicy lower) (input : List (String × InputValue))
    (features : ActionFeatures) : Result (List (String × JsonPrimitive)) := do
  let disclosed ← discloseFields input features policy.fields
  refuseIf (policy.maximumEncodedBytes < encodedSize disclosed)
    "quote disclosure exceeds its encoded size limit"
  pure disclosed

/-- One round of the loop of `validate_disclosed_quote_features`. -/
def checkDisclosed (policy : DisclosurePolicy lower) (entry : String × JsonPrimitive) :
    Result Unit := do
  let _ ← (safeName lower "quote disclosure name" entry.1).mapError fun _ =>
    .configuration "quote disclosure contains a sensitive or free-form field"
  let field ← demand (policy.fields.find? (·.name = entry.1))
    "quote disclosure contains an unapproved field"
  let _ ← field.validateValue (.ofPrimitive entry.2)

def validateDisclosedQuoteFeatures (values : List (String × JsonPrimitive)) :
    Option (DisclosurePolicy lower) → Result Unit
  | none =>
    refuseIf (values ≠ []) "non-empty quote disclosure requires an operator-approved policy"
  | some policy => do
    refuseIf (∃ field ∈ policy.fields, field.required ∧ field.name ∉ values.map (·.1))
      "required quote disclosure fields are unavailable"
    values.forM (checkDisclosed policy)
    refuseIf (policy.maximumEncodedBytes < encodedSize values)
      "quote disclosure exceeds its encoded size limit"

end Policies

/-! ## What is accepted -/

namespace DisclosureField

variable {lower : String → String} {field : DisclosureField}

def Takes (field : DisclosureField) : JsonPrimitive → Prop
  | .int value => field.valueType? = some .integer ∧ field.WithinBounds value
  | .bool _ => field.valueType? = some .boolean
  | .string value => field.valueType? = some .enum ∧ safeEnum value = .ok value ∧
      (field.allowedValues ≠ [] → value ∈ field.allowedValues) ∧
      (field.source = sizeBucket → wellFormedBucket value)
  | .null => False

theorem safeEnum_ok {value value' : String} (h : safeEnum value = .ok value') : value' = value := by
  simp only [safeEnum, bind_ok, raiseIf_ok, pure_ok] at h
  obtain ⟨_, -, _, -, rfl⟩ := h
  rfl

theorem validateEnum_ok {raw : InputValue} {value : JsonPrimitive}
    (htype : field.valueType? = some .enum) :
    field.validateEnum raw = .ok value ↔ raw = .ofPrimitive value ∧ field.Takes value := by
  have hother : ∀ value, field.Takes value → ∃ text, value = .string text := by
    intro value htakes
    cases value with
    | string text => exact ⟨text, rfl⟩
    | int n => cases htype.symm.trans htakes.1
    | bool b => cases htype.symm.trans htakes
    | null => exact htakes.elim
  cases raw with
  | string text =>
    simp only [validateEnum, bind_ok, raiseIf_ok, pure_ok, exists_const, not_and, not_not]
    constructor
    · rintro ⟨text', hsafe, hallowed, hbucket, rfl⟩
      exact ⟨rfl, htype, safeEnum_ok hsafe ▸ hsafe, hallowed, by simpa using hbucket⟩
    · rintro ⟨hraw, htakes⟩
      obtain ⟨text', rfl⟩ := hother value htakes
      obtain rfl : text = text' := InputValue.string.inj hraw
      obtain ⟨-, hsafe, hallowed, hbucket⟩ := htakes
      exact ⟨text, hsafe, hallowed, by simpa using hbucket, rfl⟩
  | _ =>
    constructor
    · intro h
      cases h
    · rintro ⟨hraw, htakes⟩
      obtain ⟨text, rfl⟩ := hother value htakes
      cases hraw

theorem validateValue_ok {raw : InputValue} {value : JsonPrimitive} :
    field.validateValue raw = .ok value ↔ raw = .ofPrimitive value ∧ field.Takes value := by
  unfold validateValue
  split
  · cases value <;> simp [InputValue.ofPrimitive, Takes]
  · rename_i htype
    cases value <;> simp [Takes, htype]
  · rename_i n htype
    simp only [bind_ok, raiseIf_ok, exists_const, not_not, pure_ok]
    constructor
    · rintro ⟨hbounds, rfl⟩
      exact ⟨rfl, htype, hbounds⟩
    · rintro ⟨hraw, htakes⟩
      cases value with
      | int n' =>
        obtain rfl : n = n' := InputValue.int.inj hraw
        exact ⟨htakes.2, rfl⟩
      | _ => cases hraw
  · rename_i hnull hint htype
    cases value with
    | int n => exact iff_of_false (fun h => by cases h) fun h => hint n h.1
    | _ => simp [Takes, htype]
  · rename_i b htype
    constructor
    · intro h
      obtain rfl := pure_ok.mp h
      exact ⟨rfl, htype⟩
    · rintro ⟨hraw, htakes⟩
      cases value with
      | bool b' =>
        obtain rfl : b = b' := InputValue.bool.inj hraw
        rfl
      | _ => cases hraw
  · rename_i hnull hbool htype
    cases value with
    | bool b => exact iff_of_false (fun h => by cases h) fun h => hbool b h.1
    | _ => simp [Takes, htype]
  · exact validateEnum_ok ‹_›

/-- What a field gives, it takes again. -/
theorem validateValue_ofPrimitive {raw : InputValue} {value : JsonPrimitive}
    (h : field.validateValue raw = .ok value) :
    field.validateValue (.ofPrimitive value) = .ok value :=
  validateValue_ok.mpr ⟨rfl, (validateValue_ok.mp h).2⟩

/-- A field without an allow-list that takes strings is about the size bucket. -/
theorem validate_enum (h : field.validate lower = .ok ()) (htype : field.valueType? = some .enum)
    (hnone : field.allowedValues = []) : field.source = sizeBucket := by
  simp only [validate, consistentType, bind_ok, raiseIf_ok, require_ok, exists_const] at h
  obtain ⟨_, -, _, -, _, -, type, htype', -, henum, -⟩ := h
  obtain rfl : type = .enum := Option.some.inj (htype'.symm.trans htype)
  by_contra hsource
  exact henum ⟨rfl, fun h => h.elim (· hnone) hsource⟩

theorem validate_name (h : field.validate lower = .ok ()) :
    ∃ name, safeName lower "quote disclosure name" field.name = .ok name := by
  simp only [validate, safeOutputName, bind_ok] at h
  obtain ⟨_, -, _, ⟨_, -, name, hname, -⟩, -⟩ := h
  exact ⟨name, hname⟩

theorem Takes.string {text : String} (h : field.validate lower = .ok ())
    (htakes : field.Takes (.string text)) :
    text ∈ field.allowedValues ∨ field.source = sizeBucket ∧ wellFormedBucket text := by
  obtain ⟨htype, -, hallowed, hbucket⟩ := htakes
  by_cases hnone : field.allowedValues = []
  · have hsource := validate_enum h htype hnone
    exact .inr ⟨hsource, hbucket hsource⟩
  · exact .inl (hallowed hnone)

variable {input input' : List (String × InputValue)} {features features' : ActionFeatures}

theorem disclose_congr
    (h : field.selected input features = field.selected input' features') :
    field.disclose input features = field.disclose input' features' := by
  unfold disclose
  rw [h]

theorem disclose_required {value : Option JsonPrimitive} (hrequired : field.required)
    (h : field.disclose input features = .ok value) : value.isSome := by
  unfold disclose at h
  split at h
  · rw [if_pos hrequired] at h
    cases h
  · rw [if_pos hrequired] at h
    cases h
  · obtain ⟨given, -, rfl⟩ := map_ok.mp h
    rfl

theorem disclose_some {value : JsonPrimitive}
    (h : field.disclose input features = .ok (some value)) :
    ∃ raw, field.validateValue raw = .ok value := by
  unfold disclose at h
  split at h
  · split_ifs at h
    cases h
  · split_ifs at h
    cases h
  · obtain ⟨given, hgiven, heq⟩ := map_ok.mp h
    exact ⟨_, Option.some.inj heq ▸ hgiven⟩

end DisclosureField

/-! ## What is disclosed -/

section Producer

variable {input input' : List (String × InputValue)} {features features' : ActionFeatures}
  {fields : List DisclosureField} {values : List (String × JsonPrimitive)}

theorem discloseFields_cons {field : DisclosureField}
    (h : discloseFields input features (field :: fields) = .ok values) :
    ∃ value rest, field.disclose input features = .ok value ∧
      discloseFields input features fields = .ok rest ∧
      values = (value.map fun value => (field.name, value)).toList ++ rest := by
  simp only [discloseFields, bind_ok, pure_ok] at h
  obtain ⟨value, hvalue, rest, hrest, rfl⟩ := h
  exact ⟨value, rest, hvalue, hrest, rfl⟩

theorem mem_discloseFields {entry : String × JsonPrimitive}
    (h : discloseFields input features fields = .ok values) (hentry : entry ∈ values) :
    ∃ field ∈ fields, field.name = entry.1 ∧
      field.disclose input features = .ok (some entry.2) := by
  induction fields generalizing values with
  | nil =>
    obtain rfl : [] = values := pure_ok.mp h
    cases hentry
  | cons field fields ih =>
    obtain ⟨value, rest, hvalue, hrest, rfl⟩ := discloseFields_cons h
    rcases List.mem_append.mp hentry with hhead | htail
    · cases value with
      | none => cases hhead
      | some value =>
        obtain rfl : entry = (field.name, value) := by simpa using hhead
        exact ⟨field, List.mem_cons_self, rfl, hvalue⟩
    · obtain ⟨found, hfound, hgives⟩ := ih hrest htail
      exact ⟨found, List.mem_cons_of_mem _ hfound, hgives⟩

theorem required_mem_names {field : DisclosureField} (hrequired : field.required)
    (hfield : field ∈ fields) (h : discloseFields input features fields = .ok values) :
    field.name ∈ values.map (·.1) := by
  induction fields generalizing values with
  | nil => cases hfield
  | cons head fields ih =>
    obtain ⟨value, rest, hvalue, hrest, rfl⟩ := discloseFields_cons h
    rw [List.map_append, List.mem_append]
    rcases List.mem_cons.mp hfield with rfl | hfield
    · obtain ⟨given, rfl⟩ :=
        Option.isSome_iff_exists.mp (DisclosureField.disclose_required hrequired hvalue)
      exact .inl (List.mem_singleton_self _)
    · exact .inr (ih hfield hrest)

theorem discloseFields_congr
    (h : ∀ field ∈ fields, field.selected input features = field.selected input' features') :
    discloseFields input features fields = discloseFields input' features' fields := by
  induction fields with
  | nil => rfl
  | cons field fields ih =>
    rw [List.forall_mem_cons] at h
    unfold discloseFields
    rw [DisclosureField.disclose_congr h.1, ih h.2]

end Producer

section Policies

variable {lower : String → String} {policy : DisclosurePolicy lower}
  {input : List (String × InputValue)} {features : ActionFeatures}
  {values : List (String × JsonPrimitive)}

theorem DisclosurePolicy.find_name {field : DisclosureField} (h : field ∈ policy.fields) :
    policy.fields.find? (·.name = field.name) = some field := by
  cases hfind : policy.fields.find? (·.name = field.name) with
  | none => simpa using List.find?_eq_none.mp hfind field h
  | some found =>
    have hname : found.name = field.name := by simpa using List.find?_some hfind
    have hmem := List.mem_of_find?_eq_some hfind
    rw [List.inj_on_of_nodup_map policy.distinct hmem h hname]

theorem discloseQuoteFeatures_ok :
    discloseQuoteFeatures policy input features = .ok values ↔
      discloseFields input features policy.fields = .ok values ∧
        encodedSize values ≤ policy.maximumEncodedBytes := by
  simp only [discloseQuoteFeatures, bind_ok, raiseIf_ok, pure_ok, exists_const, not_lt]
  constructor
  · rintro ⟨disclosed, hdisclosed, hsize, rfl⟩
    exact ⟨hdisclosed, hsize⟩
  · rintro ⟨hdisclosed, hsize⟩
    exact ⟨values, hdisclosed, hsize, rfl⟩

theorem checkDisclosed_of_mem {field : DisclosureField} {raw : InputValue}
    {entry : String × JsonPrimitive} (hfield : field ∈ policy.fields)
    (hname : field.name = entry.1) (h : field.validateValue raw = .ok entry.2) :
    checkDisclosed policy entry = .ok () := by
  obtain ⟨name, hsafe⟩ := DisclosureField.validate_name (policy.valid field hfield)
  have hfound := DisclosurePolicy.find_name hfield
  rw [hname] at hsafe hfound
  unfold checkDisclosed
  rw [hsafe, hfound]
  simp only [bind_ok]
  exact ⟨name, rfl, field, rfl, entry.2, DisclosureField.validateValue_ofPrimitive h, rfl⟩

theorem validateDisclosedQuoteFeatures_of_disclosed
    (h : discloseQuoteFeatures policy input features = .ok values) :
    validateDisclosedQuoteFeatures values (some policy) = .ok () := by
  obtain ⟨hdisclosed, hsize⟩ := discloseQuoteFeatures_ok.mp h
  simp only [validateDisclosedQuoteFeatures, bind_ok, raiseIf_ok, forM_ok, exists_const, not_lt]
  refine ⟨?_, fun entry hentry => ?_, hsize⟩
  · rintro ⟨field, hfield, hrequired, hmissing⟩
    exact hmissing (required_mem_names hrequired hfield hdisclosed)
  · obtain ⟨field, hfield, hname, hgives⟩ := mem_discloseFields hdisclosed hentry
    obtain ⟨raw, hraw⟩ := DisclosureField.disclose_some hgives
    exact checkDisclosed_of_mem hfield hname hraw

/-- The check passes what is disclosed, two actions that agree at the selected sources have the
same disclosed or fail alike, and what is disclosed has configured names and bounded strings. -/
theorem disclosed_admitted (lower : String → String) (policy : DisclosurePolicy lower)
    (input : List (String × InputValue)) (features : ActionFeatures) :
    (∀ values, discloseQuoteFeatures policy input features = .ok values →
        validateDisclosedQuoteFeatures values (some policy) = .ok ()) ∧
      (∀ input' features',
        (∀ field ∈ policy.fields,
          field.selected input features = field.selected input' features') →
        discloseQuoteFeatures policy input features =
          discloseQuoteFeatures policy input' features') ∧
      ∀ values, discloseQuoteFeatures policy input features = .ok values →
        ∀ entry ∈ values, ∃ field ∈ policy.fields, field.name = entry.1 ∧
          ∀ text, entry.2 = .string text →
            text ∈ field.allowedValues ∨ field.source = sizeBucket ∧ wellFormedBucket text := by
  refine ⟨fun values => validateDisclosedQuoteFeatures_of_disclosed, fun input' features' h => ?_,
    fun values h entry hentry => ?_⟩
  · unfold discloseQuoteFeatures
    rw [discloseFields_congr h]
  · obtain ⟨hdisclosed, -⟩ := discloseQuoteFeatures_ok.mp h
    obtain ⟨field, hfield, hname, hgives⟩ := mem_discloseFields hdisclosed hentry
    refine ⟨field, hfield, hname, fun text htext => ?_⟩
    obtain ⟨raw, hraw⟩ := DisclosureField.disclose_some hgives
    rw [htext] at hraw
    exact (DisclosureField.validateValue_ok.mp hraw).2.string (policy.valid field hfield)

end Policies

/-! ## A policy of two fields -/

def asciiLower (text : String) : String := String.ofList (text.toList.map Char.toLower)

def qualityFields : List DisclosureField :=
  [⟨⟨.actionInput, "quality"⟩, "quality", some .enum, ["draft", "final"], none, none, true⟩,
    ⟨sizeBucket, "size_bucket", none, [], none, none, false⟩]

theorem qualityFields_valid : ∀ field ∈ qualityFields, field.validate asciiLower = .ok () := by
  decide +kernel

theorem qualityFields_bounds : 2 ≤ 4096 ∧ 4096 ≤ 65536 := by decide

theorem qualityFields_few : qualityFields.length ≤ 64 := by decide

theorem qualityFields_distinct : (qualityFields.map (·.name)).Nodup := by decide

def qualityPolicy : DisclosurePolicy asciiLower :=
  ⟨qualityFields, 4096, qualityFields_valid, qualityFields_bounds, qualityFields_few,
    qualityFields_distinct⟩

def draftFeatures : ActionFeatures := ⟨900, 2, 700, 3, "2^10"⟩

/-- Both values pass the check, and do not depend on the document. -/
theorem disclosed_admitted_of_quality :
    let disclosed := [("quality", .string "draft"), ("size_bucket", .string "2^10")]
    validateDisclosedQuoteFeatures disclosed (some qualityPolicy) = .ok () ∧
      discloseQuoteFeatures qualityPolicy
        [("document", .string "a letter"), ("quality", .string "draft")] draftFeatures =
      discloseQuoteFeatures qualityPolicy
        [("quality", .string "draft"), ("document", .list [.null])] draftFeatures := by
  have h := disclosed_admitted asciiLower qualityPolicy
    [("document", .string "a letter"), ("quality", .string "draft")] draftFeatures
  refine ⟨h.1 _ (by decide +kernel), h.2.1 _ _ fun field hfield => ?_⟩
  rcases List.mem_pair.mp hfield with rfl | rfl
  · rfl
  · rfl

end AeepRouter.Disclosure

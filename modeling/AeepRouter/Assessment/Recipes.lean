import AeepRouter.Assessment.Reporting
import AeepRouter.Lib.Patterns

/-!
# Reviewed recipes of records

A recipe has a format string for each of its variations. `generateReviewedCase` renders one of them
with values that are drawn, `referenceRecordTemplate` reads the record back from the text alone, and
`recipeFeatures` tells the variation: both go through the templates in their order and stop at the
first that fits.
-/

namespace AeepRouter.Recipes

open Lib Benchmark

/-! ## Format strings -/

structure Replacement where
  fieldName : List Char
  formatSpec : List Char
  conversion : Option Char
  deriving DecidableEq, Repr

/-- What the iteration over a format string yields. -/
structure Markup where
  literal : List Char
  field : Option Replacement
  deriving DecidableEq, Repr

def opening : Char := '\x7b'

def closing : Char := '\x7d'

/-- The name of a field, the character that ends it and the rest; brackets hide such a character. -/
def fieldName : Bool → List Char → Result (List Char × Char × List Char)
  | _, [] => .error (.value "expected '\x7d' before end of string")
  | true, c :: rest =>
    (fieldName (c ≠ ']') rest).map fun (name, stop, more) => (c :: name, stop, more)
  | false, c :: rest =>
    if c = opening then .error (.value "unexpected '\x7b' in field name")
    else if c ∈ [closing, ':', '!'] then .ok ([], c, rest)
    else (fieldName (c = '[') rest).map fun (name, stop, more) => (c :: name, stop, more)

/-- A format specification to the brace that closes it, under so many that are open. -/
def formatSpec : ℕ → List Char → Result (List Char × List Char)
  | _, [] => .error (.value "unmatched '\x7b' in format spec")
  | depth, c :: rest =>
    if c = closing ∧ depth = 0 then .ok ([], rest)
    else
      (formatSpec (if c = opening then depth + 1 else if c = closing then depth - 1 else depth)
        rest).map fun (spec, more) => (c :: spec, more)

/-- The conversion of a field, of which a NUL is none. -/
def conversionOf (c : Char) : Option Char := if c.toNat = 0 then none else some c

/-- A field after its opening brace. -/
def parseField (text : List Char) : Result (Replacement × List Char) := do
  let (name, stop, more) ← fieldName false text
  if stop = closing then pure (⟨name, [], none⟩, more)
  else if stop = ':' then do
    let (spec, more) ← formatSpec 0 more
    pure (⟨name, spec, none⟩, more)
  else match more with
    | [] => .error (.value "end of string while looking for conversion specifier")
    | [_] => .error (.value "unmatched '\x7b' in format spec")
    | conversion :: c :: more =>
      if c = closing then pure (⟨name, [], conversionOf conversion⟩, more)
      else if c = ':' then do
        let (spec, more) ← formatSpec 0 more
        pure (⟨name, spec, conversionOf conversion⟩, more)
      else .error (.value "expected ':' after conversion specifier")

def isPlain (c : Char) : Bool := c ≠ opening ∧ c ≠ closing

/-- A literal to the next brace, with the brace where it is doubled and with the field after it where
it opens one. -/
def nextMarkup (text : List Char) : Result (Markup × List Char) :=
  let literal := text.takeWhile isPlain
  match text.dropWhile isPlain with
  | [] => .ok (⟨literal, none⟩, [])
  | [brace] =>
    if brace = closing then .error (.value "Single '\x7d' encountered in format string")
    else .error (.value "Single '\x7b' encountered in format string")
  | brace :: next :: rest =>
    if next = brace then .ok (⟨literal ++ [brace], none⟩, rest)
    else if brace = closing then .error (.value "Single '\x7d' encountered in format string")
    else (parseField (next :: rest)).map fun (field, more) => (⟨literal, some field⟩, more)

/-- What is yielded, and how the iteration ends; every turn reads a character. -/
def markups : ℕ → List Char → List Markup × Result Unit
  | _, [] => ([], .ok ())
  | 0, _ :: _ => ([], .error .fault)
  | fuel + 1, text =>
    match nextMarkup text with
    | .error err => ([], .error err)
    | .ok (markup, rest) => (markup :: (markups fuel rest).1, (markups fuel rest).2)

/-- `string.Formatter().parse`. -/
def parse (template : String) : List Markup × Result Unit :=
  markups template.length template.toList

def Markup.segment (markup : Markup) : Segment Char String :=
  ⟨markup.literal, markup.field.map fun field => String.ofList field.fieldName⟩

/-- The literals and fields of a format string. -/
def pieces (template : String) : List (Segment Char String) :=
  (parse template).1.map Markup.segment

def segments (template : String) : Result (List (Segment Char String)) := do
  (parse template).2
  pure (pieces template)

/-! ## Values -/

def hexDigit (d : ℕ) : Char := if d < 10 then Char.ofNat (48 + d) else Char.ofNat (87 + d)

def hexText : ℕ → ℕ → List Char
  | 0, _ => []
  | width + 1, n => hexText width (n / 16) ++ [hexDigit (n % 16)]

def valueText (n : ℕ) : List Char := "value-".toList ++ hexText 24 n

/-- `[a-f0-9]`. -/
def isHex (c : Char) : Bool := 'a' ≤ c ∧ c ≤ 'f' ∨ '0' ≤ c ∧ c ≤ '9'

def isValue (text : List Char) : Bool :=
  text.take 6 = "value-".toList ∧ text.length = 30 ∧ (text.drop 6).all isHex

theorem length_of_isValue (text : List Char) (h : isValue text = true) : text.length = 30 :=
  (of_decide_eq_true h).2.1

def valueToken : Token Char := ⟨30, isValue, length_of_isValue⟩

/-! ## Recipes -/

/-- What is no list, no dict or no string is `none`. -/
structure GeneratorConfig where
  fields : Option (List (Option String))
  templates : Option (List (String × Option String))
  templates_nodup : ∀ entries, templates = some entries → (entries.map Prod.fst).Nodup

structure ReviewedRecipe extends Reporting.RecipeDefinition where
  recipeId : String
  capability : String
  generator : String
  grader : String
  generatorConfig : GeneratorConfig
  variations_ne : variations ≠ []

/-- A case with its input text and the record its validator expects. -/
structure ReviewedCase extends BenchmarkCase where
  capability : String
  text : List Char
  expected : List (String × List Char)
  deriving DecidableEq

/-- The 96 bits a generator with this seed draws, the n-th time. -/
abbrev Draws := String → ℕ → Fin (2 ^ 96)

section Generator

variable (isIdentifier : String → Bool) (draws : Draws)

def GeneratorConfig.reviewedFields (config : GeneratorConfig) : Option (List String) :=
  match config.fields.bind fun items => items.mapM id with
  | some fields =>
    if 1 ≤ fields.length ∧ fields.length ≤ 100 ∧ fields.all isIdentifier ∧ fields.Nodup then
      some fields
    else none
  | none => none

def ReviewedRecipe.reviewedTemplates (recipe : ReviewedRecipe) :
    Option (List (String × Option String)) :=
  recipe.generatorConfig.templates.filter fun entries =>
    (∀ variation ∈ recipe.variations, variation ∈ entries.map Prod.fst) ∧
      ∀ name ∈ entries.map Prod.fst, name ∈ recipe.variations

def ReviewedRecipe.variation (recipe : ReviewedRecipe) (index : ℤ) : String :=
  recipe.variations.getD (index % recipe.variations.length).toNat ""

def Replacement.refused (fields : List String) (field : Replacement) : Bool :=
  String.ofList field.fieldName ∉ fields ∨ field.formatSpec ≠ [] ∨ field.conversion ≠ none

def checkTemplate (fields : List String) (template : String) : Result Unit := do
  (parse template).1.forM fun markup =>
    refuseIf (markup.field.any (Replacement.refused fields))
      "templates support literal field replacement only"
  (parse template).2

def ReviewedRecipe.caseId (recipe : ReviewedRecipe) (index : ℤ) (split : BenchmarkSplit) : String :=
  split.value ++ "-" ++ recipe.variation index ++ "-" ++ toString index

def seedText (index seed : ℤ) (split : BenchmarkSplit) : String :=
  toString seed ++ ":" ++ split.value ++ ":" ++ toString index

/-- A value drawn for every field, in order. -/
def drawRecord (fields : List String) (seed : String) : List (String × List Char) :=
  fields.zipIdx.map fun (field, n) => (field, valueText (draws seed n))

def valueOf (record : List (String × List Char)) (name : String) : List Char :=
  (record.lookup name).getD []

def generateReviewedCase (recipe : ReviewedRecipe) (index seed : ℤ) (split : BenchmarkSplit) :
    Result ReviewedCase := do
  refuseIf (recipe.generator ≠ "record_template:1" ∨ recipe.grader ≠ "exact_match:1")
    "a controlled generator adapter is required for this definition"
  let fields ← demand (recipe.generatorConfig.reviewedFields isIdentifier)
    "reviewed record fields must be unique identifiers"
  let templates ← demand recipe.reviewedTemplates
    "every reviewed variation requires a literal template"
  let variation := recipe.variation index
  let template ← demand ((templates.lookup variation).join.filter fun text => text.length ≤ 10000)
    "reviewed template exceeds its format limit"
  checkTemplate fields template
  let record := drawRecord draws fields (seedText index seed split)
  raiseIf (¬ (1 ≤ recipe.capability.length ∧ recipe.capability.length ≤ 200))
    (.value "capability should have 1 to 200 characters")
  raiseIf (200 < (recipe.caseId index split).length)
    (.value "case_id should have at most 200 characters")
  pure
    { caseId := recipe.caseId index split
      variation := some variation
      templateFamily := some (recipe.recipeId ++ ":" ++ variation)
      split := split
      capability := recipe.capability
      text := render (valueOf record) (pieces template)
      expected := record }

end Generator

/-! ## Recognition -/

/-- What the first template makes of a text that makes anything of it. -/
def firstMatch {β : Type} (attempt : String → List (Segment Char String) → Option β) :
    List (String × Option String) → Result (Option β)
  | [] => .ok none
  | (_, none) :: _ => .error .fault
  | (name, some template) :: rest => do
    let segments ← segments template
    match attempt name segments with
    | some found => pure (some found)
    | none => firstMatch attempt rest

inductive RecordOutput where
  | record (fields : List (String × List Char))
  | invalidInput
  deriving DecidableEq

def readRecord (text : List Char) (_ : String) (segments : List (Segment Char String)) :
    Option RecordOutput :=
  (fullmatch valueToken (named [] segments) [] text).map .record

def referenceRecordTemplate (recipe : ReviewedRecipe) (text : List Char) : Result RecordOutput :=
  match recipe.generatorConfig.templates with
  | some templates => (firstMatch (readRecord text) templates).map (·.getD .invalidInput)
  | none => .error .fault

/-- The bytes of a character in a JSON string that keeps what is not ASCII. -/
def encodedChar (c : Char) : ℕ :=
  if c = '"' ∨ c = '\\' ∨ c.toNat ∈ [8, 9, 10, 12, 13] then 2
  else if c.toNat < 32 then 6
  else c.utf8Size

/-- The bytes of the JSON object with the text. -/
def encodedSize (text : List Char) : ℕ := 12 + (text.map encodedChar).sum

structure RecipeFeatures where
  family : String
  size : String
  variation : String
  deriving DecidableEq, Repr

def featuresOf (text : List Char) (variation : String) : RecipeFeatures where
  family := "record_template"
  size := if encodedSize text ≤ 4096 then "small" else "large"
  variation := variation

def tellVariation (text : List Char) (variation : String) (segments : List (Segment Char String)) :
    Option RecipeFeatures :=
  (fullmatch valueToken (loose segments) [] text).map fun _ => featuresOf text variation

def recipeFeatures (recipe : ReviewedRecipe) (text : List Char) : Result (Option RecipeFeatures) :=
  if 100000 < encodedSize text then .ok none
  else match recipe.generatorConfig.templates with
    | some templates => firstMatch (tellVariation text) templates
    | none => .error .fault

/-! ## Drawn values -/

theorem hexText_length (width n : ℕ) : (hexText width n).length = width := by
  induction width generalizing n with
  | zero => rfl
  | succ width ih => rw [hexText, List.length_append, ih, List.length_singleton]

theorem isHex_hexDigit {d : ℕ} (h : d < 16) : isHex (hexDigit d) = true := by
  interval_cases d <;> decide

theorem isHex_of_mem_hexText {width n : ℕ} {c : Char} (h : c ∈ hexText width n) :
    isHex c = true := by
  induction width generalizing n with
  | zero => simp [hexText] at h
  | succ width ih =>
    rw [hexText, List.mem_append, List.mem_singleton] at h
    rcases h with h | rfl
    · exact ih h
    · exact isHex_hexDigit (Nat.mod_lt n (by norm_num))

theorem isValue_valueText (n : ℕ) : isValue (valueText n) = true := by
  have hlength : "value-".toList.length = 6 := by decide
  refine decide_eq_true ⟨?_, ?_, ?_⟩
  · rw [valueText, ← hlength, List.take_left]
  · rw [valueText, List.length_append, hexText_length, hlength]
  · rw [valueText, ← hlength, List.drop_left, List.all_eq_true]
    exact fun c hc => isHex_of_mem_hexText hc

/-- Two dicts with the same keys and values. -/
def SameRecord (a b : List (String × List Char)) : Prop := ∀ name, a.lookup name = b.lookup name

theorem lookup_map {values : String → List Char} {keys : List String} {name : String} :
    (keys.map fun key => (key, values key)).lookup name =
      if name ∈ keys then some (values name) else none := by
  induction keys with
  | nil => rfl
  | cons key keys ih =>
    rw [List.map_cons, List.lookup_cons, ih]
    by_cases h : name = key
    · simp [h]
    · have hbeq : (name == key) = false := beq_false_of_ne h
      simp [h, hbeq]

section Record

variable {draws : Draws} {fields : List String} {seed : String} {name : String}

theorem map_fst_drawRecord : (drawRecord draws fields seed).map Prod.fst = fields := by
  rw [drawRecord, List.map_map]
  exact List.zipIdx_map_fst 0 fields

theorem drawRecord_lookup : (drawRecord draws fields seed).lookup name ≠ none ↔ name ∈ fields := by
  have hmem : name ∈ fields ↔ name ∈ (drawRecord draws fields seed).map Prod.fst := by
    rw [map_fst_drawRecord]
  rw [hmem, ne_eq, List.lookup_eq_none_iff]
  simp

theorem isValue_drawRecord (h : name ∈ fields) :
    isValue (valueOf (drawRecord draws fields seed) name) = true := by
  have hdrawn : (drawRecord draws fields seed).lookup name ≠ none := drawRecord_lookup.mpr h
  obtain ⟨value, hvalue⟩ := Option.ne_none_iff_exists'.mp hdrawn
  rw [valueOf, hvalue, Option.getD_some]
  obtain ⟨before, after, hentry, -⟩ := List.lookup_eq_some_iff.mp hvalue
  have hmem : (name, value) ∈ drawRecord draws fields seed := by
    rw [hentry]
    exact List.mem_append_right before List.mem_cons_self
  obtain ⟨drawn, -, heq⟩ := List.mem_map.mp hmem
  rw [← (Prod.mk.inj heq).2]
  exact isValue_valueText _

end Record

/-! ## Accepted recipes -/

structure Accepted (recipe : ReviewedRecipe) (fields : List String)
    (templates : List (String × Option String)) : Prop where
  templates_eq : recipe.generatorConfig.templates = some templates
  literal : ∀ entry ∈ templates, ∃ template, entry.2 = some template ∧
    (parse template).2 = .ok () ∧ ∀ name ∈ names (pieces template), name ∈ fields

variable {isIdentifier : String → Bool} {draws : Draws} {recipe : ReviewedRecipe} {index seed : ℤ}
  {split : BenchmarkSplit} {case : ReviewedCase}

theorem checkTemplate_ok {fields : List String} {template : String}
    (h : checkTemplate fields template = .ok ()) :
    (parse template).2 = .ok () ∧ ∀ name ∈ names (pieces template), name ∈ fields := by
  unfold checkTemplate at h
  simp only [bind_ok, exists_const, forM_ok, raiseIf_ok] at h
  refine ⟨h.2, fun name hname => ?_⟩
  obtain ⟨piece, hpiece, hfield⟩ := List.mem_filterMap.mp hname
  obtain ⟨markup, hmarkup, rfl⟩ := List.mem_map.mp hpiece
  obtain ⟨field, hsome, rfl⟩ := Option.map_eq_some_iff.mp hfield
  have hnot := h.1 markup hmarkup
  rw [hsome] at hnot
  by_contra hmem
  exact hnot (decide_eq_true (.inl hmem))

theorem generate_ok (h : generateReviewedCase isIdentifier draws recipe index seed split = .ok case) :
    ∃ fields templates template, recipe.generatorConfig.reviewedFields isIdentifier = some fields ∧
      recipe.reviewedTemplates = some templates ∧
      templates.lookup (recipe.variation index) = some (some template) ∧
      checkTemplate fields template = .ok () ∧ case.variation = some (recipe.variation index) ∧
      case.expected = drawRecord draws fields (seedText index seed split) ∧
      case.text = render (valueOf case.expected) (pieces template) := by
  simp only [generateReviewedCase, bind_ok, pure_ok, require_ok, raiseIf_ok, exists_const] at h
  obtain ⟨-, fields, hfields, templates, htemplates, template, htemplate, _, hcheck, -, -, rfl⟩ := h
  obtain ⟨hjoin, -⟩ := Option.filter_eq_some_iff.mp htemplate
  exact ⟨fields, templates, template, hfields, htemplates, Option.join_eq_some_iff.mp hjoin, hcheck,
    rfl, rfl, rfl⟩

theorem exists_index {variation : String} (h : variation ∈ recipe.variations) :
    ∃ n : ℕ, n < recipe.variations.length ∧ recipe.variation n = variation := by
  obtain ⟨n, hn, rfl⟩ := List.mem_iff_getElem.mp h
  refine ⟨n, hn, ?_⟩
  have hmod : ((n : ℤ) % recipe.variations.length).toNat = n := by
    rw [Int.emod_eq_of_lt (by omega) (by omega)]
    exact Int.toNat_natCast n
  rw [ReviewedRecipe.variation, hmod, List.getD_eq_getElem?_getD, List.getElem?_eq_getElem hn,
    Option.getD_some]

theorem accepted_of_forall {fields : List String} {templates : List (String × Option String)}
    (haccepts : ∀ n : ℕ, n < recipe.variations.length → ∃ case,
      generateReviewedCase isIdentifier draws recipe n seed split = .ok case)
    (hfields : recipe.generatorConfig.reviewedFields isIdentifier = some fields)
    (htemplates : recipe.reviewedTemplates = some templates) : Accepted recipe fields templates := by
  obtain ⟨htemplates', hkeys⟩ := Option.filter_eq_some_iff.mp htemplates
  refine ⟨htemplates', fun entry hentry => ?_⟩
  have hvariation := (of_decide_eq_true hkeys).2 entry.1 (List.mem_map_of_mem hentry)
  obtain ⟨n, hn, hindex⟩ := exists_index hvariation
  obtain ⟨case, hcase⟩ := haccepts n hn
  obtain ⟨fields', templates', template, hfields', htemplates'', hlookup, hcheck, -⟩ :=
    generate_ok hcase
  obtain rfl := Option.some_inj.mp (hfields.symm.trans hfields')
  obtain rfl := Option.some_inj.mp (htemplates.symm.trans htemplates'')
  refine ⟨template, ?_, checkTemplate_ok hcheck⟩
  have hnodup := recipe.generatorConfig.templates_nodup templates htemplates'
  obtain ⟨before, after, heq, -⟩ := List.lookup_eq_some_iff.mp hlookup
  have hmem : (entry.1, some template) ∈ templates := by
    rw [heq, hindex]
    exact List.mem_append_right before List.mem_cons_self
  exact congrArg Prod.snd (List.inj_on_of_nodup_map hnodup hentry hmem rfl)

/-! ## What the templates make of a text -/

/-- Some values put into the template give the text. -/
def CanRender (text : List Char) (template : String) : Prop :=
  ∃ values, (∀ name ∈ names (pieces template), isValue (values name) = true) ∧
    render values (pieces template) = text

/-- Some values give the text, one for each place of a field. -/
def CanFill (text : List Char) (template : String) : Prop := Filled valueToken (pieces template) text

def FirstFit (fits : String → Prop) (templates : List (String × Option String))
    (name template : String) : Prop :=
  ∃ before after, templates = before ++ (name, some template) :: after ∧
    (∀ entry ∈ before, ∀ other, entry.2 = some other → ¬ fits other) ∧ fits template

theorem CanRender.canFill {text : List Char} {template : String} (h : CanRender text template) :
    CanFill text template := by
  obtain ⟨values, hvalid, rfl⟩ := h
  exact filled_render hvalid

theorem segments_eq {template : String} (h : (parse template).2 = .ok ()) :
    segments template = .ok (pieces template) := by
  rw [segments, h]
  rfl

theorem firstFit_unique {fits : String → Prop} {templates : List (String × Option String)}
    {name template other otherTemplate : String} (h : FirstFit fits templates name template)
    (h' : FirstFit fits templates other otherTemplate) : name = other ∧ template = otherTemplate := by
  obtain ⟨before, after, rfl, hbefore, hfits⟩ := h
  obtain ⟨before', after', heq, hbefore', hfits'⟩ := h'
  induction before generalizing before' with
  | nil =>
    cases before' with
    | nil => simpa using (List.cons.inj heq).1
    | cons entry rest =>
      obtain ⟨rfl, -⟩ := List.cons.inj heq
      exact absurd hfits (hbefore' _ List.mem_cons_self template rfl)
  | cons entry rest ih =>
    rw [List.forall_mem_cons] at hbefore
    cases before' with
    | nil =>
      obtain ⟨rfl, -⟩ := List.cons.inj heq
      exact absurd hfits' (hbefore.1 otherTemplate rfl)
    | cons entry' rest' =>
      rw [List.forall_mem_cons] at hbefore'
      exact ih hbefore.2 rest' (List.cons.inj heq).2 hbefore'.2

theorem firstMatch_spec {β : Type} {attempt : String → List (Segment Char String) → Option β}
    {fits : String → Prop} {fields : List String} {templates : List (String × Option String)}
    (hfits : ∀ name template, attempt name (pieces template) ≠ none ↔ fits template)
    (hliteral : ∀ entry ∈ templates, ∃ template, entry.2 = some template ∧
      (parse template).2 = .ok () ∧ ∀ name ∈ names (pieces template), name ∈ fields)
    (h : ∃ entry ∈ templates, ∃ template, entry.2 = some template ∧ fits template) :
    ∃ name template, FirstFit fits templates name template ∧
      firstMatch attempt templates = .ok (attempt name (pieces template)) := by
  induction templates with
  | nil =>
    obtain ⟨entry, hentry, -⟩ := h
    exact absurd hentry List.not_mem_nil
  | cons entry rest ih =>
    obtain ⟨name, option⟩ := entry
    obtain ⟨⟨template, rfl, hparse, -⟩, hrest⟩ := List.forall_mem_cons.mp hliteral
    have hstep : firstMatch attempt ((name, some template) :: rest) =
        match attempt name (pieces template) with
        | some found => .ok (some found)
        | none => firstMatch attempt rest := by
      rw [firstMatch, segments_eq hparse]
      rfl
    rw [hstep]
    cases hattempt : attempt name (pieces template) with
    | some found =>
      have hfit : fits template := (hfits name template).mp (by simp [hattempt])
      exact ⟨name, template, ⟨[], rest, rfl, by simp, hfit⟩, by rw [hattempt]⟩
    | none =>
      have hnot : ¬ fits template := fun hfit => (hfits name template).mpr hfit hattempt
      obtain ⟨found, hfound, other, hsome, hfit⟩ := h
      have hmem : found ∈ rest := by
        rcases List.mem_cons.mp hfound with rfl | hmem
        · obtain rfl := Option.some_inj.mp hsome
          exact absurd hfit hnot
        · exact hmem
      obtain ⟨name', template', ⟨before, after, heq, hbefore, hfit'⟩, hmatch⟩ :=
        ih hrest ⟨found, hmem, other, hsome, hfit⟩
      refine ⟨name', template', ⟨(name, some template) :: before, after, ?_, ?_, hfit'⟩, hmatch⟩
      · rw [heq, List.cons_append]
      · rw [List.forall_mem_cons]
        refine ⟨?_, hbefore⟩
        rintro _ ⟨⟩
        exact hnot

theorem readRecord_ne_none (text : List Char) (name template : String) :
    readRecord text name (pieces template) ≠ none ↔ CanRender text template := by
  rw [Option.ne_none_iff_exists']
  simp only [readRecord, Option.map_eq_some_iff, fullmatch_iff]
  constructor
  · rintro ⟨_, _, ⟨values, hvalid, hrender, -⟩, -⟩
    exact ⟨values, hvalid, hrender⟩
  · rintro ⟨values, hvalid, hrender⟩
    exact ⟨_, _, ⟨values, hvalid, hrender, rfl⟩, rfl⟩

theorem tellVariation_ne_none (text : List Char) (name template : String) :
    tellVariation text name (pieces template) ≠ none ↔ CanFill text template := by
  rw [Option.ne_none_iff_exists']
  simp only [tellVariation, Option.map_eq_some_iff, fullmatch_loose_iff]
  constructor
  · rintro ⟨_, _, ⟨-, hfilled⟩, -⟩
    exact hfilled
  · intro hfilled
    exact ⟨_, [], ⟨rfl, hfilled⟩, rfl⟩

theorem fullmatch_of_render {text : List Char} {template : String} {values : String → List Char}
    (hvalid : ∀ name ∈ names (pieces template), isValue (values name) = true)
    (hrender : render values (pieces template) = text) :
    fullmatch valueToken (named [] (pieces template)) [] text =
      some ((fresh [] (pieces template)).map fun name => (name, values name)) :=
  fullmatch_iff.mpr ⟨values, hvalid, hrender, rfl⟩

theorem sameRecord_iff {fields : List String} {template seed : String} {text : List Char}
    {values : String → List Char} (hnames : ∀ name ∈ names (pieces template), name ∈ fields)
    (hvalid : ∀ name ∈ names (pieces template), isValue (values name) = true)
    (hrender : render values (pieces template) = text) :
    SameRecord ((fresh [] (pieces template)).map fun name => (name, values name))
        (drawRecord draws fields seed) ↔
      (∀ field ∈ fields, field ∈ names (pieces template)) ∧
        render (valueOf (drawRecord draws fields seed)) (pieces template) = text := by
  have hfresh : ∀ name, name ∈ fresh [] (pieces template) ↔ name ∈ names (pieces template) := by
    intro name
    rw [mem_fresh]
    exact and_iff_left List.not_mem_nil
  unfold SameRecord
  simp only [lookup_map, hfresh]
  constructor
  · intro hsame
    have hvalues : ∀ name ∈ names (pieces template),
        valueOf (drawRecord draws fields seed) name = values name := by
      intro name hname
      rw [valueOf, ← hsame name, if_pos hname, Option.getD_some]
    refine ⟨fun field hfield => ?_, (render_congr hvalues).trans hrender⟩
    by_contra hmissing
    have hnone := hsame field
    rw [if_neg hmissing] at hnone
    exact drawRecord_lookup.mpr hfield hnone.symm
  · rintro ⟨hall, hdrawn⟩ name
    -- the text determines the values, so the drawn ones are those that were read
    have hread := fullmatch_of_render hvalid hrender
    have hread' := fullmatch_of_render (fun name hname => isValue_drawRecord (hnames name hname))
      hdrawn
    have hrecords := Option.some_inj.mp (hread.symm.trans hread')
    split_ifs with hname
    · have hsome : (drawRecord draws fields seed).lookup name ≠ none :=
        drawRecord_lookup.mpr (hnames name hname)
      obtain ⟨value, hvalue⟩ := Option.ne_none_iff_exists'.mp hsome
      have heq : values name = valueOf (drawRecord draws fields seed) name := by
        have := List.map_inj_left.mp hrecords name ((hfresh name).mpr hname)
        exact (Prod.mk.inj this).2
      rw [heq, valueOf, hvalue, Option.getD_some]
    · symm
      by_contra hsome
      exact hname (hall name (drawRecord_lookup.mp hsome))

theorem FirstFit.names_mem {fits : String → Prop} {fields : List String}
    {templates : List (String × Option String)} {name template : String}
    (h : FirstFit fits templates name template) (haccepted : Accepted recipe fields templates) :
    ∀ field ∈ names (pieces template), field ∈ fields := by
  obtain ⟨before, after, rfl, -, -⟩ := h
  obtain ⟨other, hother, -, hnames⟩ :=
    haccepted.literal (name, some template) (List.mem_append_right before List.mem_cons_self)
  obtain rfl := Option.some_inj.mp hother
  exact hnames

theorem reference_reads {fields : List String} {templates : List (String × Option String)}
    {text : List Char} {seed : String} (haccepted : Accepted recipe fields templates)
    (h : ∃ entry ∈ templates, ∃ template, entry.2 = some template ∧ CanRender text template) :
    ∃ name template record, FirstFit (CanRender text) templates name template ∧
      referenceRecordTemplate recipe text = .ok (.record record) ∧
      (∀ field, field ∈ record.map Prod.fst ↔ field ∈ names (pieces template)) ∧
      render (valueOf record) (pieces template) = text ∧
      (SameRecord record (drawRecord draws fields seed) ↔
        (∀ field ∈ fields, field ∈ names (pieces template)) ∧
          render (valueOf (drawRecord draws fields seed)) (pieces template) = text) := by
  obtain ⟨name, template, hfirst, hmatch⟩ :=
    firstMatch_spec (readRecord_ne_none text) haccepted.literal h
  have hnames := hfirst.names_mem haccepted
  obtain ⟨values, hvalid, hrender⟩ : CanRender text template := hfirst.choose_spec.choose_spec.2.2
  refine ⟨name, template, (fresh [] (pieces template)).map fun name => (name, values name), hfirst,
    ?_, fun field => ?_, ?_, sameRecord_iff hnames hvalid hrender⟩
  · rw [referenceRecordTemplate, haccepted.templates_eq]
    dsimp only
    rw [hmatch, readRecord, fullmatch_of_render hvalid hrender]
    rfl
  · rw [List.map_map]
    simp [mem_fresh]
  · rw [← hrender]
    refine render_congr fun field hfield => ?_
    rw [valueOf, lookup_map, if_pos (mem_fresh.mpr ⟨hfield, List.not_mem_nil⟩), Option.getD_some]

theorem features_tell {fields : List String} {templates : List (String × Option String)}
    {text : List Char} (haccepted : Accepted recipe fields templates)
    (h : ∃ entry ∈ templates, ∃ template, entry.2 = some template ∧ CanFill text template)
    (variation : String) :
    recipeFeatures recipe text = .ok (some (featuresOf text variation)) ↔
      encodedSize text ≤ 100000 ∧ ∃ template, FirstFit (CanFill text) templates variation template := by
  rw [recipeFeatures, haccepted.templates_eq]
  rcases Nat.lt_or_ge 100000 (encodedSize text) with hlong | hshort
  · rw [if_pos hlong]
    refine iff_of_false (by simp) fun h => ?_
    exact absurd h.1 (not_le.mpr hlong)
  · rw [if_neg (not_lt.mpr hshort)]
    obtain ⟨name, template, hfirst, hmatch⟩ :=
      firstMatch_spec (tellVariation_ne_none text) haccepted.literal h
    have hfills : CanFill text template := hfirst.choose_spec.choose_spec.2.2
    obtain ⟨features, hfeatures⟩ := Option.ne_none_iff_exists'.mp
      ((tellVariation_ne_none text name template).mpr hfills)
    dsimp only
    rw [hmatch, hfeatures, Except.ok.injEq, Option.some_inj]
    obtain ⟨_, -, rfl⟩ := Option.map_eq_some_iff.mp hfeatures
    constructor
    · intro heq
      obtain rfl := congrArg RecipeFeatures.variation heq
      exact ⟨hshort, template, hfirst⟩
    · rintro ⟨-, other, hother⟩
      rw [(firstFit_unique hfirst hother).1]

theorem generated_rendered (haccepts : ∀ n : ℕ, n < recipe.variations.length → ∃ case,
      generateReviewedCase isIdentifier draws recipe n seed split = .ok case)
    (hcase : generateReviewedCase isIdentifier draws recipe index seed split = .ok case) :
    ∃ fields templates own, recipe.generatorConfig.reviewedFields isIdentifier = some fields ∧
      Accepted recipe fields templates ∧ case.variation = some (recipe.variation index) ∧
      case.expected = drawRecord draws fields (seedText index seed split) ∧
      (recipe.variation index, some own) ∈ templates ∧ CanRender case.text own ∧
      case.text = render (valueOf case.expected) (pieces own) := by
  obtain ⟨fields, templates, own, hfields, htemplates, hlookup, hcheck, hvariation, hexpected, htext⟩ :=
    generate_ok hcase
  refine ⟨fields, templates, own, hfields, accepted_of_forall haccepts hfields htemplates, hvariation,
    hexpected, ?_, ⟨valueOf case.expected, fun name hname => ?_, htext.symm⟩, htext⟩
  · obtain ⟨before, after, heq, -⟩ := List.lookup_eq_some_iff.mp hlookup
    rw [heq]
    exact List.mem_append_right before List.mem_cons_self
  · rw [hexpected]
    exact isValue_drawRecord ((checkTemplate_ok hcheck).2 name hname)

/-- The reference gives what a generated case expects just when the first template that can render
the text names every field and renders it from the drawn record; else it gives the record this
template reads. The features tell the variation of the case just when its template is the first that
can be filled to give the text, and the text is not too long. -/
theorem reviewed_case_agrees (isIdentifier : String → Bool) (draws : Draws) (recipe : ReviewedRecipe)
    (seed : ℤ) (split : BenchmarkSplit)
    (haccepts : ∀ n : ℕ, n < recipe.variations.length → ∃ case,
      generateReviewedCase isIdentifier draws recipe n seed split = .ok case)
    (index : ℤ) (case : ReviewedCase)
    (hcase : generateReviewedCase isIdentifier draws recipe index seed split = .ok case) :
    ∃ fields templates, recipe.generatorConfig.reviewedFields isIdentifier = some fields ∧
      recipe.generatorConfig.templates = some templates ∧
      (∃ name template record, FirstFit (CanRender case.text) templates name template ∧
        referenceRecordTemplate recipe case.text = .ok (.record record) ∧
        (∀ field, field ∈ record.map Prod.fst ↔ field ∈ names (pieces template)) ∧
        render (valueOf record) (pieces template) = case.text ∧
        (SameRecord record case.expected ↔
          (∀ field ∈ fields, field ∈ names (pieces template)) ∧
            render (valueOf case.expected) (pieces template) = case.text)) ∧
      (∀ variation, case.variation = some variation →
        (recipeFeatures recipe case.text = .ok (some (featuresOf case.text variation)) ↔
          encodedSize case.text ≤ 100000 ∧
            ∃ template, FirstFit (CanFill case.text) templates variation template)) := by
  obtain ⟨fields, templates, own, hfields, haccepted, -, hexpected, hown, hcan, -⟩ :=
    generated_rendered haccepts hcase
  refine ⟨fields, templates, hfields, haccepted.templates_eq, ?_, fun variation _ => ?_⟩
  · rw [hexpected]
    exact reference_reads haccepted ⟨_, hown, own, rfl, hcan⟩
  · exact features_tell haccepted ⟨_, hown, own, rfl, hcan.canFill⟩ variation

/-! ## Templates that read each other's texts -/

def swappedTemplates : List (String × Option String) :=
  [("forward", some "\x7bid\x7d \x7bname\x7d"), ("reverse", some "\x7bname\x7d \x7bid\x7d")]

theorem swappedTemplates_nodup (entries : List (String × Option String))
    (h : some swappedTemplates = some entries) : (entries.map Prod.fst).Nodup := by
  obtain rfl := Option.some_inj.mp h
  decide

def swappedConfig : GeneratorConfig where
  fields := some [some "id", some "name"]
  templates := some swappedTemplates
  templates_nodup := swappedTemplates_nodup

/-- The same two values, in either order. -/
def swapped : ReviewedRecipe where
  variations := ["forward", "reverse"]
  recipeId := "swapped"
  capability := "example"
  generator := "record_template:1"
  grader := "exact_match:1"
  generatorConfig := swappedConfig
  variations_ne := List.cons_ne_nil _ _

def counting : Draws := fun _ n => Fin.ofNat (2 ^ 96) n

def isWord (name : String) : Bool := name.toList.all Char.isAlpha

theorem swapped_accepts (index seed : ℤ) (split : BenchmarkSplit)
    (hid : (swapped.caseId index split).length ≤ 200) :
    ∃ case, generateReviewedCase isWord counting swapped index seed split = .ok case := by
  have hfields : swapped.generatorConfig.reviewedFields isWord = some ["id", "name"] := by
    decide +kernel
  have htemplates : swapped.reviewedTemplates = some swappedTemplates := by decide +kernel
  have hvariation : swapped.variation index = "forward" ∨ swapped.variation index = "reverse" := by
    have hmod : index % (2 : ℕ) = 0 ∨ index % (2 : ℕ) = 1 := by omega
    rcases hmod with h | h
    · refine .inl ?_
      rw [ReviewedRecipe.variation]
      exact congrArg (fun n : ℤ => swapped.variations.getD n.toNat "") h
    · refine .inr ?_
      rw [ReviewedRecipe.variation]
      exact congrArg (fun n : ℤ => swapped.variations.getD n.toNat "") h
  have htemplate : ∃ template, ((swappedTemplates.lookup (swapped.variation index)).join.filter
      fun text => text.length ≤ 10000) = some template ∧
        checkTemplate ["id", "name"] template = .ok () := by
    rcases hvariation with h | h
    · rw [h]
      exact ⟨"\x7bid\x7d \x7bname\x7d", by decide +kernel, by decide +kernel⟩
    · rw [h]
      exact ⟨"\x7bname\x7d \x7bid\x7d", by decide +kernel, by decide +kernel⟩
  obtain ⟨template, htemplate, hcheck⟩ := htemplate
  simp only [generateReviewedCase, bind_ok, pure_ok, require_ok, raiseIf_ok, exists_const]
  exact ⟨_, by decide, _, hfields, _, htemplates, template, htemplate, (), hcheck,
    by decide +kernel, hid.not_gt, rfl⟩

theorem swapped_caseId (n : ℕ) (hn : n < swapped.variations.length) :
    (swapped.caseId n .holdout).length ≤ 200 := by
  have hlt : n < 2 := hn
  interval_cases n <;> decide +kernel

/-- The second case is read by the first template, with its values the other way round. -/
theorem swapped_case_misread :
    (∀ index, (swapped.caseId index .holdout).length ≤ 200 →
        ∃ case, generateReviewedCase isWord counting swapped index 0 .holdout = .ok case) ∧
      ∃ case record features,
        generateReviewedCase isWord counting swapped 1 0 .holdout = .ok case ∧
          referenceRecordTemplate swapped case.text = .ok (.record record) ∧
          ¬ SameRecord record case.expected ∧
          recipeFeatures swapped case.text = .ok (some features) ∧
          case.variation = some "reverse" ∧ features.variation = "forward" := by
  refine ⟨fun index hid => swapped_accepts index 0 .holdout hid, ?_⟩
  obtain ⟨case, hcase⟩ := swapped_accepts 1 0 .holdout (by decide +kernel)
  obtain ⟨fields, templates, own, hfields, htemplates, hlookup, -, hvariation, hexpected, htext⟩ :=
    generate_ok hcase
  have hfields' : swapped.generatorConfig.reviewedFields isWord = some ["id", "name"] := by
    decide +kernel
  have hlookup' : swappedTemplates.lookup (swapped.variation 1) =
      some (some "\x7bname\x7d \x7bid\x7d") := by
    decide +kernel
  obtain rfl := Option.some_inj.mp (hfields.symm.trans hfields')
  obtain rfl : templates = swappedTemplates :=
    (Option.some_inj.mp (Option.filter_eq_some_iff.mp htemplates).1).symm
  obtain rfl := Option.some_inj.mp (Option.some_inj.mp (hlookup.symm.trans hlookup'))
  rw [hexpected] at htext
  refine ⟨case, [("id", valueText 1), ("name", valueText 0)], featuresOf case.text "forward", hcase,
    ?_, fun hsame => ?_, ?_, hvariation, rfl⟩
  · rw [htext]
    decide +kernel
  · have hid := hsame "id"
    rw [hexpected] at hid
    exact absurd hid (by decide +kernel)
  · rw [htext]
    decide +kernel

theorem swapped_case_read :
    ∃ case name template record,
      generateReviewedCase isWord counting swapped 1 0 .holdout = .ok case ∧
        FirstFit (CanRender case.text) swappedTemplates name template ∧
        referenceRecordTemplate swapped case.text = .ok (.record record) ∧
        render (valueOf record) (pieces template) = case.text := by
  obtain ⟨case, hcase⟩ := swapped_accepts 1 0 .holdout (by decide +kernel)
  obtain ⟨fields, templates, -, htemplates, ⟨name, template, record, hfirst, hread, -, hrender, -⟩, -⟩ :=
    reviewed_case_agrees isWord counting swapped 0 .holdout
      (fun n hn => swapped_accepts n 0 .holdout (swapped_caseId n hn)) 1 case hcase
  obtain rfl := Option.some_inj.mp htemplates
  exact ⟨case, name, template, record, hcase, hfirst, hread, hrender⟩

end AeepRouter.Recipes

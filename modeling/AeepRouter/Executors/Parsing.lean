import AeepRouter.Executors.Templates

/-!
# Outputs of executors

`parseOutput` reads the text an executor returned. Of JSON lines it takes the last record with the
expected values at the paths of a match map. The reader of one JSON text (`loads`) is given.
-/

namespace AeepRouter.Executors

open Lib

/-! ## Texts -/

/-- `str.isspace` of one character. -/
def isspace (c : Char) : Bool :=
  let n := c.toNat
  (0x09 ≤ n ∧ n ≤ 0x0d) ∨ (0x1c ≤ n ∧ n ≤ 0x20) ∨ n = 0x85 ∨ n = 0xa0 ∨ n = 0x1680 ∨
    (0x2000 ≤ n ∧ n ≤ 0x200a) ∨ n = 0x2028 ∨ n = 0x2029 ∨ n = 0x202f ∨ n = 0x205f ∨ n = 0x3000

/-- A character at which `str.splitlines` ends a line. -/
def isLineBoundary (c : Char) : Bool :=
  let n := c.toNat
  (0x0a ≤ n ∧ n ≤ 0x0d) ∨ (0x1c ≤ n ∧ n ≤ 0x1e) ∨ n = 0x85 ∨ n = 0x2028 ∨ n = 0x2029

def strip (text : List Char) : List Char :=
  ((text.dropWhile isspace).reverse.dropWhile isspace).reverse

/-- The lines of a text of which `line` has been read. -/
def splitlinesFrom : List Char → List Char → List (List Char)
  | line, [] => if line = [] then [] else [line]
  | line, '\r' :: '\n' :: text => line :: splitlinesFrom [] text
  | line, c :: text =>
    if isLineBoundary c then line :: splitlinesFrom [] text else splitlinesFrom (line ++ [c]) text

def splitlines (text : List Char) : List (List Char) := splitlinesFrom [] text

def removePrefix (start text : List Char) : List Char :=
  if start.isPrefixOf text then text.drop start.length else text

/-- `str.replace` of two characters by one. -/
def replacePair (a b c : Char) : List Char → List Char
  | x :: y :: text =>
    if x = a ∧ y = b then c :: replacePair a b c text else x :: replacePair a b c (y :: text)
  | text => text

/-! ## Paths -/

variable (host : HostText)

def pointerPart (current : Json) (part : List Char) : Except Raised Json :=
  match current with
  | .arr items => itemOf host items part
  | .obj fields => require (fields.lookup (String.ofList part)) .keyError
  | _ => .error .typeError

def normalized (path : List Char) : List Char :=
  removePrefix ['/'] (removePrefix ['$', '.'] path)

def isPointer (path : List Char) : Bool := path.head? = some '/'

def extractPath (data : Json) (path : Option (List Char)) : Except Raised Json :=
  match path with
  | none => .ok data
  | some path =>
    if path = [] then .ok data
    else if isPointer path then
      let parts := ((normalized path).splitOn '/').map fun part =>
        replacePair '~' '0' '~' (replacePair '~' '1' '/' part)
      parts.foldlM (pointerPart host) data
    else getPath host data (normalized path)

/-! ## Parsing -/

/-- The entries of a match map in turn, to the first that differs. -/
def allMatch (record : Json) : List (String × Json) → Except Raised Bool
  | [] => .ok true
  | (path, expected) :: entries => do
    let value ← extractPath host record (some path.toList)
    if value.eqv true expected then allMatch record entries else pure false

def matchesJsonl (record : Json) (entries : List (String × Json)) : Except Raised Bool :=
  match allMatch host record entries with
  | .error .keyError => .ok false
  | .error .indexError => .ok false
  | .error .typeError => .ok false
  | result => result

def isObject : Json → Bool
  | .obj _ => true
  | _ => false

def selected (entries : List (String × Json)) : List Json → Except Raised (List Json)
  | [] => .ok []
  | record :: records =>
    if isObject record then do
      let matched ← matchesJsonl host record entries
      let rest ← selected entries records
      pure (if matched then record :: rest else rest)
    else selected entries records

/-- The parsers of an output; that of regular expressions is given. -/
inductive OutputType where
  | text
  | json
  | lines
  | jsonl
  | regex (search : List Char → Except Raised Json)
  | other (name : String)

def OutputType.name : OutputType → String
  | .text => "text"
  | .json => "json"
  | .lines => "lines"
  | .jsonl => "jsonl"
  | .regex _ => "regex"
  | .other name => name

structure OutputConfig where
  type : OutputType
  strip : Bool
  matching : Option Json
  path : Option (List Char)
  decodeJson : Bool

variable (loads : List Char → Option Json)

/-- The documents of the lines that are not blank. -/
def jsonLines (prepared : List Char) : Option (List Json) :=
  ((splitlines prepared).filter fun line => strip line ≠ []).mapM loads

def parseJsonl (matching : Option Json) (prepared : List Char) : Except Raised Json := do
  let records ← require (jsonLines loads prepared) .valueError
  match matching.getD (.obj []) with
  | .obj entries => do
    let selection ← selected host entries records
    require selection.getLast?
      (.executor "executor JSONL output did not contain a matching record")
  | _ => .error (.executor "jsonl output match must be an object")

def parsePrepared (config : OutputConfig) (prepared : List Char) : Except Raised Json := do
  let result ← match config.type with
    | .text => .ok (.str (String.ofList prepared))
    | .json => require (loads prepared) .valueError
    | .lines => .ok (.arr ((splitlines prepared).map fun line => .str (String.ofList line)))
    | .jsonl => parseJsonl host loads config.matching prepared
    | .regex search => search prepared
    | .other name => .error (.executor s!"unsupported output parser type '{name}'")
  let value ← extractPath host result config.path
  if config.decodeJson then
    match value with
    | .str s => require (loads s.toList) .valueError
    | _ => .error .typeError
  else pure value

def OutputConfig.prepared (config : OutputConfig) (text : List Char) : List Char :=
  if config.strip then Executors.strip text else text

def parseOutput (text : List Char) (config : OutputConfig) : Except Raised Json :=
  match parsePrepared host loads config (config.prepared text) with
  | .error .keyError => .error (.cannotParse config.type.name .keyError)
  | .error .valueError => .error (.cannotParse config.type.name .valueError)
  | .error .typeError => .error (.cannotParse config.type.name .typeError)
  | result => result

/-! ## Lookups that go wrong -/

theorem foldlM_error_iff {ε α β : Type} {f : β → α → Except ε β} {l : List α} {b : β} {err : ε} :
    l.foldlM f b = .error err ↔ ∃ before a after c, l = before ++ a :: after ∧
      before.foldlM f b = .ok c ∧ f c a = .error err := by
  induction l generalizing b with
  | nil =>
    refine iff_of_false (fun h => ?_) ?_
    · cases h
    rintro ⟨before, a, after, c, heq, -⟩
    exact List.append_ne_nil_of_right_ne_nil before (List.cons_ne_nil a after) heq.symm
  | cons x l ih =>
    rw [List.foldlM_cons, bind_error]
    constructor
    · rintro (hx | ⟨c, hx, hl⟩)
      · exact ⟨[], x, l, b, rfl, rfl, hx⟩
      · obtain ⟨before, a, after, d, rfl, hbefore, ha⟩ := ih.mp hl
        refine ⟨x :: before, a, after, d, rfl, ?_, ha⟩
        rw [List.foldlM_cons]
        exact bind_ok.mpr ⟨c, hx, hbefore⟩
    · rintro ⟨before, a, after, d, heq, hbefore, ha⟩
      cases before with
      | nil =>
        obtain ⟨rfl, rfl⟩ := List.cons.inj heq
        obtain rfl := Except.ok.inj hbefore
        exact .inl ha
      | cons y before =>
        obtain ⟨rfl, rfl⟩ := List.cons.inj heq
        rw [List.foldlM_cons, bind_ok] at hbefore
        obtain ⟨c, hx, hbefore⟩ := hbefore
        exact .inr ⟨c, hx, ih.mpr ⟨before, a, after, d, rfl, hbefore, ha⟩⟩

/-- The errors that `_matches_jsonl` takes for a record that does not match. -/
def Raised.lacks : Raised → Bool
  | .keyError => true
  | .indexError => true
  | .typeError => true
  | _ => false

def pathParts (path : List Char) : List (List Char) :=
  if isPointer path then
    ((normalized path).splitOn '/').map fun part =>
      replacePair '~' '0' '~' (replacePair '~' '1' '/' part)
  else (normalized path).splitOn '.'

def pathStep (path : List Char) : Json → List Char → Except Raised Json :=
  if isPointer path then pointerPart host else getPart host (normalized path)

/-- A value of which a part of a path cannot be asked: an object without the name, for a dotted path;
an array, by what is no number; anything else, for a dotted path. -/
def Misfit (path : List Char) (part : List Char) : Json → Prop
  | .obj fields => isPointer path = false ∧ fields.lookup (String.ofList part) = none
  | .arr _ => (isPointer path = false ∧ host.isdigit part = false) ∨ host.int part = none
  | _ => isPointer path = false

/-- Somewhere along the path a value is a misfit. -/
def Escapes (data : Json) (path : List Char) : Prop :=
  path ≠ [] ∧ ∃ before part after current, pathParts path = before ++ part :: after ∧
    before.foldlM (pathStep host path) data = .ok current ∧ Misfit host path part current

section Lookups

variable {host} {path part : List Char} {current data : Json}

theorem extractPath_eq (h : path ≠ []) :
    extractPath host data (some path) = (pathParts path).foldlM (pathStep host path) data := by
  rw [extractPath, if_neg h, pathParts, pathStep]
  split_ifs <;> rfl

theorem itemAt_lacks {items : List Json} {n : ℤ} {err : Raised} (h : itemAt items n = .error err) :
    err.lacks = true := by
  unfold itemAt at h
  dsimp only at h
  generalize (if n < 0 then n + items.length else n) = position at h
  split_ifs at h
  · cases hitem : items[position.toNat]? with
    | some item =>
      rw [hitem] at h
      cases h
    | none =>
      rw [hitem] at h
      obtain rfl := Except.error.inj h
      rfl
  · obtain rfl := Except.error.inj h
    rfl

theorem itemOf_escapes {items : List Json} :
    (∃ err, itemOf host items part = .error err ∧ err.lacks = false) ↔ host.int part = none := by
  unfold itemOf
  cases hint : host.int part with
  | none => exact iff_of_true ⟨_, rfl, rfl⟩ rfl
  | some n =>
    refine iff_of_false ?_ (Option.some_ne_none n)
    rintro ⟨err, herr, hlacks⟩
    rw [itemAt_lacks herr] at hlacks
    cases hlacks

theorem getPart_escapes :
    (∃ err, getPart host path current part = .error err ∧ err.lacks = false) ↔
      match current with
      | .obj fields => fields.lookup (String.ofList part) = none
      | .arr _ => host.isdigit part = false ∨ host.int part = none
      | _ => True := by
  cases current with
  | obj fields =>
    rw [getPart]
    cases hfield : fields.lookup (String.ofList part) with
    | none => exact iff_of_true ⟨_, rfl, rfl⟩ hfield
    | some value => simp [hfield]
  | arr items =>
    rw [getPart]
    cases hdigit : host.isdigit part with
    | false => exact iff_of_true ⟨_, rfl, rfl⟩ (.inl rfl)
    | true => simpa using itemOf_escapes
  | null => exact iff_of_true ⟨_, rfl, rfl⟩ trivial
  | bool b => exact iff_of_true ⟨_, rfl, rfl⟩ trivial
  | num q => exact iff_of_true ⟨_, rfl, rfl⟩ trivial
  | str s => exact iff_of_true ⟨_, rfl, rfl⟩ trivial

theorem pointerPart_escapes :
    (∃ err, pointerPart host current part = .error err ∧ err.lacks = false) ↔
      match current with
      | .arr _ => host.int part = none
      | _ => False := by
  cases current with
  | obj fields =>
    rw [pointerPart]
    cases hfield : fields.lookup (String.ofList part) with
    | none => simp [require, Raised.lacks]
    | some value => simp [require]
  | arr items => exact itemOf_escapes
  | null => simp [pointerPart, Raised.lacks]
  | bool b => simp [pointerPart, Raised.lacks]
  | num q => simp [pointerPart, Raised.lacks]
  | str s => simp [pointerPart, Raised.lacks]

theorem pathStep_escapes :
    (∃ err, pathStep host path current part = .error err ∧ err.lacks = false) ↔
      Misfit host path part current := by
  unfold pathStep
  cases hpointer : isPointer path with
  | false =>
    rw [if_neg Bool.false_ne_true, getPart_escapes]
    cases current <;> simp [Misfit, hpointer]
  | true =>
    rw [if_pos rfl, pointerPart_escapes]
    cases current <;> simp [Misfit, hpointer]

/-- A lookup fails with an error that is not taken for a mismatch just when it comes to a misfit. -/
theorem extractPath_escapes :
    (∃ err, extractPath host data (some path) = .error err ∧ err.lacks = false) ↔
      Escapes host data path := by
  by_cases hpath : path = []
  · subst hpath
    refine iff_of_false ?_ fun h => h.1 rfl
    rintro ⟨err, herr, -⟩
    cases herr
  · rw [extractPath_eq hpath]
    simp only [foldlM_error_iff, Escapes, ne_eq, hpath, not_false_eq_true, true_and]
    constructor
    · rintro ⟨err, ⟨before, part, after, current, hparts, hbefore, herr⟩, hlacks⟩
      exact ⟨before, part, after, current, hparts, hbefore, pathStep_escapes.mp ⟨err, herr, hlacks⟩⟩
    · rintro ⟨before, part, after, current, hparts, hbefore, hmisfit⟩
      obtain ⟨err, herr, hlacks⟩ := pathStep_escapes.mpr hmisfit
      exact ⟨err, ⟨before, part, after, current, hparts, hbefore, herr⟩, hlacks⟩

end Lookups

/-! ## Records that match -/

/-- A path of the match map exists in the record, with the expected value. -/
def holds (record : Json) (entry : String × Json) : Bool :=
  match extractPath host record (some entry.1.toList) with
  | .ok value => value.eqv true entry.2
  | .error _ => false

def matchesAll (entries : List (String × Json)) (record : Json) : Bool :=
  isObject record && entries.all (holds host record)

/-- The last object record with every expected value. -/
structure LastMatch (entries : List (String × Json)) (records : List Json) (record : Json) :
    Prop where
  matching : matchesAll host entries record = true
  last : ∃ before after, records = before ++ record :: after ∧
    ∀ later ∈ after, matchesAll host entries later = false

/-- The first path of the match map that does not hold comes to a misfit. -/
def Trips (record : Json) : List (String × Json) → Prop
  | [] => False
  | entry :: entries =>
    Escapes host record entry.1.toList ∨ (holds host record entry = true ∧ Trips record entries)

section Records

variable {host} {record : Json} {entry : String × Json} {entries : List (String × Json)}

theorem matchesJsonl_of_holds (h : holds host record entry = true) :
    matchesJsonl host record (entry :: entries) = matchesJsonl host record entries := by
  unfold holds at h
  cases hpath : extractPath host record (some entry.1.toList) with
  | error err =>
    rw [hpath] at h
    cases h
  | ok value =>
    rw [hpath] at h
    have hall : allMatch host record (entry :: entries) = allMatch host record entries := by
      change (extractPath host record (some entry.1.toList) >>= fun value =>
        if value.eqv true entry.2 then allMatch host record entries else pure false) = _
      rw [hpath]
      exact if_pos h
    rw [matchesJsonl, matchesJsonl, hall]

theorem matchesJsonl_of_differs (h : holds host record entry = false)
    (hfits : ¬ Escapes host record entry.1.toList) :
    matchesJsonl host record (entry :: entries) = .ok false := by
  unfold holds at h
  have hall : allMatch host record (entry :: entries) =
      (extractPath host record (some entry.1.toList) >>= fun value =>
        if value.eqv true entry.2 then allMatch host record entries else pure false) := rfl
  cases hpath : extractPath host record (some entry.1.toList) with
  | error err =>
    rw [hpath] at hall
    have hlacks : err.lacks = true := by
      by_contra hnot
      exact hfits (extractPath_escapes.mp ⟨err, hpath, Bool.eq_false_iff.mpr hnot⟩)
    change allMatch host record (entry :: entries) = .error err at hall
    rw [matchesJsonl, hall]
    cases err <;> first | rfl | cases hlacks
  | ok value =>
    rw [hpath] at h hall
    have hne : ¬ value.eqv true entry.2 = true := Bool.eq_false_iff.mp h
    have hfalse : allMatch host record (entry :: entries) = .ok false := hall.trans (if_neg hne)
    rw [matchesJsonl, hfalse]

variable (entries) in
theorem matchesJsonl_of_escapes (h : Escapes host record entry.1.toList) :
    ∃ err, matchesJsonl host record (entry :: entries) = .error err := by
  obtain ⟨err, herr, hlacks⟩ := extractPath_escapes.mpr h
  have hall : allMatch host record (entry :: entries) = .error err := by
    change (extractPath host record (some entry.1.toList) >>= fun value =>
      if value.eqv true entry.2 then allMatch host record entries else pure false) = _
    rw [herr]
    rfl
  refine ⟨err, ?_⟩
  rw [matchesJsonl, hall]
  cases err <;> first | rfl | cases hlacks

theorem matchesJsonl_ok {b : Bool} : matchesJsonl host record entries = .ok b ↔
    ¬ Trips host record entries ∧ entries.all (holds host record) = b := by
  induction entries with
  | nil =>
    rw [List.all_nil]
    exact ⟨fun h => ⟨id, Except.ok.inj h⟩, fun h => congrArg Except.ok h.2⟩
  | cons entry entries ih =>
    rw [Trips, List.all_cons]
    by_cases hescapes : Escapes host record entry.1.toList
    · obtain ⟨err, herr⟩ := matchesJsonl_of_escapes entries hescapes
      rw [herr]
      refine iff_of_false (fun h => ?_) fun h => h.1 (.inl hescapes)
      cases h
    · cases hentry : holds host record entry with
      | true =>
        rw [matchesJsonl_of_holds hentry, ih, Bool.true_and]
        simp only [hescapes, false_or, true_and]
      | false =>
        rw [matchesJsonl_of_differs hentry hescapes, Bool.false_and]
        simp only [hescapes, Bool.false_eq_true, false_and, or_self, not_false_eq_true, true_and,
          Except.ok.injEq]

theorem selected_ok {records selection : List Json} :
    selected host entries records = .ok selection ↔
      (∀ record ∈ records, isObject record = true → ¬ Trips host record entries) ∧
        records.filter (matchesAll host entries) = selection := by
  induction records generalizing selection with
  | nil =>
    rw [selected, List.filter_nil]
    exact ⟨fun h => ⟨fun _ h => absurd h List.not_mem_nil, Except.ok.inj h⟩,
      fun h => congrArg Except.ok h.2⟩
  | cons record records ih =>
    rw [selected, List.forall_mem_cons]
    cases hobject : isObject record with
    | false =>
      have hnot : ¬ matchesAll host entries record = true := by
        rw [matchesAll, hobject, Bool.false_and]
        exact Bool.false_ne_true
      rw [if_neg Bool.false_ne_true, ih, List.filter_cons_of_neg hnot]
      simp only [Bool.false_eq_true, false_implies, true_and]
    | true =>
      have hmatches : matchesAll host entries record = entries.all (holds host record) := by
        rw [matchesAll, hobject, Bool.true_and]
      simp only [if_pos, bind_ok, pure_ok, matchesJsonl_ok, ih, List.filter_cons, hmatches]
      constructor
      · rintro ⟨_, ⟨htrips, rfl⟩, _, ⟨hrest, rfl⟩, rfl⟩
        exact ⟨⟨fun _ => htrips, hrest⟩, rfl⟩
      · rintro ⟨⟨htrips, hrest⟩, rfl⟩
        exact ⟨_, ⟨htrips trivial, rfl⟩, _, ⟨hrest, rfl⟩, rfl⟩

theorem lastMatch_iff {records : List Json} :
    (records.filter (matchesAll host entries)).getLast? = some record ↔
      LastMatch host entries records record := by
  rw [List.getLast?_eq_head?_reverse, ← List.filter_reverse, List.head?_filter,
    List.find?_eq_some_iff_append]
  constructor
  · rintro ⟨hmatches, after, before, heq, hafter⟩
    refine ⟨hmatches, before.reverse, after.reverse, ?_, fun later hlater => ?_⟩
    · have h := congrArg List.reverse heq
      rw [List.reverse_reverse, List.reverse_append, List.reverse_cons] at h
      rw [h, List.append_assoc, List.singleton_append]
    · exact Bool.not_eq_true' _ |>.mp (hafter later (List.mem_reverse.mp hlater))
  · rintro ⟨hmatches, before, after, rfl, hafter⟩
    refine ⟨hmatches, after.reverse, before.reverse, ?_, fun later hlater => ?_⟩
    · rw [List.reverse_append, List.reverse_cons, List.append_assoc, List.singleton_append]
    · exact Bool.not_eq_true' _ |>.mpr (hafter later (List.mem_reverse.mp hlater))

theorem exists_lastMatch {records : List Json} (h : matchesAll host entries record = true)
    (hmem : record ∈ records) : ∃ last, LastMatch host entries records last := by
  have hne : records.filter (matchesAll host entries) ≠ [] :=
    List.ne_nil_of_mem (List.mem_filter.mpr ⟨hmem, h⟩)
  exact ⟨_, lastMatch_iff.mp (List.getLast?_eq_some_getLast hne)⟩

end Records

/-! ## The output of JSON lines -/

/-- JSON lines with a match map, and nothing to do with the record that is selected. -/
def jsonlConfig (strip : Bool) (entries : List (String × Json)) : OutputConfig where
  type := .jsonl
  strip := strip
  matching := some (.obj entries)
  path := none
  decodeJson := false

theorem parsePrepared_jsonl {strip : Bool} {entries : List (String × Json)} {prepared : List Char} :
    parsePrepared host loads (jsonlConfig strip entries) prepared =
      parseJsonl host loads (some (.obj entries)) prepared := by
  change (parseJsonl host loads (some (.obj entries)) prepared >>= fun result => .ok result) = _
  cases parseJsonl host loads (some (.obj entries)) prepared <;> rfl

theorem parseOutput_jsonl_ok {strip : Bool} {entries : List (String × Json)} {text : List Char}
    {record : Json} :
    parseOutput host loads text (jsonlConfig strip entries) = .ok record ↔
      ∃ records, jsonLines loads ((jsonlConfig strip entries).prepared text) = some records ∧
        (∀ record ∈ records, isObject record = true → ¬ Trips host record entries) ∧
        LastMatch host entries records record := by
  have hparse : parseOutput host loads text (jsonlConfig strip entries) = .ok record ↔
      parseJsonl host loads (some (.obj entries)) ((jsonlConfig strip entries).prepared text) =
        .ok record := by
    rw [parseOutput, parsePrepared_jsonl]
    cases parseJsonl host loads (some (.obj entries)) ((jsonlConfig strip entries).prepared text) with
    | ok value => rfl
    | error err => cases err <;> simp
  rw [hparse]
  unfold parseJsonl
  simp only [bind_ok, require_ok, Option.getD_some, selected_ok]
  constructor
  · rintro ⟨records, hrecords, _, ⟨hfits, rfl⟩, hlast⟩
    exact ⟨records, hrecords, hfits, lastMatch_iff.mp hlast⟩
  · rintro ⟨records, hrecords, hfits, hlast⟩
    exact ⟨records, hrecords, _, ⟨hfits, rfl⟩, lastMatch_iff.mpr hlast⟩

/-- Of JSON lines the last record that matches is returned, unless some object record trips over a
path. -/
theorem jsonl_output_iff {strip : Bool} {entries : List (String × Json)} {text : List Char}
    {records : List Json}
    (h : jsonLines loads ((jsonlConfig strip entries).prepared text) = some records) :
    (∀ record, parseOutput host loads text (jsonlConfig strip entries) = .ok record ↔
        LastMatch host entries records record) ↔
      (∀ record ∈ records, matchesAll host entries record = false) ∨
        ∀ record ∈ records, isObject record = true → ¬ Trips host record entries := by
  constructor
  · intro hlaw
    by_cases hmatch : ∃ record ∈ records, matchesAll host entries record = true
    · obtain ⟨record, hmem, hmatches⟩ := hmatch
      obtain ⟨last, hlast⟩ := exists_lastMatch hmatches hmem
      obtain ⟨records', hrecords', hfits, -⟩ := (parseOutput_jsonl_ok host loads).mp
        ((hlaw last).mpr hlast)
      obtain rfl := Option.some_inj.mp (h.symm.trans hrecords')
      exact .inr hfits
    · push Not at hmatch
      exact .inl fun record hmem => Bool.eq_false_iff.mpr (hmatch record hmem)
  · rintro (hnone | hfits) record
    · refine iff_of_false (fun hok => ?_) fun hlast => ?_
      · obtain ⟨records', hrecords', -, hlast⟩ := (parseOutput_jsonl_ok host loads).mp hok
        obtain rfl := Option.some_inj.mp (h.symm.trans hrecords')
        obtain ⟨before, after, rfl, -⟩ := hlast.last
        have hmem : record ∈ before ++ record :: after :=
          List.mem_append_right before List.mem_cons_self
        exact Bool.eq_false_iff.mp (hnone record hmem) hlast.matching
      · obtain ⟨before, after, rfl, -⟩ := hlast.last
        have hmem : record ∈ before ++ record :: after :=
          List.mem_append_right before List.mem_cons_self
        exact Bool.eq_false_iff.mp (hnone record hmem) hlast.matching
    · rw [parseOutput_jsonl_ok]
      constructor
      · rintro ⟨records', hrecords', -, hlast⟩
        obtain rfl := Option.some_inj.mp (h.symm.trans hrecords')
        exact hlast
      · exact fun hlast => ⟨records, h, hfits, hlast⟩

/-- A stream of two events. -/
def eventLines : List Char := "\x7b\x7d\n\x7b\"id\":1\x7d".toList

/-- The reader at the two events. -/
def eventLoads (line : List Char) : Option Json :=
  if line = "\x7b\x7d".toList then some (.obj [])
  else if line = "\x7b\"id\":1\x7d".toList then some (.obj [("id", .num 1)])
  else none

/-- An event without the path ends the parsing, though the next one matches. -/
theorem event_without_path_raises :
    parseOutput plainHost eventLoads eventLines (jsonlConfig true [("id", .num 1)]) =
        .error (.notProvided "id".toList) ∧
      LastMatch plainHost [("id", .num 1)] [.obj [], .obj [("id", .num 1)]]
        (.obj [("id", .num 1)]) := by
  refine ⟨?_, ⟨by decide +kernel, [.obj []], [], rfl, fun _ h => absurd h List.not_mem_nil⟩⟩
  rfl

theorem event_lines_read :
    jsonLines eventLoads ((jsonlConfig true [("id", .num 1)]).prepared eventLines) =
      some [.obj [], .obj [("id", .num 1)]] := rfl

theorem event_output_iff :
    (∀ record, parseOutput plainHost eventLoads eventLines (jsonlConfig true [("id", .num 1)]) =
        .ok record ↔
          LastMatch plainHost [("id", .num 1)] [.obj [], .obj [("id", .num 1)]] record) ↔
      (∀ record ∈ [.obj [], .obj [("id", .num 1)]],
          matchesAll plainHost [("id", .num 1)] record = false) ∨
        ∀ record ∈ [.obj [], .obj [("id", .num 1)]], isObject record = true →
          ¬ Trips plainHost record [("id", .num 1)] :=
  jsonl_output_iff plainHost eventLoads event_lines_read

end AeepRouter.Executors

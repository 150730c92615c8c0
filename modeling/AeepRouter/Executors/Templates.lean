import AeepRouter.Lib.JsonSchema
import AeepRouter.Lib.Run
import AeepRouter.Lib.Scanning

/-!
# Templates of executor manifests

`renderString` puts the values of an action into a string, and then the environment into what came
of that. `simultaneous` puts both into the string at once. The host's own functions on texts are
given (`HostText`), and the environment is any.
-/

namespace AeepRouter.Executors

open Lib

/-- What path lookups, templates and parsers raise. -/
inductive Raised where
  /-- `ConfigurationError`: a value was not provided. -/
  | notProvided (path : List Char)
  | notSet (name : List Char)
  /-- `ConfigurationError`: no environment in this field. -/
  | environmentRefused
  | keyError
  | indexError
  | typeError
  | valueError
  | executor (message : String)
  | cannotParse (kind : String) (cause : Raised)
  deriving DecidableEq, Repr

/-- Functions of the host on texts: `str.isdigit`, `int` of a text, and the text of a value that is
neither a text nor nothing. -/
structure HostText where
  isdigit : List Char → Bool
  int : List Char → Option ℤ
  dumps : Json → List Char

/-! ## Paths -/

/-- `items[n]`, from the end when `n` is negative. -/
def itemAt (items : List Json) (n : ℤ) : Except Raised Json :=
  let position := if n < 0 then n + items.length else n
  if 0 ≤ position then
    match items[position.toNat]? with
    | some item => .ok item
    | none => .error .indexError
  else .error .indexError

variable (host : HostText)

def itemOf (items : List Json) (part : List Char) : Except Raised Json :=
  match host.int part with
  | some n => itemAt items n
  | none => .error .valueError

def getPart (path : List Char) (current : Json) (part : List Char) : Except Raised Json :=
  match current with
  | .obj fields =>
    match fields.lookup (String.ofList part) with
    | some value => .ok value
    | none => .error (.notProvided path)
  | .arr items =>
    if host.isdigit part then itemOf host items part else .error (.notProvided path)
  | _ => .error (.notProvided path)

def getPath (data : Json) (path : List Char) : Except Raised Json :=
  (path.splitOn '.').foldlM (getPart host path) data

/-! ## Placeholders -/

def isNameStart (c : Char) : Bool := c.isAlpha ∨ c = '_'

def isNameChar (c : Char) : Bool := c.isAlphanum ∨ c = '_'

def isPathChar (c : Char) : Bool := c.isAlphanum ∨ c ∈ ['_', '.', '-']

def opening : Char := '\x7b'

def closing : Char := '\x7d'

theorem isPathChar_closing : isPathChar closing = false := by decide

theorem isNameChar_closing : isNameChar closing = false := by decide

def placeholder : Scanner Char (List Char) :=
  .delimited [opening] closing isNameStart isPathChar isPathChar_closing

def envOpening : List Char := '$' :: opening :: "ENV:".toList

def envPlaceholder : Scanner Char (List Char) :=
  .delimited envOpening closing isNameStart isNameChar isNameChar_closing

/-! ## Running a template -/

/-- What a rendering returns or raises, and the environment variables it has read by then. -/
@[ext] structure Run (α : Type) where
  reads : List (List Char)
  result : Except Raised α

namespace Run

variable {α β γ : Type}

def pure (a : α) : Run α := ⟨[], .ok a⟩

def bind (x : Run α) (f : α → Run β) : Run β :=
  match x.result with
  | .ok a => ⟨x.reads ++ (f a).reads, (f a).result⟩
  | .error err => ⟨x.reads, .error err⟩

instance : Monad Run where
  pure := Run.pure
  bind := Run.bind

def lift (x : Except Raised α) : Run α := ⟨[], x⟩

end Run

/-- The environment, by name. -/
abbrev Environment := List Char → Option (List Char)

def readEnv (env : Environment) (name : List Char) : Run (List Char) :=
  ⟨[name], match env name with
    | some value => .ok value
    | none => .error (.notSet name)⟩

def fillEnv (env : Environment) : List (Piece Char (List Char)) → Run (List Char)
  | [] => pure []
  | .char c :: pieces => do
    let rest ← fillEnv env pieces
    pure (c :: rest)
  | .mark name :: pieces => do
    let value ← readEnv env name
    let rest ← fillEnv env pieces
    pure (value ++ rest)

def stringify : Json → List Char
  | .str s => s.toList
  | .null => []
  | value => host.dumps value

def fillPaths (values : Json) : List (Piece Char (List Char)) → Except Raised (List Char)
  | [] => .ok []
  | .char c :: pieces => (fillPaths values pieces).map (c :: ·)
  | .mark path :: pieces => do
    let value ← getPath host values path
    let rest ← fillPaths values pieces
    pure (stringify host value ++ rest)

/-- `_PLACEHOLDER.fullmatch`. -/
def wholePlaceholder (template : List Char) : Option (List Char) :=
  (placeholder.find template).filter fun path => placeholder.write path = template

def renderString (allowEnv : Bool) (env : Environment) (values : Json) (template : List Char) :
    Run Json :=
  match wholePlaceholder template with
  | some path => .lift (getPath host values path)
  | none => do
    let rendered ← .lift (fillPaths host values (placeholder.scan template))
    if allowEnv then do
      let text ← fillEnv env (envPlaceholder.scan rendered)
      pure (.str (String.ofList text))
    else if (envPlaceholder.scan rendered).any Scanner.isMark then .lift (.error .environmentRefused)
    else pure (.str (String.ofList rendered))

/-- Nested lists, tuples and dicts; a leaf is a string, or a value that stays as it is. -/
inductive Tree where
  | text (template : List Char)
  | value (value : Json)
  | list (items : List Tree)
  | tuple (items : List Tree)
  | dict (entries : List (String × Tree))

mutual

/-- A tree with every string replaced. -/
def Tree.traverse (f : List Char → Run Json) : Tree → Run Tree
  | .text template => do
    let value ← f template
    pure (.value value)
  | .value value => pure (.value value)
  | .list items => do
    let items ← traverseItems f items
    pure (.list items)
  | .tuple items => do
    let items ← traverseItems f items
    pure (.tuple items)
  | .dict entries => do
    let entries ← traverseEntries f entries
    pure (.dict entries)

def traverseItems (f : List Char → Run Json) : List Tree → Run (List Tree)
  | [] => pure []
  | item :: items => do
    let item ← item.traverse f
    let items ← traverseItems f items
    pure (item :: items)

def traverseEntries (f : List Char → Run Json) : List (String × Tree) → Run (List (String × Tree))
  | [] => pure []
  | (key, item) :: entries => do
    let item ← item.traverse f
    let entries ← traverseEntries f entries
    pure ((key, item) :: entries)

end

def render (allowEnv : Bool) (env : Environment) (values : Json) (template : Tree) : Run Tree :=
  template.traverse (renderString host allowEnv env values)

/-! ## All placeholders at once -/

theorem placeholder_find {text : List Char} (h : text.head? ≠ some opening) :
    placeholder.find text = none :=
  Scanner.findDelimited_eq_none rfl h

theorem envPlaceholder_find {text : List Char} (h : text.head? ≠ some '$') :
    envPlaceholder.find text = none :=
  Scanner.findDelimited_eq_none rfl h

theorem placeholder_or_env (text : List Char) :
    placeholder.find text = none ∨ envPlaceholder.find text = none := by
  by_cases h : text.head? = some opening
  · refine .inr (envPlaceholder_find ?_)
    rw [h]
    decide
  · exact .inl (placeholder_find h)

/-- The placeholders of either kind, paths on the left. -/
def placeholders : Scanner Char (List Char ⊕ List Char) :=
  placeholder.sum envPlaceholder placeholder_or_env

/-- A template with the values at its paths, of which only characters are left. -/
def valuesAt (values : Json) :
    List (Piece Char (List Char ⊕ List Char)) → Except Raised (List (Piece Char (List Char)))
  | [] => .ok []
  | .char c :: pieces => (valuesAt values pieces).map (.char c :: ·)
  | .mark (.inr name) :: pieces => (valuesAt values pieces).map (.mark name :: ·)
  | .mark (.inl path) :: pieces => do
    let value ← getPath host values path
    let rest ← valuesAt values pieces
    pure ((stringify host value).map .char ++ rest)

/-- Every placeholder of the template replaced by its value, and nothing else. -/
def simultaneous (env : Environment) (values : Json) (template : List Char) : Run Json :=
  match placeholders.scan template with
  | [.mark (.inl path)] => .lift (getPath host values path)
  | pieces => do
    let filled ← .lift (valuesAt host values pieces)
    let text ← fillEnv env filled
    pure (.str (String.ofList text))

def envName : Piece Char (List Char ⊕ List Char) → Option (List Char)
  | .mark (.inr name) => some name
  | _ => none

/-- The environment variables a template names. -/
def envNames (template : List Char) : List (List Char) :=
  (placeholders.scan template).filterMap envName

/-! ## Where the passes meet -/

theorem closing_not_name {c : Char} (h : isNameChar c = true ∨ isNameStart c = true) :
    c ≠ '$' ∧ c ≠ opening := by
  constructor
  · rintro rfl
    revert h
    decide
  · rintro rfl
    revert h
    decide

/-- The characters of an environment placeholder after its first. -/
theorem env_tail {name : List Char} (h : envPlaceholder.valid name) :
    ∀ c ∈ (envPlaceholder.write name).tail, c ≠ '$' := by
  obtain ⟨first, rest, rfl, hfirst, hrest⟩ := h
  have htail : (envPlaceholder.write (first :: rest)).tail =
      opening :: ("ENV:".toList ++ (first :: rest ++ [closing])) := rfl
  rw [htail]
  intro c hc
  rw [List.mem_cons, List.mem_append, List.mem_append, List.mem_singleton, List.mem_cons] at hc
  rcases hc with rfl | hc | (rfl | hc) | rfl
  · decide
  · have hletter : c = 'E' ∨ c = 'N' ∨ c = 'V' ∨ c = ':' := by simpa using hc
    rcases hletter with rfl | rfl | rfl | rfl <;> decide
  · exact (closing_not_name (.inr hfirst)).1
  · exact (closing_not_name (.inl (hrest c hc))).1
  · decide

theorem mem_tail_of_append {α : Type} {word before after : List α} {c : α}
    (h : word = before ++ after) (hbefore : before ≠ []) (hc : after.head? = some c) :
    c ∈ word.tail := by
  cases before with
  | nil => exact absurd rfl hbefore
  | cons b before =>
    rw [h, List.cons_append, List.tail_cons]
    exact List.mem_append_right before (List.mem_of_head? hc)

theorem head_append {α : Type} {after rest : List α} (h : after ≠ []) :
    (after ++ rest).head? = after.head? := by
  cases after with
  | nil => exact absurd rfl h
  | cons c after => rfl

/-- No environment placeholder begins inside another. -/
theorem env_apart : envPlaceholder.Apart envPlaceholder := by
  intro name hvalid before after hwrite hbefore hafter rest
  refine envPlaceholder_find ?_
  rw [head_append hafter]
  intro hhead
  exact env_tail hvalid _ (mem_tail_of_append hwrite hbefore hhead) rfl

/-- A path does not begin with the marker of the environment. -/
theorem placeholder_find_marker (text : List Char) :
    placeholder.find (opening :: ("ENV:".toList ++ text)) = none := by
  cases hfind : placeholder.find (opening :: ("ENV:".toList ++ text)) with
  | none => rfl
  | some path =>
    exfalso
    obtain ⟨⟨first, rest, rfl, -, hrest⟩, more, heq⟩ := (placeholder.find_iff _ _).mp hfind
    have hopened : 'E' :: 'N' :: 'V' :: ':' :: text = first :: (rest ++ (closing :: more)) := by
      have htail := congrArg List.tail heq
      simpa [placeholder, Scanner.delimited] using htail
    obtain ⟨-, hopened⟩ := List.cons.inj hopened
    have hcolon : isPathChar ':' = false := by decide
    match rest, hopened with
    | [], hopened => exact absurd (List.cons.inj hopened).1 (by decide)
    | [_], hopened => exact absurd (List.cons.inj (List.cons.inj hopened).2).1 (by decide)
    | [_, _], hopened =>
      exact absurd (List.cons.inj (List.cons.inj (List.cons.inj hopened).2).2).1 (by decide)
    | a :: b :: c :: rest, hopened =>
      have hc : ':' = c := (List.cons.inj (List.cons.inj (List.cons.inj hopened).2).2).1
      have hmem := hrest c (by simp)
      rw [← hc, hcolon] at hmem
      exact Bool.false_ne_true hmem

/-- No path begins in an environment placeholder. -/
theorem placeholder_inside {name before after : List Char} (h : envPlaceholder.valid name)
    (hwrite : envPlaceholder.write name = before ++ after) (hafter : after ≠ []) (rest : List Char) :
    placeholder.find (after ++ rest) = none := by
  obtain ⟨first, tail, rfl, hfirst, htail⟩ := h
  have hname : envPlaceholder.write (first :: tail) =
      '$' :: opening :: ("ENV:".toList ++ (first :: tail ++ [closing])) := rfl
  rw [hname] at hwrite
  match before, hwrite with
  | [], hwrite =>
    rw [List.nil_append] at hwrite
    rw [← hwrite]
    exact placeholder_find fun hhead => absurd (Option.some_inj.mp hhead) (by decide)
  | [_], hwrite =>
    have hmarker : opening :: ("ENV:".toList ++ (first :: tail ++ [closing])) = after :=
      (List.cons.inj hwrite).2
    rw [← hmarker, List.cons_append, List.append_assoc]
    exact placeholder_find_marker _
  | a :: b :: before, hwrite =>
    refine placeholder_find ?_
    rw [head_append hafter]
    intro hhead
    have hmem : opening ∈ "ENV:".toList ++ (first :: tail ++ [closing]) := by
      rw [(List.cons.inj (List.cons.inj hwrite).2).2]
      exact List.mem_append_right before (List.mem_of_head? hhead)
    rw [List.mem_append, List.mem_append, List.mem_singleton, List.mem_cons] at hmem
    rcases hmem with hmem | (heq | hmem) | heq
    · revert hmem
      decide
    · exact (closing_not_name (.inr hfirst)).2 heq.symm
    · exact (closing_not_name (.inl (htail _ hmem))).2 rfl
    · revert heq
      decide

/-! ## Leaves -/

theorem fillPaths_chars (values : Json) (text : List Char) (pieces : List (Piece Char (List Char))) :
    fillPaths host values (text.map .char ++ pieces) =
      (fillPaths host values pieces).map (text ++ ·) := by
  induction text with
  | nil => cases hpieces : fillPaths host values pieces <;> simp [hpieces, Except.map]
  | cons c text ih =>
    rw [List.map_cons, List.cons_append, fillPaths, ih]
    cases fillPaths host values pieces <;> rfl

/-- The first pass puts the values into the template and leaves the rest of it as it is. -/
theorem fillPaths_scan (values : Json) (template : List Char) :
    fillPaths host values (placeholder.scan template) =
      (valuesAt host values (placeholders.scan template)).map
        (·.flatMap envPlaceholder.spell) := by
  induction template using Scanner.scan_induction placeholders with
  | nil => rfl
  | mark name rest hvalid ih =>
    rw [Scanner.scan_write hvalid]
    cases name with
    | inl path =>
      have hpath : placeholder.scan (placeholders.write (.inl path) ++ rest) =
          .mark path :: placeholder.scan rest := Scanner.scan_write hvalid
      rw [hpath, fillPaths, valuesAt, ih]
      cases getPath host values path with
      | error err => rfl
      | ok value =>
        cases valuesAt host values (placeholders.scan rest) with
        | error err => rfl
        | ok filled =>
          have hspell : ((stringify host value).map Piece.char).flatMap envPlaceholder.spell =
              stringify host value := by
            rw [List.flatMap_map]
            exact List.flatMap_singleton' _
          change Except.ok (stringify host value ++ filled.flatMap envPlaceholder.spell) =
            Except.ok (((stringify host value).map Piece.char ++ filled).flatMap
              envPlaceholder.spell)
          rw [List.flatMap_append, hspell]
    | inr env =>
      have henv : placeholder.scan (placeholders.write (.inr env) ++ rest) =
          (envPlaceholder.write env).map .char ++ placeholder.scan rest :=
        Scanner.scan_append fun before after hwrite hafter =>
          placeholder_inside hvalid hwrite hafter rest
      rw [henv, fillPaths_chars, valuesAt, ih]
      cases valuesAt host values (placeholders.scan rest) <;> rfl
  | char c rest hfind ih =>
    have hpath := (Scanner.sum_find_eq_none hfind).1
    rw [Scanner.scan_cons hfind, Scanner.scan_cons hpath, fillPaths, valuesAt, ih]
    cases valuesAt host values (placeholders.scan rest) <;> rfl

theorem wholePlaceholder_iff {template path : List Char} :
    wholePlaceholder template = some path ↔ placeholders.scan template = [.mark (.inl path)] := by
  unfold wholePlaceholder
  rw [Option.filter_eq_some_iff, decide_eq_true_eq]
  constructor
  · rintro ⟨hfind, rfl⟩
    have hvalid : placeholders.valid (.inl path) := ((placeholder.find_iff _ _).mp hfind).1
    have hscan : placeholders.scan (placeholders.write (.inl path) ++ []) =
        .mark (.inl path) :: placeholders.scan [] := Scanner.scan_write hvalid
    rw [List.append_nil] at hscan
    exact hscan
  · intro hscan
    have hwrite : placeholder.write path = template := by
      have hspell := Scanner.flatMap_spell_scan (s := placeholders) template
      rw [hscan, List.flatMap_singleton] at hspell
      exact hspell
    have hvalid : placeholder.valid path :=
      Scanner.valid_scan (s := placeholders) template (.inl path) (by rw [hscan]; simp)
    refine ⟨?_, hwrite⟩
    have hfind : placeholder.find (placeholder.write path ++ []) = some path :=
      Scanner.find_write hvalid
    rwa [List.append_nil, hwrite] at hfind

theorem valid_valuesAt {values : Json} {pieces : List (Piece Char (List Char ⊕ List Char))}
    {filled : List (Piece Char (List Char))} (hpieces : placeholders.Valid pieces)
    (h : valuesAt host values pieces = .ok filled) : envPlaceholder.Valid filled := by
  induction pieces generalizing filled with
  | nil =>
    obtain rfl := Except.ok.inj h
    exact fun name hname => absurd hname List.not_mem_nil
  | cons piece pieces ih =>
    have hrest : placeholders.Valid pieces := fun name hname =>
      hpieces name (List.mem_cons_of_mem _ hname)
    match piece, h with
    | .char c, h =>
      obtain ⟨rest, hvalues, rfl⟩ := map_ok.mp h
      intro name hname
      rcases List.mem_cons.mp hname with heq | hname
      · cases heq
      · exact ih hrest hvalues name hname
    | .mark (.inr env), h =>
      obtain ⟨rest, hvalues, rfl⟩ := map_ok.mp h
      intro name hname
      rcases List.mem_cons.mp hname with heq | hname
      · cases heq
        exact hpieces (.inr env) List.mem_cons_self
      · exact ih hrest hvalues name hname
    | .mark (.inl path), h =>
      rw [valuesAt] at h
      obtain ⟨value, -, h⟩ := bind_ok.mp h
      obtain ⟨rest, hvalues, h⟩ := bind_ok.mp h
      obtain rfl := Except.ok.inj h
      intro name hname
      rcases List.mem_append.mp hname with hname | hname
      · obtain ⟨c, -, hc⟩ := List.mem_map.mp hname
        cases hc
      · exact ih hrest hvalues name hname

/-! ## Runs -/

namespace Run

variable {α β γ : Type}

theorem bind_of_ok {x : Run α} {f : α → Run β} {a : α} (h : x.result = .ok a) :
    x >>= f = ⟨x.reads ++ (f a).reads, (f a).result⟩ := by
  change Run.bind x f = _
  rw [Run.bind, h]

theorem bind_of_error {x : Run α} {f : α → Run β} {err : Raised} (h : x.result = .error err) :
    x >>= f = ⟨x.reads, .error err⟩ := by
  change Run.bind x f = _
  rw [Run.bind, h]

theorem pure_bind (a : α) (f : α → Run β) : (Pure.pure a : Run α) >>= f = f a := by
  rw [bind_of_ok rfl]
  rfl

theorem bind_assoc (x : Run α) (f : α → Run β) (g : β → Run γ) :
    x >>= f >>= g = x >>= fun a => f a >>= g := by
  cases hx : x.result with
  | error err =>
    rw [bind_of_error (f := f) hx, bind_of_error (f := fun a => f a >>= g) hx]
    exact bind_of_error rfl
  | ok a =>
    rw [bind_of_ok (f := f) hx, bind_of_ok (f := fun a => f a >>= g) hx]
    cases hf : (f a).result with
    | error err =>
      rw [bind_of_error (f := g) hf]
      exact bind_of_error rfl
    | ok b =>
      rw [bind_of_ok (f := g) hf]
      refine (bind_of_ok rfl).trans ?_
      simp only [List.append_assoc]

/-- A run without what it returns. -/
def forget (x : Run α) : Run Unit := x >>= fun _ => Pure.pure ()

theorem forget_bind (x : Run α) (f : α → Run β) : (x >>= f).forget = x >>= fun a => (f a).forget :=
  bind_assoc x f _

theorem forget_pure (a : α) : (Pure.pure a : Run α).forget = Pure.pure () := pure_bind a _

theorem forget_then (x : Run α) (y : Run β) : (x.forget >>= fun _ => y) = x >>= fun _ => y := by
  rw [forget, bind_assoc]
  simp only [pure_bind]

theorem lift_ok_bind (a : α) (f : α → Run β) : Run.lift (.ok a) >>= f = f a := pure_bind a f

theorem lift_error_bind (err : Raised) (f : α → Run β) :
    Run.lift (.error err) >>= f = ⟨[], .error err⟩ := bind_of_error rfl

end Run

/-- The names at the marks of a text. -/
def marked (pieces : List (Piece Char (List Char))) : List (List Char) :=
  pieces.filterMap fun piece =>
    match piece with
    | .mark name => some name
    | .char _ => none

theorem length_marked (pieces : List (Piece Char (List Char))) :
    (marked pieces).length = pieces.countP Scanner.isMark := by
  induction pieces with
  | nil => rfl
  | cons piece pieces ih =>
    cases piece with
    | char c => exact ih
    | mark name =>
      rw [List.countP_cons, ← ih]
      rfl

structure Reads {α : Type} (x : Run α) (names : List (List Char)) : Prop where
  ordered : x.reads <+: names
  returned : ∀ a, x.result = .ok a → x.reads = names

namespace Reads

variable {α β : Type} {x : Run α} {f : α → Run β} {names more : List (List Char)}

theorem pure (a : α) : Reads (Pure.pure a : Run α) [] := ⟨List.prefix_rfl, fun _ _ => rfl⟩

theorem lift (x : Except Raised α) : Reads (Run.lift x) [] := ⟨List.prefix_rfl, fun _ _ => rfl⟩

theorem bind (hx : Reads x names) (hf : ∀ a, x.result = .ok a → Reads (f a) more) :
    Reads (x >>= f) (names ++ more) := by
  cases hresult : x.result with
  | error err =>
    rw [Run.bind_of_error hresult]
    refine ⟨hx.ordered.trans (List.prefix_append names more), fun b h => ?_⟩
    cases h
  | ok a =>
    rw [Run.bind_of_ok hresult, hx.returned a hresult]
    exact ⟨(List.prefix_append_right_inj names).mpr (hf a hresult).ordered,
      fun b hb => congrArg (names ++ ·) ((hf a hresult).returned b hb)⟩

theorem bind_pure (hx : Reads x names) (f : α → β) : Reads (x >>= fun a => Pure.pure (f a)) names := by
  have h := hx.bind (f := fun a => Pure.pure (f a)) fun a _ => Reads.pure (f a)
  rwa [List.append_nil] at h

end Reads

theorem reads_fillEnv (env : Environment) (pieces : List (Piece Char (List Char))) :
    Reads (fillEnv env pieces) (marked pieces) := by
  induction pieces with
  | nil => exact Reads.pure []
  | cons piece pieces ih =>
    cases piece with
    | char c => exact ih.bind_pure (c :: ·)
    | mark name =>
      have hname : Reads (readEnv env name) [name] := ⟨List.prefix_rfl, fun _ _ => rfl⟩
      exact hname.bind fun value _ => ih.bind_pure (value ++ ·)

theorem fillEnv_returns {env : Environment} (h : ∀ name, env name ≠ none)
    (pieces : List (Piece Char (List Char))) :
    ∃ text, (fillEnv env pieces).result = .ok text := by
  induction pieces with
  | nil => exact ⟨[], rfl⟩
  | cons piece pieces ih =>
    obtain ⟨text, htext⟩ := ih
    cases piece with
    | char c =>
      rw [fillEnv, Run.bind_of_ok htext]
      exact ⟨_, rfl⟩
    | mark name =>
      obtain ⟨value, hvalue⟩ := Option.ne_none_iff_exists'.mp (h name)
      have hread : (readEnv env name).result = .ok value := by rw [readEnv, hvalue]
      rw [fillEnv, Run.bind_of_ok hread, Run.bind_of_ok htext]
      exact ⟨_, rfl⟩

theorem fillEnv_pure {α : Type} {env : Environment} (h : ∀ name, env name ≠ none)
    (pieces : List (Piece Char (List Char))) (f : List Char → α) :
    (fillEnv env pieces >>= fun text => (pure (f text) : Run α)).reads = marked pieces ∧
      ∃ value, (fillEnv env pieces >>= fun text => (pure (f text) : Run α)).result = .ok value := by
  obtain ⟨text, htext⟩ := fillEnv_returns h pieces
  rw [Run.bind_of_ok htext]
  exact ⟨(List.append_nil _).trans ((reads_fillEnv env pieces).returned text htext), _, rfl⟩

/-! ## What the values bring along -/

def Contained (values : Json) (template : List Char) : Prop :=
  wholePlaceholder template = none →
    ∀ filled, valuesAt host values (placeholders.scan template) = .ok filled →
      envPlaceholder.scan (filled.flatMap envPlaceholder.spell) = filled

def Provided (values : Json) (template : List Char) : Prop :=
  ∀ path, .mark (.inl path) ∈ placeholders.scan template →
    ∃ value, getPath host values path = .ok value

/-- Each of the strings in turn, to the first that lacks a value. -/
def ContainedAlong (values : Json) : List (List Char) → Prop
  | [] => True
  | template :: templates =>
    Contained host values template ∧
      (Provided host values template → ContainedAlong values templates)

section Leaf

variable {host} {values : Json} {env : Environment} {template : List Char}

theorem provided_iff {pieces : List (Piece Char (List Char ⊕ List Char))} :
    (∃ filled, valuesAt host values pieces = .ok filled) ↔
      ∀ path, .mark (.inl path) ∈ pieces → ∃ value, getPath host values path = .ok value := by
  induction pieces with
  | nil => exact iff_of_true ⟨[], rfl⟩ fun path h => absurd h List.not_mem_nil
  | cons piece pieces ih =>
    match piece with
    | .char c =>
      simp only [valuesAt, map_ok, List.mem_cons, reduceCtorEq, false_or, ← ih]
      exact ⟨fun ⟨_, rest, h, _⟩ => ⟨rest, h⟩, fun ⟨rest, h⟩ => ⟨_, rest, h, rfl⟩⟩
    | .mark (.inr name) =>
      simp only [valuesAt, map_ok, List.mem_cons, Piece.mark.injEq, reduceCtorEq, false_or, ← ih]
      exact ⟨fun ⟨_, rest, h, _⟩ => ⟨rest, h⟩, fun ⟨rest, h⟩ => ⟨_, rest, h, rfl⟩⟩
    | .mark (.inl path) =>
      simp only [valuesAt, bind_ok, pure_ok, List.mem_cons, Piece.mark.injEq, Sum.inl.injEq]
      constructor
      · rintro ⟨_, value, hvalue, rest, hrest, -⟩ other (rfl | hother)
        · exact ⟨value, hvalue⟩
        · exact ih.mp ⟨rest, hrest⟩ other hother
      · intro h
        obtain ⟨value, hvalue⟩ := h path (.inl rfl)
        obtain ⟨rest, hrest⟩ := ih.mpr fun other hother => h other (.inr hother)
        exact ⟨_, value, hvalue, rest, hrest, rfl⟩

theorem renderString_whole {path : List Char} (h : wholePlaceholder template = some path) :
    renderString host true env values template = .lift (getPath host values path) ∧
      simultaneous host env values template = .lift (getPath host values path) := by
  constructor
  · rw [renderString, h]
  · rw [simultaneous, wholePlaceholder_iff.mp h]

theorem renderString_of_not_whole (h : wholePlaceholder template = none) :
    renderString host true env values template =
      .lift (fillPaths host values (placeholder.scan template)) >>= fun rendered =>
        fillEnv env (envPlaceholder.scan rendered) >>= fun text =>
          pure (.str (String.ofList text)) := by
  rw [renderString, h]
  rfl

theorem simultaneous_of_not_whole (h : wholePlaceholder template = none) :
    simultaneous host env values template =
      .lift (valuesAt host values (placeholders.scan template)) >>= fun filled =>
        fillEnv env filled >>= fun text => pure (.str (String.ofList text)) := by
  unfold simultaneous
  split
  · rename_i path hscan
    rw [wholePlaceholder_iff.mpr hscan] at h
    cases h
  · rfl

/-- The two passes come to the replacement at once where the values bring nothing along. -/
theorem renderString_eq (h : Contained host values template) :
    renderString host true env values template = simultaneous host env values template := by
  cases hwhole : wholePlaceholder template with
  | some path => rw [(renderString_whole hwhole).1, (renderString_whole hwhole).2]
  | none =>
    rw [renderString_of_not_whole hwhole, simultaneous_of_not_whole hwhole, fillPaths_scan]
    cases hvalues : valuesAt host values (placeholders.scan template) with
    | error err => rfl
    | ok filled =>
      change (Run.lift (.ok (filled.flatMap envPlaceholder.spell)) >>= _) = _
      rw [Run.lift_ok_bind, Run.lift_ok_bind, h hwhole filled hvalues]

/-- A rendering that returns has found all its paths. -/
theorem provided_of_ok {value : Json}
    (h : (simultaneous host env values template).result = .ok value) :
    Provided host values template := by
  cases hwhole : wholePlaceholder template with
  | some path =>
    rw [(renderString_whole hwhole).2] at h
    intro other hother
    rw [wholePlaceholder_iff.mp hwhole, List.mem_singleton] at hother
    cases hother
    exact ⟨value, h⟩
  | none =>
    rw [simultaneous_of_not_whole hwhole] at h
    cases hvalues : valuesAt host values (placeholders.scan template) with
    | error err =>
      rw [hvalues, Run.lift_error_bind] at h
      cases h
    | ok filled => exact provided_iff.mp ⟨filled, hvalues⟩

/-- In a full environment both ways return together, the two passes read no less, and as much only
where the values bring nothing along. -/
theorem renderString_reads (henv : ∀ name, env name ≠ none) :
    (Provided host values template →
      (∃ value, (renderString host true env values template).result = .ok value) ∧
        ∃ value, (simultaneous host env values template).result = .ok value) ∧
    (¬ Provided host values template →
      (∃ err, (renderString host true env values template).result = .error err) ∧
        ∃ err, (simultaneous host env values template).result = .error err) ∧
    (simultaneous host env values template).reads.length ≤
      (renderString host true env values template).reads.length ∧
    ((renderString host true env values template).reads.length ≤
      (simultaneous host env values template).reads.length → Contained host values template) := by
  cases hwhole : wholePlaceholder template with
  | some path =>
    have hprovided : Provided host values template ↔
        ∃ value, getPath host values path = .ok value := by
      unfold Provided
      rw [wholePlaceholder_iff.mp hwhole]
      simp
    rw [(renderString_whole hwhole).1, (renderString_whole hwhole).2, hprovided]
    refine ⟨fun h => ⟨h, h⟩, fun h => ?_, le_rfl, fun _ hnone => ?_⟩
    · cases hpath : getPath host values path with
      | ok value => exact absurd ⟨value, hpath⟩ h
      | error err => exact ⟨⟨err, rfl⟩, err, rfl⟩
    · rw [hwhole] at hnone
      cases hnone
  | none =>
    rw [renderString_of_not_whole hwhole, simultaneous_of_not_whole hwhole, fillPaths_scan]
    cases hvalues : valuesAt host values (placeholders.scan template) with
    | error err =>
      have hnot : ¬ Provided host values template := by
        intro h
        obtain ⟨filled, hfilled⟩ := provided_iff.mpr h
        rw [hvalues] at hfilled
        cases hfilled
      refine ⟨fun h => absurd h hnot, fun _ => ⟨⟨err, rfl⟩, err, rfl⟩, le_rfl, fun _ _ filled h => ?_⟩
      rw [hvalues] at h
      cases h
    | ok filled =>
      have hprovided : Provided host values template := provided_iff.mp ⟨filled, hvalues⟩
      have hcode : (Run.lift ((Except.ok filled : Except Raised _).map
          (·.flatMap envPlaceholder.spell)) >>= fun rendered =>
            fillEnv env (envPlaceholder.scan rendered) >>= fun text =>
              pure (Json.str (String.ofList text))) =
          fillEnv env (envPlaceholder.scan (filled.flatMap envPlaceholder.spell)) >>= fun text =>
            pure (Json.str (String.ofList text)) := rfl
      obtain ⟨hreads, value, hvalue⟩ :=
        fillEnv_pure henv (envPlaceholder.scan (filled.flatMap envPlaceholder.spell))
          fun text => Json.str (String.ofList text)
      obtain ⟨hreads', value', hvalue'⟩ :=
        fillEnv_pure henv filled fun text => Json.str (String.ofList text)
      have hcount := Scanner.countP_le_scan env_apart
        (valid_valuesAt host (Scanner.valid_scan (s := placeholders) template) hvalues)
      rw [hcode, Run.lift_ok_bind, hreads, hreads', length_marked, length_marked]
      refine ⟨fun _ => ⟨⟨value, hvalue⟩, value', hvalue'⟩, fun h => absurd hprovided h, hcount.1,
        fun hle _ other hother => ?_⟩
      obtain rfl := Except.ok.inj (hvalues.symm.trans hother)
      exact (hcount.2 hle).symm

end Leaf

/-! ## Trees -/

mutual

/-- The strings of a tree, in the order in which they are rendered. -/
def Tree.texts : Tree → List (List Char)
  | .text template => [template]
  | .value _ => []
  | .list items => textsItems items
  | .tuple items => textsItems items
  | .dict entries => textsEntries entries

def textsItems : List Tree → List (List Char)
  | [] => []
  | item :: items => item.texts ++ textsItems items

def textsEntries : List (String × Tree) → List (List Char)
  | [] => []
  | (_, item) :: entries => item.texts ++ textsEntries entries

end

/-- The runs of several strings, one after the other. -/
def runAll (f : List Char → Run Json) : List (List Char) → Run Unit
  | [] => pure ()
  | template :: templates => (f template).forget >>= fun _ => runAll f templates

/-- Two ways of rendering that are the same, as far as the first of them gets. -/
def AgreeAlong (f g : List Char → Run Json) : List (List Char) → Prop
  | [] => True
  | template :: templates =>
    f template = g template ∧ ((∃ value, (f template).result = .ok value) → AgreeAlong f g templates)

section Trees

variable {f g : List Char → Run Json}

theorem runAll_append (xs ys : List (List Char)) :
    runAll f (xs ++ ys) = runAll f xs >>= fun _ => runAll f ys := by
  induction xs with
  | nil => exact (Run.pure_bind () fun _ => runAll f ys).symm
  | cons x xs ih =>
    rw [List.cons_append, runAll, runAll, Run.bind_assoc, ih]

mutual

/-- A rendering reads what its strings read, one after the other. -/
theorem forget_traverse (t : Tree) : (t.traverse f).forget = runAll f t.texts := by
  match t with
  | .text template =>
    rw [Tree.traverse, Run.forget_bind]
    simp only [Run.forget_pure]
    rw [Tree.texts, runAll, runAll, Run.forget_then]
  | .value value => rfl
  | .list items =>
    rw [Tree.traverse, Run.forget_bind]
    simp only [Run.forget_pure]
    exact forget_traverseItems items
  | .tuple items =>
    rw [Tree.traverse, Run.forget_bind]
    simp only [Run.forget_pure]
    exact forget_traverseItems items
  | .dict entries =>
    rw [Tree.traverse, Run.forget_bind]
    simp only [Run.forget_pure]
    exact forget_traverseEntries entries

theorem forget_traverseItems (items : List Tree) :
    (traverseItems f items).forget = runAll f (textsItems items) := by
  match items with
  | [] => rfl
  | item :: items =>
    rw [traverseItems, Run.forget_bind, textsItems, runAll_append, ← forget_traverse item,
      ← forget_traverseItems items, Run.forget_then]
    simp only [Run.forget_bind, Run.forget_pure]
    rfl

theorem forget_traverseEntries (entries : List (String × Tree)) :
    (traverseEntries f entries).forget = runAll f (textsEntries entries) := by
  match entries with
  | [] => rfl
  | (key, item) :: entries =>
    rw [traverseEntries, Run.forget_bind, textsEntries, runAll_append, ← forget_traverse item,
      ← forget_traverseEntries entries, Run.forget_then]
    simp only [Run.forget_bind, Run.forget_pure]
    rfl

end

theorem agreeAlong_append {xs ys : List (List Char)} (h : AgreeAlong f g (xs ++ ys)) :
    AgreeAlong f g xs ∧ ((∃ done, (runAll f xs).result = .ok done) → AgreeAlong f g ys) := by
  induction xs with
  | nil => exact ⟨trivial, fun _ => h⟩
  | cons x xs ih =>
    obtain ⟨heq, hrest⟩ := h
    refine ⟨⟨heq, fun hx => (ih (hrest hx)).1⟩, fun hall => ?_⟩
    obtain ⟨done, hdone⟩ := hall
    rw [runAll, Run.forget_then] at hdone
    cases hx : (f x).result with
    | error err =>
      rw [Run.bind_of_error hx] at hdone
      cases hdone
    | ok value =>
      rw [Run.bind_of_ok hx] at hdone
      exact (ih (hrest ⟨value, hx⟩)).2 ⟨done, hdone⟩

theorem Run.bind_congr {α β : Type} {x : Run α} {k k' : α → Run β}
    (h : ∀ a, x.result = .ok a → k a = k' a) : x >>= k = x >>= k' := by
  cases hx : x.result with
  | error err => rw [Run.bind_of_error hx, Run.bind_of_error hx]
  | ok a => rw [Run.bind_of_ok hx, Run.bind_of_ok hx, h a hx]

theorem ok_of_forget {α : Type} {x : Run α} {a : α} (h : x.result = .ok a) :
    ∃ done, x.forget.result = .ok done := by
  rw [Run.forget, Run.bind_of_ok h]
  exact ⟨(), rfl⟩

mutual

theorem traverse_congr (t : Tree) (h : AgreeAlong f g t.texts) : t.traverse f = t.traverse g := by
  match t with
  | .text template =>
    rw [Tree.traverse, Tree.traverse, h.1]
  | .value value => rfl
  | .list items =>
    rw [Tree.traverse, Tree.traverse, traverseItems_congr items h]
  | .tuple items =>
    rw [Tree.traverse, Tree.traverse, traverseItems_congr items h]
  | .dict entries =>
    rw [Tree.traverse, Tree.traverse, traverseEntries_congr entries h]

theorem traverseItems_congr (items : List Tree) (h : AgreeAlong f g (textsItems items)) :
    traverseItems f items = traverseItems g items := by
  match items with
  | [] => rfl
  | item :: items =>
    obtain ⟨hitem, hitems⟩ := agreeAlong_append h
    rw [traverseItems, traverseItems, ← traverse_congr item hitem]
    refine Run.bind_congr fun value hvalue => ?_
    rw [traverseItems_congr items (hitems (forget_traverse item ▸ ok_of_forget hvalue))]

theorem traverseEntries_congr (entries : List (String × Tree))
    (h : AgreeAlong f g (textsEntries entries)) :
    traverseEntries f entries = traverseEntries g entries := by
  match entries with
  | [] => rfl
  | (key, item) :: entries =>
    obtain ⟨hitem, hentries⟩ := agreeAlong_append h
    rw [traverseEntries, traverseEntries, ← traverse_congr item hitem]
    refine Run.bind_congr fun value hvalue => ?_
    rw [traverseEntries_congr entries (hentries (forget_traverse item ▸ ok_of_forget hvalue))]

end

end Trees

/-! ## The whole template -/

/-- The template with every placeholder replaced at once. -/
def Tree.simultaneous (env : Environment) (values : Json) (template : Tree) : Run Tree :=
  template.traverse (Executors.simultaneous host env values)

section Whole

variable {host} {values : Json} {env : Environment}

theorem agree_of_contained {templates : List (List Char)}
    (h : ContainedAlong host values templates) :
    AgreeAlong (renderString host true env values) (simultaneous host env values) templates := by
  induction templates with
  | nil => trivial
  | cons template templates ih =>
    have heq : renderString host true env values template = simultaneous host env values template :=
      renderString_eq h.1
    refine ⟨heq, ?_⟩
    rintro ⟨value, hvalue⟩
    rw [heq] at hvalue
    exact ih (h.2 (provided_of_ok hvalue))

/-- In a full environment the two passes read no less along a list, and as much only where the values
bring nothing along. -/
theorem runAll_reads (henv : ∀ name, env name ≠ none) (templates : List (List Char)) :
    (runAll (simultaneous host env values) templates).reads.length ≤
        (runAll (renderString host true env values) templates).reads.length ∧
      ((runAll (renderString host true env values) templates).reads.length ≤
          (runAll (simultaneous host env values) templates).reads.length →
        ContainedAlong host values templates) := by
  induction templates with
  | nil => exact ⟨le_rfl, fun _ => trivial⟩
  | cons template templates ih =>
    obtain ⟨hok, herror, hle, hcontained⟩ :=
      @renderString_reads host values env template henv
    rw [runAll, runAll, Run.forget_then, Run.forget_then]
    by_cases hprovided : Provided host values template
    · obtain ⟨⟨value, hvalue⟩, value', hvalue'⟩ := hok hprovided
      rw [Run.bind_of_ok hvalue, Run.bind_of_ok hvalue']
      simp only [List.length_append]
      refine ⟨by omega, fun h => ⟨hcontained (by omega), fun _ => ih.2 (by omega)⟩⟩
    · obtain ⟨⟨err, herr⟩, err', herr'⟩ := herror hprovided
      rw [Run.bind_of_error herr, Run.bind_of_error herr']
      exact ⟨hle, fun h => ⟨hcontained h, fun h' => absurd h' hprovided⟩⟩

theorem reads_forget {α : Type} (x : Run α) : x.forget.reads = x.reads := by
  cases hx : x.result with
  | error err => rw [Run.forget, Run.bind_of_error hx]
  | ok a =>
    rw [Run.forget, Run.bind_of_ok hx]
    exact List.append_nil _

/-- The two passes are the replacement at once in every environment just when the values bring no
environment placeholder along. -/
theorem render_eq_iff (template : Tree) :
    (∀ env, render host true env values template = template.simultaneous host env values) ↔
      ContainedAlong host values template.texts := by
  constructor
  · intro h
    have hfull : ∀ name, (fun _ => some [] : Environment) name ≠ none :=
      fun _ => Option.some_ne_none []
    refine (runAll_reads hfull template.texts).2 ?_
    rw [← forget_traverse, ← forget_traverse, reads_forget, reads_forget]
    exact (congrArg (fun run => run.reads.length) (h fun _ => some [])).le
  · exact fun h env => traverse_congr template (agree_of_contained h)

/-- The values that are put in have no environment names. -/
theorem marked_valuesAt {pieces : List (Piece Char (List Char ⊕ List Char))}
    {filled : List (Piece Char (List Char))} (h : valuesAt host values pieces = .ok filled) :
    marked filled = pieces.filterMap envName := by
  induction pieces generalizing filled with
  | nil =>
    obtain rfl := Except.ok.inj h
    rfl
  | cons piece pieces ih =>
    match piece, h with
    | .char c, h =>
      obtain ⟨rest, hvalues, rfl⟩ := map_ok.mp h
      have hrest := ih hvalues
      exact hrest
    | .mark (.inr name), h =>
      obtain ⟨rest, hvalues, rfl⟩ := map_ok.mp h
      exact congrArg (name :: ·) (ih hvalues)
    | .mark (.inl path), h =>
      rw [valuesAt] at h
      obtain ⟨value, -, h⟩ := bind_ok.mp h
      obtain ⟨rest, hvalues, h⟩ := bind_ok.mp h
      obtain rfl := Except.ok.inj h
      have hchars : marked ((stringify host value).map Piece.char) = [] := by
        rw [marked, List.filterMap_map]
        exact List.filterMap_eq_nil_iff.mpr fun c _ => rfl
      have hrest := ih hvalues
      rw [marked] at hchars hrest ⊢
      rw [List.filterMap_append, hchars, hrest]
      rfl

theorem reads_simultaneous (env : Environment) (values : Json) (template : List Char) :
    Reads (simultaneous host env values template) (envNames template) := by
  cases hwhole : wholePlaceholder template with
  | some path =>
    rw [(renderString_whole hwhole).2, envNames, wholePlaceholder_iff.mp hwhole]
    exact Reads.lift _
  | none =>
    rw [simultaneous_of_not_whole hwhole, envNames]
    refine (Reads.lift _).bind fun filled hfilled => ?_
    rw [← marked_valuesAt hfilled]
    exact (reads_fillEnv env filled).bind_pure _

theorem reads_runAll {f : List Char → Run Json} {names : List Char → List (List Char)}
    (h : ∀ template, Reads (f template) (names template)) (templates : List (List Char)) :
    Reads (runAll f templates) (templates.flatMap names) := by
  induction templates with
  | nil => exact Reads.pure ()
  | cons template templates ih =>
    rw [runAll, Run.forget_then, List.flatMap_cons]
    exact (h template).bind fun _ _ => ih

theorem Reads.of_forget {α : Type} {x : Run α} {names : List (List Char)}
    (h : Reads x.forget names) : Reads x names := by
  refine ⟨reads_forget x ▸ h.ordered, fun a ha => ?_⟩
  obtain ⟨done, hdone⟩ := ok_of_forget ha
  exact reads_forget x ▸ h.returned done hdone

def Tree.envNames (template : Tree) : List (List Char) :=
  template.texts.flatMap Executors.envNames

theorem Tree.reads_simultaneous (env : Environment) (values : Json) (template : Tree) :
    Reads (template.simultaneous host env values) template.envNames := by
  refine Reads.of_forget ?_
  rw [Tree.simultaneous, forget_traverse]
  exact reads_runAll (Executors.reads_simultaneous env values) template.texts

end Whole

/-- What the values of two actions leave to the template: each is put at its paths and nowhere else,
and the environment is read at the names of the template, all of them by a rendering that returns. -/
structure Lawful (values values' : Json) (template : Tree) : Prop where
  replaced : ∀ env, render host true env values template = template.simultaneous host env values
  replaced' : ∀ env, render host true env values' template = template.simultaneous host env values'
  names : ∀ env, Reads (render host true env values template) template.envNames
  names' : ∀ env, Reads (render host true env values' template) template.envNames

/-- Values are text just when none brings an environment placeholder along. -/
theorem render_lawful_iff (values values' : Json) (template : Tree) :
    Lawful host values values' template ↔
      ContainedAlong host values template.texts ∧ ContainedAlong host values' template.texts := by
  constructor
  · exact fun h => ⟨(render_eq_iff template).mp h.replaced, (render_eq_iff template).mp h.replaced'⟩
  · rintro ⟨h, h'⟩
    have hreplaced := (render_eq_iff template).mpr h
    have hreplaced' := (render_eq_iff template).mpr h'
    refine ⟨hreplaced, hreplaced', fun env => ?_, fun env => ?_⟩
    · rw [hreplaced env]
      exact Tree.reads_simultaneous env values template
    · rw [hreplaced' env]
      exact Tree.reads_simultaneous env values' template

/-- A host for texts, where no other value is put into a template. -/
def plainHost : HostText where
  isdigit text := text ≠ [] ∧ text.all Char.isDigit
  int _ := none
  dumps _ := []

def noteHeader : Tree := .dict [("X-Note", .text "note \x7binput.note\x7d".toList)]

def actionWith (note : String) : Json := .obj [("input", .obj [("note", .str note)])]

/-- A note reads and sends a variable which the template does not name. -/
theorem note_reads_secret :
    noteHeader.envNames = [] ∧
    (render plainHost true (fun _ => some "s3cret".toList) (actionWith "$\x7bENV:SECRET\x7d")
      noteHeader).reads = ["SECRET".toList] ∧
    (render plainHost true (fun _ => some "s3cret".toList) (actionWith "hello") noteHeader).reads =
      [] ∧
    ¬ Lawful plainHost (actionWith "hello") (actionWith "$\x7bENV:SECRET\x7d") noteHeader := by
  have hnames : noteHeader.envNames = [] := by decide +kernel
  have hreads : (render plainHost true (fun _ => some "s3cret".toList)
      (actionWith "$\x7bENV:SECRET\x7d") noteHeader).reads = ["SECRET".toList] := by
    decide +kernel
  refine ⟨hnames, hreads, by decide +kernel, fun h => ?_⟩
  have hordered := (h.names' fun _ => some "s3cret".toList).ordered
  rw [hnames, hreads] at hordered
  exact absurd (List.prefix_nil.mp hordered) (List.cons_ne_nil _ _)

end AeepRouter.Executors

import Mathlib.Tactic

/-!
# Templates and the patterns made of them

A template is a list of literals, some of them before a field. `render` puts the values of the
fields in. `named` is the pattern that captures each field and refers back to it where it comes
again, `loose` the one that lets every place have a text of its own. Where the texts of fields have
one length, a match of `named` is a rendering (`fullmatch_named_iff`) and one of `loose` a filling
(`fullmatch_loose_iff`).
-/

namespace AeepRouter.Lib

/-- The texts a field may have: all of one length. -/
structure Token (α : Type) where
  width : ℕ
  valid : List α → Bool
  length_of_valid : ∀ text, valid text = true → text.length = width

inductive Atom (α ν : Type) where
  | literal (text : List α)
  | token
  | group (name : ν)
  | backref (name : ν)
  deriving DecidableEq, Repr

structure Segment (α ν : Type) where
  literal : List α
  field : Option ν
  deriving DecidableEq, Repr

section Templates

variable {α ν : Type}

/-- The fields of a template, as often as they come. -/
def names (segments : List (Segment α ν)) : List ν := segments.filterMap (·.field)

def render (values : ν → List α) : List (Segment α ν) → List α
  | [] => []
  | ⟨literal, none⟩ :: rest => literal ++ render values rest
  | ⟨literal, some name⟩ :: rest => literal ++ (values name ++ render values rest)

inductive Filled (tok : Token α) : List (Segment α ν) → List α → Prop
  | nil : Filled tok [] []
  | text {literal rest more} : Filled tok rest more → Filled tok (⟨literal, none⟩ :: rest) (literal ++ more)
  | field {literal name rest token more} : tok.valid token = true → Filled tok rest more →
      Filled tok (⟨literal, some name⟩ :: rest) (literal ++ (token ++ more))

theorem names_cons_some {literal : List α} {name : ν} {rest : List (Segment α ν)} :
    names (⟨literal, some name⟩ :: rest) = name :: names rest := rfl

theorem filled_render {tok : Token α} {values : ν → List α} {segments : List (Segment α ν)}
    (h : ∀ name ∈ names segments, tok.valid (values name) = true) :
    Filled tok segments (render values segments) := by
  induction segments with
  | nil => exact .nil
  | cons segment rest ih =>
    obtain ⟨literal, _ | name⟩ := segment
    · exact .text (ih h)
    · rw [names_cons_some, List.forall_mem_cons] at h
      exact .field h.1 (ih h.2)

theorem render_congr {values values' : ν → List α} {segments : List (Segment α ν)}
    (h : ∀ name ∈ names segments, values name = values' name) :
    render values segments = render values' segments := by
  induction segments with
  | nil => rfl
  | cons segment rest ih =>
    obtain ⟨literal, _ | name⟩ := segment
    · simp only [render]
      rw [ih h]
    · rw [names_cons_some, List.forall_mem_cons] at h
      simp only [render]
      rw [h.1, ih h.2]

end Templates

section Captures

variable {α ν : Type} [DecidableEq ν]

/-- The fields in the order in which they come first. -/
def fresh (seen : List ν) : List (Segment α ν) → List ν
  | [] => []
  | ⟨_, none⟩ :: rest => fresh seen rest
  | ⟨_, some name⟩ :: rest =>
    if name ∈ seen then fresh seen rest else name :: fresh (name :: seen) rest

theorem mem_fresh {seen : List ν} {segments : List (Segment α ν)} {name : ν} :
    name ∈ fresh seen segments ↔ name ∈ names segments ∧ name ∉ seen := by
  induction segments generalizing seen with
  | nil => simp [fresh, names]
  | cons segment rest ih =>
    obtain ⟨literal, _ | other⟩ := segment
    · exact ih
    · rw [names_cons_some, fresh]
      split_ifs with hseen
      · rw [ih, List.mem_cons]
        refine ⟨fun h => ⟨.inr h.1, h.2⟩, ?_⟩
        rintro ⟨rfl | h, hnot⟩
        · exact absurd hseen hnot
        · exact ⟨h, hnot⟩
      · rw [List.mem_cons, ih, List.mem_cons, List.mem_cons]
        constructor
        · rintro (rfl | ⟨h, hnot⟩)
          · exact ⟨.inl rfl, hseen⟩
          · exact ⟨.inr h, fun hmem => hnot (.inr hmem)⟩
        · rintro ⟨rfl | h, hnot⟩
          · exact .inl rfl
          · rcases eq_or_ne name other with rfl | hne
            · exact .inl rfl
            · exact .inr ⟨h, not_or.mpr ⟨hne, hnot⟩⟩

/-- The values agree with what has been captured. -/
def Captures (captured : List (ν × List α)) (values : ν → List α) : Prop :=
  ∀ name value, captured.lookup name = some value → values name = value

theorem lookup_concat {captured : List (ν × List α)} {name other : ν} {value : List α} :
    (captured ++ [(name, value)]).lookup other =
      (captured.lookup other).or (if other = name then some value else none) := by
  rw [List.lookup_append, List.lookup_cons, List.lookup_nil]
  by_cases h : other = name
  · simp [h]
  · have hbeq : (other == name) = false := beq_false_of_ne h
    simp [h, hbeq]

/-- One more field is kept, where it was not captured before. -/
theorem keeps_concat_iff {captured : List (ν × List α)} {name : ν} {value : List α}
    {values : ν → List α} (h : captured.lookup name = none) :
    Captures (captured ++ [(name, value)]) values ↔ Captures captured values ∧ values name = value := by
  unfold Captures
  simp only [lookup_concat]
  constructor
  · intro hkeeps
    refine ⟨fun other found hfound => hkeeps other found (by rw [hfound, Option.some_or]), ?_⟩
    exact hkeeps name value (by rw [h, Option.none_or, if_pos rfl])
  · rintro ⟨hkeeps, hvalue⟩ other found hfound
    rcases Option.or_eq_some_iff.mp hfound with hcaptured | ⟨-, hnew⟩
    · exact hkeeps other found hcaptured
    · rw [Option.ite_none_right_eq_some] at hnew
      rw [hnew.1, hvalue]
      exact Option.some_inj.mp hnew.2

end Captures

section Matching

variable {α ν : Type} (tok : Token α)

/-- A token off the front of a text. -/
def Token.read (text : List α) : Option (List α × List α) :=
  if tok.valid (text.take tok.width) then some (text.take tok.width, text.drop tok.width) else none

variable {tok} in
theorem Token.read_eq_some {text token more : List α} :
    tok.read text = some (token, more) ↔ tok.valid token = true ∧ text = token ++ more := by
  unfold Token.read
  constructor
  · intro h
    split_ifs at h with hvalid
    obtain ⟨rfl, rfl⟩ := Prod.mk.injEq .. ▸ Option.some_inj.mp h
    exact ⟨hvalid, (List.take_append_drop _ _).symm⟩
  · rintro ⟨hvalid, rfl⟩
    rw [← tok.length_of_valid token hvalid, List.take_left, List.drop_left, if_pos hvalid]

variable [DecidableEq α] [DecidableEq ν]

/-- A literal off the front of a text. -/
def strip (literal text : List α) : Option (List α) :=
  if text.take literal.length = literal then some (text.drop literal.length) else none

/-- `re.fullmatch`, of patterns whose every part has one length to match; what it captures, in order. -/
def fullmatch : List (Atom α ν) → List (ν × List α) → List α → Option (List (ν × List α))
  | [], captured, text => if text = [] then some captured else none
  | .literal literal :: rest, captured, text =>
    (strip literal text).bind fun more => fullmatch rest captured more
  | .token :: rest, captured, text =>
    (tok.read text).bind fun taken => fullmatch rest captured taken.2
  | .group name :: rest, captured, text =>
    (tok.read text).bind fun taken => fullmatch rest (captured ++ [(name, taken.1)]) taken.2
  | .backref name :: rest, captured, text =>
    (captured.lookup name).bind fun value =>
      (strip value text).bind fun more => fullmatch rest captured more

/-- Each field captured where it comes first, and referred back to after that. -/
def named (seen : List ν) : List (Segment α ν) → List (Atom α ν)
  | [] => []
  | ⟨literal, none⟩ :: rest => .literal literal :: named seen rest
  | ⟨literal, some name⟩ :: rest =>
    if name ∈ seen then .literal literal :: .backref name :: named seen rest
    else .literal literal :: .group name :: named (name :: seen) rest

/-- Each place of a field for itself. -/
def loose : List (Segment α ν) → List (Atom α ν)
  | [] => []
  | ⟨literal, none⟩ :: rest => .literal literal :: loose rest
  | ⟨literal, some _⟩ :: rest => .literal literal :: .token :: loose rest

variable {tok}

theorem strip_eq_some {literal text more : List α} :
    strip literal text = some more ↔ text = literal ++ more := by
  unfold strip
  constructor
  · intro h
    split_ifs at h with htake
    rw [← Option.some_inj.mp h]
    exact (List.take_append_drop literal.length text).symm.trans (by rw [htake])
  · rintro rfl
    simp

theorem fullmatch_loose_iff {segments : List (Segment α ν)} {captured result : List (ν × List α)}
    {text : List α} :
    fullmatch tok (loose segments) captured text = some result ↔
      captured = result ∧ Filled tok segments text := by
  induction segments generalizing text with
  | nil =>
    simp only [loose, fullmatch, Option.ite_none_right_eq_some, Option.some_inj]
    constructor
    · rintro ⟨rfl, rfl⟩
      exact ⟨rfl, .nil⟩
    · rintro ⟨rfl, ⟨⟩⟩
      exact ⟨rfl, rfl⟩
  | cons segment rest ih =>
    obtain ⟨literal, _ | name⟩ := segment
    · simp only [loose, fullmatch, Option.bind_eq_some_iff, strip_eq_some, ih]
      constructor
      · rintro ⟨more, rfl, rfl, hmore⟩
        exact ⟨rfl, .text hmore⟩
      · rintro ⟨rfl, hfilled⟩
        cases hfilled with
        | text hmore => exact ⟨_, rfl, rfl, hmore⟩
    · simp only [loose, fullmatch, Option.bind_eq_some_iff, strip_eq_some, Prod.exists,
        Token.read_eq_some, ih]
      constructor
      · rintro ⟨_, rfl, token, more, ⟨hvalid, rfl⟩, rfl, hmore⟩
        exact ⟨rfl, .field hvalid hmore⟩
      · rintro ⟨rfl, hfilled⟩
        cases hfilled with
        | field hvalid hmore => exact ⟨_, rfl, _, _, ⟨hvalid, rfl⟩, rfl, hmore⟩

theorem fullmatch_named_iff {segments : List (Segment α ν)} {seen : List ν}
    {captured result : List (ν × List α)} {text : List α}
    (hseen : ∀ name, name ∈ seen ↔ captured.lookup name ≠ none) :
    fullmatch tok (named seen segments) captured text = some result ↔
      ∃ values, Captures captured values ∧ (∀ name ∈ fresh seen segments, tok.valid (values name)) ∧
        render values segments = text ∧
          captured ++ (fresh seen segments).map (fun name => (name, values name)) = result := by
  induction segments generalizing seen captured text with
  | nil =>
    simp only [named, fullmatch, fresh, render, List.map_nil, List.append_nil, List.not_mem_nil,
      Option.ite_none_right_eq_some, Option.some_inj]
    constructor
    · rintro ⟨rfl, rfl⟩
      refine ⟨fun name => (captured.lookup name).getD [], ?_, by simp, rfl, rfl⟩
      intro name value hvalue
      simp [hvalue]
    · rintro ⟨_, _, _, rfl, rfl⟩
      exact ⟨rfl, rfl⟩
  | cons segment rest ih =>
    obtain ⟨literal, _ | name⟩ := segment
    · simp only [named, fullmatch, fresh, render, Option.bind_eq_some_iff, strip_eq_some, ih hseen]
      constructor
      · rintro ⟨_, rfl, values, hkeeps, hvalid, rfl, hresult⟩
        exact ⟨values, hkeeps, hvalid, rfl, hresult⟩
      · rintro ⟨values, hkeeps, hvalid, rfl, hresult⟩
        exact ⟨_, rfl, values, hkeeps, hvalid, rfl, hresult⟩
    · by_cases hname : name ∈ seen
      · obtain ⟨value, hvalue⟩ := Option.ne_none_iff_exists'.mp ((hseen name).mp hname)
        simp only [named, fresh, if_pos hname, fullmatch, render, Option.bind_eq_some_iff,
          strip_eq_some, ih hseen, hvalue, Option.some_inj]
        constructor
        · rintro ⟨_, rfl, _, rfl, _, rfl, values, hkeeps, hvalid, rfl, hresult⟩
          exact ⟨values, hkeeps, hvalid, by rw [hkeeps name value hvalue], hresult⟩
        · rintro ⟨values, hkeeps, hvalid, rfl, hresult⟩
          exact ⟨_, rfl, value, rfl, _, by rw [hkeeps name value hvalue], values, hkeeps, hvalid,
            rfl, hresult⟩
      · have hnone : captured.lookup name = none := not_ne_iff.mp fun h => hname ((hseen name).mpr h)
        have hseen' : ∀ token : List α, ∀ other, other ∈ name :: seen ↔
            (captured ++ [(name, token)]).lookup other ≠ none := by
          intro token other
          rw [List.mem_cons, hseen, lookup_concat]
          by_cases hother : other = name <;> simp [hother]
        simp only [named, fresh, if_neg hname, fullmatch, render, Option.bind_eq_some_iff,
          strip_eq_some, Prod.exists, Token.read_eq_some]
        constructor
        · rintro ⟨_, rfl, token, _, ⟨htoken, rfl⟩, hmatch⟩
          obtain ⟨values, hkeeps, hvalid, rfl, rfl⟩ := (ih (hseen' token)).mp hmatch
          obtain ⟨hcaptured, rfl⟩ := (keeps_concat_iff hnone).mp hkeeps
          refine ⟨values, hcaptured, ?_, rfl, by simp⟩
          exact List.forall_mem_cons.mpr ⟨htoken, hvalid⟩
        · rintro ⟨values, hkeeps, hvalid, rfl, rfl⟩
          rw [List.forall_mem_cons] at hvalid
          refine ⟨_, rfl, values name, _, ⟨hvalid.1, rfl⟩, (ih (hseen' (values name))).mpr ?_⟩
          exact ⟨values, (keeps_concat_iff hnone).mpr ⟨hkeeps, rfl⟩, hvalid.2, rfl, by simp⟩

theorem fullmatch_iff {segments : List (Segment α ν)} {text : List α} {result : List (ν × List α)} :
    fullmatch tok (named [] segments) [] text = some result ↔
      ∃ values, (∀ name ∈ names segments, tok.valid (values name) = true) ∧
        render values segments = text ∧
          (fresh [] segments).map (fun name => (name, values name)) = result := by
  have hnames : ∀ name, name ∈ fresh [] segments ↔ name ∈ names segments := by
    intro name
    rw [mem_fresh]
    exact and_iff_left List.not_mem_nil
  rw [fullmatch_named_iff (by simp)]
  simp only [hnames, List.nil_append]
  constructor
  · rintro ⟨values, -, h⟩
    exact ⟨values, h⟩
  · rintro ⟨values, h⟩
    exact ⟨values, fun _ _ hnone => absurd hnone (by simp), h⟩

end Matching

end AeepRouter.Lib

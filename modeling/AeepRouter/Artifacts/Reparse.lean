import Mathlib
import AeepRouter.Artifacts.Download

/-!
# Reading a URL back

A URL with a scheme and a network location that was put together from its components is taken apart
into the same components (`urlparse_urlunparse`), and what `urlparse` finds in such a URL can be put
together again (`wellFormed_of_parse`), also at another network location. So a request asks for what
the visited URL names, only at the address (`pinned_request_reparsed`), and a redirect that names no
host stays at the origin (`relative_redirects_keep_origin`).
-/

namespace AeepRouter.Artifacts

open Lib

/-! ## Texts that are taken apart -/

section Texts

variable {c : Char} {before after text : Text} {p : Char → Bool}

theorem partition_of_notMem (h : c ∉ text) : partition c text = (text, false, []) := by
  have hall : ∀ x ∈ text, decide (x ≠ c) = true := fun x hx => by
    simpa using fun heq : x = c => h (heq ▸ hx)
  unfold partition
  rw [List.takeWhile_eq_self_iff.mpr hall, List.dropWhile_eq_nil_iff.mpr hall]
  simp [h]

theorem partition_append_cons (h : c ∉ before) :
    partition c (before ++ c :: after) = (before, true, after) := by
  have hall : ∀ x ∈ before, decide (x ≠ c) = true := fun x hx => by
    simpa using fun heq : x = c => h (heq ▸ hx)
  unfold partition
  rw [List.takeWhile_append_of_pos hall, List.dropWhile_append_of_pos hall]
  simp

/-- A part that is written only where it is not empty. -/
theorem partition_optional (h : c ∉ before) :
    partition c (before ++ if after = [] then [] else c :: after) =
      (before, decide (after ≠ []), after) := by
  split
  · rename_i hnone
    rw [List.append_nil, partition_of_notMem h, hnone]
    rfl
  · rename_i hsome
    rw [partition_append_cons h, decide_eq_true hsome]

theorem partition_cases (c : Char) (text : Text) :
    (c ∉ text ∧ partition c text = (text, false, [])) ∨
      ∃ before after, c ∉ before ∧ text = before ++ c :: after ∧
        partition c text = (before, true, after) := by
  by_cases hmem : c ∈ text
  · obtain ⟨before, after, rfl, hbefore⟩ := List.eq_append_cons_of_mem hmem
    exact .inr ⟨before, after, hbefore, rfl, partition_append_cons hbefore⟩
  · exact .inl ⟨hmem, partition_of_notMem hmem⟩

theorem partition_parts (c : Char) (text : Text) :
    c ∉ (partition c text).1 ∧ (partition c text).1 <+: text ∧ (partition c text).2.2 <:+ text := by
  rcases partition_cases c text with ⟨hnot, heq⟩ | ⟨before, after, hnot, rfl, heq⟩
  · rw [heq]
    exact ⟨hnot, List.prefix_rfl, List.nil_suffix⟩
  · rw [heq]
    exact ⟨hnot, List.prefix_append _ _,
      List.suffix_append_of_suffix (List.suffix_cons _ _)⟩

theorem head?_of_prefix (h : before <+: text) (hne : before ≠ []) : before.head? = text.head? := by
  obtain ⟨rest, rfl⟩ := h
  exact (List.head?_append_of_ne_nil _ hne).symm

theorem rdropWhile_append_rtakeWhile (p : Char → Bool) (text : Text) :
    text.rdropWhile p ++ text.rtakeWhile p = text := by
  unfold List.rdropWhile List.rtakeWhile
  rw [← List.reverse_append, List.takeWhile_append_dropWhile, List.reverse_reverse]

theorem rtakeWhile_append (h : ∀ x ∈ after, p x = true) :
    (before ++ after).rtakeWhile p = before.rtakeWhile p ++ after := by
  unfold List.rtakeWhile
  rw [List.reverse_append, List.takeWhile_append_of_pos fun x hx => h x (List.mem_reverse.mp hx),
    List.reverse_append, List.reverse_reverse]

theorem rdropWhile_append (h : ∀ x ∈ after, p x = true) :
    (before ++ after).rdropWhile p = before.rdropWhile p := by
  unfold List.rdropWhile
  rw [List.reverse_append, List.dropWhile_append_of_pos fun x hx => h x (List.mem_reverse.mp hx)]

theorem rtakeWhile_rdropWhile (p : Char → Bool) (text : Text) :
    (text.rdropWhile p).rtakeWhile p = [] := by
  unfold List.rdropWhile List.rtakeWhile
  rw [List.reverse_reverse, List.reverse_eq_nil_iff]
  cases hdrop : text.reverse.dropWhile p with
  | nil => rfl
  | cons x rest =>
    have hstop : ¬ p x = true := by
      have hhead := List.head_dropWhile_not (l := text.reverse) (p := p) (by simp [hdrop])
      simpa [hdrop] using hhead
    rw [List.takeWhile_cons, if_neg hstop]

theorem mem_rtakeWhile {x : Char} (h : x ∈ text.rtakeWhile p) : p x = true := by
  unfold List.rtakeWhile at h
  exact List.mem_takeWhile_imp (List.mem_reverse.mp h)

end Texts

/-! ## The parts of a URL with a network location -/

/-- What `urlparse` makes of a scheme, a network location and the text that follows it. -/
def components (scheme netloc tail : Text) : ParseResult :=
  let (url, _, fragment) := partition '#' tail
  let (path, _, query) := partition '?' url
  let (path, params) :=
    if String.ofList scheme ∈ usesParams ∧ ';' ∈ path then splitParams path else (path, [])
  ⟨scheme, netloc, path, params, query, fragment⟩

def ParseResult.fullPath (p : ParseResult) : Text :=
  if p.params = [] then p.path else p.path ++ ';' :: p.params

/-- The text as `urlparse` cleans it. -/
def cleaned (url : Text) : Text := (url.dropWhile isControlOrSpace).filter fun c => !isUnsafe c

variable (lib : TextLibrary)

/-- A scheme and a network location that `urlparse` finds again. -/
structure Authority (scheme netloc : Text) : Prop where
  first : scheme.head?.any Char.isAlpha = true
  schemeChars : ∀ c ∈ scheme, isSchemeChar c = true ∧ c.toLower = c
  nonempty : netloc ≠ []
  netlocChars : ∀ c ∈ netloc, c ≠ '/' ∧ c ≠ '?' ∧ c ≠ '#'
  kept : ∀ c ∈ netloc, isUnsafe c = false
  checked : checkBrackets lib netloc = true ∧ checkNetloc lib netloc = true

/-- The components of a URL with a scheme and a network location, which `urlparse` finds again. -/
structure WellFormed (p : ParseResult) : Prop where
  authority : Authority lib p.scheme p.netloc
  path : p.path = [] ∧ p.params = [] ∨ p.path.head? = some '/'
  pathChars : ∀ c ∈ p.path ++ p.params, c ≠ '?' ∧ c ≠ '#'
  segment : String.ofList p.scheme ∈ usesParams →
    ';' ∉ p.path.rtakeWhile (· ≠ '/') ∧ '/' ∉ p.params
  params : String.ofList p.scheme ∉ usesParams → p.params = []
  query : '#' ∉ p.query
  kept : ∀ c ∈ p.path ++ p.params ++ p.query ++ p.fragment, isUnsafe c = false

section Parts

variable {lib} {p : ParseResult} {scheme netloc tail rest url base : Text}

theorem urlparse_of_split (hscheme : splitScheme base (cleaned url) = (scheme, '/' :: '/' :: rest))
    (hnetloc : splitNetloc rest = (netloc, tail))
    (hchecked : checkBrackets lib netloc = true ∧ checkNetloc lib netloc = true) :
    urlparse lib url base = some (components scheme netloc tail) := by
  unfold urlparse components
  unfold cleaned at hscheme
  simp only [hscheme]
  simp [hnetloc, hchecked]

theorem fullPath_slash (h : WellFormed lib p) :
    p.fullPath = [] ∨ p.fullPath.head? = some '/' := by
  unfold ParseResult.fullPath
  rcases h.path with ⟨hpath, hparams⟩ | hslash
  · exact .inl (by rw [if_pos hparams, hpath])
  · obtain ⟨rest, hrest⟩ := List.head?_eq_some_iff.mp hslash
    right
    split
    · exact hslash
    · rw [hrest]
      rfl

theorem fullPath_chars (h : WellFormed lib p) : ∀ c ∈ p.fullPath, c ≠ '?' ∧ c ≠ '#' := by
  intro c hc
  unfold ParseResult.fullPath at hc
  split at hc
  · exact h.pathChars c (List.mem_append_left _ hc)
  · rcases List.mem_append.mp hc with hpath | hparams
    · exact h.pathChars c (List.mem_append_left _ hpath)
    · rcases List.mem_cons.mp hparams with rfl | hparams
      · exact ⟨by decide, by decide⟩
      · exact h.pathChars c (List.mem_append_right _ hparams)

theorem split_fullPath (h : WellFormed lib p) :
    (if String.ofList p.scheme ∈ usesParams ∧ ';' ∈ p.fullPath then splitParams p.fullPath
      else (p.fullPath, [])) = (p.path, p.params) := by
  by_cases huses : String.ofList p.scheme ∈ usesParams
  · obtain ⟨hsegment, hparams⟩ := h.segment huses
    have hall : ∀ c ∈ ';' :: p.params, decide (c ≠ '/') = true := by
      intro c hc
      rcases List.mem_cons.mp hc with rfl | hc
      · decide
      · simpa using fun heq : c = '/' => hparams (heq ▸ hc)
    by_cases hnone : p.params = []
    · rw [ParseResult.fullPath, if_pos hnone, hnone]
      split
      · unfold splitParams
        rw [partition_of_notMem hsegment]
        exact Prod.ext (rdropWhile_append_rtakeWhile _ _) rfl
      · rfl
    · have hmem : ';' ∈ p.path ++ ';' :: p.params := by simp
      rw [ParseResult.fullPath, if_neg hnone, if_pos ⟨huses, hmem⟩]
      unfold splitParams
      rw [rtakeWhile_append hall, rdropWhile_append hall, partition_append_cons hsegment]
      exact Prod.ext (rdropWhile_append_rtakeWhile _ _) rfl
  · rw [if_neg fun hboth => huses hboth.1, ParseResult.fullPath, if_pos (h.params huses),
      h.params huses]

theorem tail_eq (h : WellFormed lib p) :
    p.tail = p.fullPath ++ (if p.query = [] then [] else '?' :: p.query) ++
      if p.fragment = [] then [] else '#' :: p.fragment := by
  show (if p.fullPath = [] ∨ p.fullPath.head? = some '/' then p.fullPath else '/' :: p.fullPath) ++
    _ ++ _ = _
  rw [if_pos (fullPath_slash h)]

theorem components_tail (h : WellFormed lib p) : components p.scheme p.netloc p.tail = p := by
  have hquery : '?' ∉ p.fullPath := fun hmem => (fullPath_chars h _ hmem).1 rfl
  have hfragment : '#' ∉ p.fullPath ++ if p.query = [] then [] else '?' :: p.query := by
    intro hmem
    rcases List.mem_append.mp hmem with hpath | hmem
    · exact (fullPath_chars h _ hpath).2 rfl
    · split at hmem
      · exact List.not_mem_nil hmem
      · rcases List.mem_cons.mp hmem with heq | hmem
        · exact absurd heq (by decide)
        · exact h.query hmem
  unfold components
  rw [tail_eq h, partition_optional hfragment]
  dsimp only
  rw [partition_optional hquery]
  dsimp only
  rw [split_fullPath h]

theorem tail_kept (h : WellFormed lib p) : ∀ c ∈ p.tail, isUnsafe c = false := by
  have hpath : ∀ c ∈ p.fullPath, isUnsafe c = false := by
    intro c hc
    unfold ParseResult.fullPath at hc
    split at hc
    · exact h.kept c (by simp [hc])
    · rcases List.mem_append.mp hc with hc | hc
      · exact h.kept c (by simp [hc])
      · rcases List.mem_cons.mp hc with rfl | hc
        · decide
        · exact h.kept c (by simp [hc])
  have hoptional : ∀ (mark : Char) (text : Text), isUnsafe mark = false →
      (∀ c ∈ text, isUnsafe c = false) →
      ∀ c ∈ (if text = [] then [] else mark :: text), isUnsafe c = false := by
    intro mark text hmark htext c hc
    split at hc
    · exact absurd hc List.not_mem_nil
    · rcases List.mem_cons.mp hc with rfl | hc
      · exact hmark
      · exact htext c hc
  rw [tail_eq h]
  intro c hc
  rcases List.mem_append.mp hc with hc | hc
  · rcases List.mem_append.mp hc with hc | hc
    · exact hpath c hc
    · exact hoptional '?' p.query (by decide) (fun c hc => h.kept c (by simp [hc])) c hc
  · exact hoptional '#' p.fragment (by decide) (fun c hc => h.kept c (by simp [hc])) c hc

theorem isSchemeChar_plain {c : Char} (h : isSchemeChar c = true) :
    c ≠ ':' ∧ isUnsafe c = false := by
  constructor
  · rintro rfl
    cases h
  · by_contra hunsafe
    have hcases : c = '\t' ∨ c = '\r' ∨ c = '\n' := by
      rw [Bool.not_eq_false, isUnsafe] at hunsafe
      exact of_decide_eq_true hunsafe
    rcases hcases with rfl | rfl | rfl <;> cases h

theorem isAlpha_visible {c : Char} (h : c.isAlpha = true) : isControlOrSpace c = false := by
  simp only [Char.isAlpha, Char.isUpper, Char.isLower, ge_iff_le, UInt32.le_iff_toNat_le,
    Bool.or_eq_true, Bool.and_eq_true, decide_eq_true_eq] at h
  simp only [isControlOrSpace, decide_eq_false_iff_not, not_le]
  show 32 < c.val.toNat
  have hupper : 'A'.val.toNat = 65 := rfl
  have hlower : 'a'.val.toNat = 97 := rfl
  omega

theorem splitScheme_append (h : Authority lib scheme netloc) :
    splitScheme base (scheme ++ ':' :: rest) = (scheme, rest) := by
  have hcolon : ':' ∉ scheme := fun hmem => (isSchemeChar_plain (h.schemeChars _ hmem).1).1 rfl
  have hall : scheme.all isSchemeChar = true :=
    List.all_eq_true.mpr fun c hc => (h.schemeChars c hc).1
  have hlower : scheme.map Char.toLower = scheme :=
    (List.map_congr_left fun c hc => (h.schemeChars c hc).2).trans (List.map_id _)
  unfold splitScheme
  rw [partition_append_cons hcolon]
  simp only [h.first, hall, hlower, Bool.and_self, if_true]

theorem splitNetloc_append (hnetloc : ∀ c ∈ netloc, c ≠ '/' ∧ c ≠ '?' ∧ c ≠ '#')
    (htail : ∀ c ∈ tail.head?, c = '/' ∨ c = '?' ∨ c = '#') :
    splitNetloc (netloc ++ tail) = (netloc, tail) := by
  have hall : ∀ c ∈ netloc, decide (c ≠ '/' ∧ c ≠ '?' ∧ c ≠ '#') = true :=
    fun c hc => decide_eq_true (hnetloc c hc)
  unfold splitNetloc
  rw [List.span_eq_takeWhile_dropWhile, List.takeWhile_append_of_pos hall,
    List.dropWhile_append_of_pos hall]
  cases tail with
  | nil => simp
  | cons c rest =>
    have hstop : ¬ decide (c ≠ '/' ∧ c ≠ '?' ∧ c ≠ '#') = true := by
      have hc := htail c rfl
      simp only [decide_eq_true_eq, not_and_or, not_not, ne_eq]
      exact hc
    rw [List.takeWhile_cons, if_neg hstop, List.dropWhile_cons, if_neg hstop, List.append_nil]

/-- A text with a scheme and a network location, whatever follows them. -/
theorem urlparse_authority (h : Authority lib scheme netloc)
    (htail : ∀ c ∈ tail.head?, c = '/' ∨ c = '?' ∨ c = '#') :
    urlparse lib (scheme ++ [':', '/', '/'] ++ netloc ++ tail) base =
      some (components scheme netloc (tail.filter fun c => !isUnsafe c)) := by
  obtain ⟨first, more, rfl⟩ : ∃ first more, scheme = first :: more := by
    cases scheme with
    | nil => cases h.first
    | cons first more => exact ⟨first, more, rfl⟩
  have hscheme : (first :: more).filter (fun c => !isUnsafe c) = first :: more :=
    List.filter_eq_self.mpr fun c hc => by simpa using (isSchemeChar_plain (h.schemeChars c hc).1).2
  have hnetloc : netloc.filter (fun c => !isUnsafe c) = netloc :=
    List.filter_eq_self.mpr fun c hc => by simpa using h.kept c hc
  have hclean : cleaned (first :: more ++ [':', '/', '/'] ++ netloc ++ tail) =
      (first :: more) ++ ':' :: '/' :: '/' :: (netloc ++ tail.filter fun c => !isUnsafe c) := by
    have hvisible : ¬ isControlOrSpace first = true := by simpa using isAlpha_visible h.first
    unfold cleaned
    rw [List.append_assoc, List.append_assoc, List.cons_append, List.dropWhile_cons_of_neg hvisible,
      ← List.cons_append, List.filter_append, hscheme, List.filter_append, List.filter_append,
      hnetloc]
    rfl
  refine urlparse_of_split (by rw [hclean, splitScheme_append h])
    (splitNetloc_append h.netlocChars fun c hc => ?_) h.checked
  cases tail with
  | nil => cases hc
  | cons mark rest =>
    -- the character that ends the network location is not removed
    have hmark : isUnsafe mark = false := by
      rcases htail mark rfl with rfl | rfl | rfl <;> rfl
    rw [List.filter_cons_of_pos (by simpa using hmark)] at hc
    exact htail c hc

/-- A URL that is put together from its components is taken apart into them. -/
theorem urlparse_urlunparse (h : WellFormed lib p) : urlparse lib (urlunparse p) base = some p := by
  have hne : p.scheme ≠ [] := fun hnil => by
    have hfirst := h.authority.first
    rw [hnil] at hfirst
    cases hfirst
  have htail : p.tail.filter (fun c => !isUnsafe c) = p.tail :=
    List.filter_eq_self.mpr fun c hc => by simpa using tail_kept h c hc
  rw [urlunparse_of_netloc hne h.authority.nonempty, urlparse_authority h.authority (tail_head p),
    htail, components_tail h]

/-! ### What is found in a URL -/

theorem toLower_schemeChar {c : Char} (h : isSchemeChar c = true) :
    isSchemeChar c.toLower = true ∧ c.toLower.toLower = c.toLower ∧
      (c.isAlpha = true → c.toLower.isAlpha = true) := by
  have hall : ∀ n < 128, isSchemeChar (Char.ofNat n) = true →
      isSchemeChar (Char.ofNat n).toLower = true ∧
        (Char.ofNat n).toLower.toLower = (Char.ofNat n).toLower ∧
        ((Char.ofNat n).isAlpha = true → (Char.ofNat n).toLower.isAlpha = true) := by
    decide +kernel
  have hascii : c.toNat < 128 := by
    simp only [isSchemeChar, Char.isAlphanum, Char.isAlpha, Char.isUpper, Char.isLower,
      Char.isDigit, ge_iff_le, UInt32.le_iff_toNat_le, Bool.or_eq_true, Bool.and_eq_true,
      decide_eq_true_eq] at h
    show c.val.toNat < 128
    have hupper : 'Z'.val.toNat = 90 := rfl
    have hlower : 'z'.val.toNat = 122 := rfl
    have hdigit : '9'.val.toNat = 57 := rfl
    rcases h with ((hcase | hcase) | hcase) | rfl | rfl | rfl
    · omega
    · omega
    · omega
    · decide
    · decide
    · decide
  have hc := hall c.toNat hascii
  rw [Char.ofNat_toNat] at hc
  exact hc h

theorem urlparse_cases (h : urlparse lib url base = some p) :
    ∃ scheme text netloc tail, splitScheme base (cleaned url) = (scheme, text) ∧
      ((∃ rest, text = '/' :: '/' :: rest ∧ splitNetloc rest = (netloc, tail)) ∨
        netloc = [] ∧ tail = text) ∧
      (checkBrackets lib netloc = true ∧ checkNetloc lib netloc = true) ∧
      p = components scheme netloc tail := by
  obtain ⟨scheme, text, hscheme⟩ : ∃ scheme text, splitScheme base (cleaned url) = (scheme, text) :=
    ⟨_, _, rfl⟩
  unfold urlparse at h
  unfold cleaned at hscheme
  simp only [hscheme] at h
  refine ⟨scheme, text, ?_⟩
  by_cases hslashes : ['/', '/'] <+: text
  · obtain ⟨rest, rfl⟩ := hslashes
    rw [if_pos (List.prefix_append _ _)] at h
    simp only [List.cons_append, List.nil_append, List.drop_succ_cons, List.drop_zero] at h
    obtain ⟨netloc, tail, hnetloc⟩ : ∃ netloc tail, splitNetloc rest = (netloc, tail) :=
      ⟨_, _, rfl⟩
    simp only [hnetloc] at h
    split at h
    · rename_i hchecked
      exact ⟨netloc, tail, hscheme, .inl ⟨rest, rfl, hnetloc⟩, by simpa using hchecked,
        (Option.some.inj h).symm⟩
    · cases h
  · rw [if_neg hslashes] at h
    dsimp only at h
    split at h
    · rename_i hchecked
      exact ⟨[], text, hscheme, .inr ⟨rfl, rfl⟩, by simpa using hchecked, (Option.some.inj h).symm⟩
    · cases h

theorem splitScheme_cases (h : splitScheme base url = (scheme, rest)) :
    (scheme = base ∧ rest = url) ∨
      scheme.head?.any Char.isAlpha = true ∧
        (∀ c ∈ scheme, isSchemeChar c = true ∧ c.toLower = c) ∧ rest <:+ url := by
  unfold splitScheme at h
  rcases partition_cases ':' url with ⟨-, heq⟩ | ⟨name, after, -, hurl, heq⟩
  · rw [heq] at h
    simp only [Bool.false_and, Bool.false_eq_true, if_false, Prod.mk.injEq] at h
    exact .inl ⟨h.1.symm, h.2.symm⟩
  · rw [heq] at h
    dsimp only at h
    split at h
    · rename_i hname
      simp only [Bool.true_and, Bool.and_eq_true, List.all_eq_true] at hname
      obtain ⟨rfl, rfl⟩ := Prod.mk.inj h
      refine .inr ⟨?_, ?_, hurl ▸ List.suffix_append_of_suffix (List.suffix_cons _ _)⟩
      · cases name with
        | nil => cases hname.1
        | cons first more =>
          exact (toLower_schemeChar (hname.2 first List.mem_cons_self)).2.2 hname.1
      · intro c hc
        obtain ⟨d, hd, rfl⟩ := List.mem_map.mp hc
        exact ⟨(toLower_schemeChar (hname.2 d hd)).1, (toLower_schemeChar (hname.2 d hd)).2.1⟩
    · obtain ⟨rfl, rfl⟩ := Prod.mk.inj h
      exact .inl ⟨rfl, rfl⟩

theorem splitNetloc_cases (h : splitNetloc text = (netloc, tail)) :
    text = netloc ++ tail ∧ (∀ c ∈ netloc, c ≠ '/' ∧ c ≠ '?' ∧ c ≠ '#') ∧
      ∀ c ∈ tail.head?, c = '/' ∨ c = '?' ∨ c = '#' := by
  unfold splitNetloc at h
  rw [List.span_eq_takeWhile_dropWhile] at h
  obtain ⟨rfl, rfl⟩ := Prod.mk.inj h
  refine ⟨(List.takeWhile_append_dropWhile ..).symm, fun c hc => ?_, fun c hc => ?_⟩
  · have hkept := List.mem_takeWhile_imp hc
    exact of_decide_eq_true hkept
  · have hstop := List.head?_dropWhile_not (fun c => decide (c ≠ '/' ∧ c ≠ '?' ∧ c ≠ '#')) text
    rw [hc] at hstop
    have hnot : ¬ (c ≠ '/' ∧ c ≠ '?' ∧ c ≠ '#') := of_decide_eq_false hstop
    by_contra hnone
    exact hnot ⟨fun h => hnone (.inl h), fun h => hnone (.inr (.inl h)),
      fun h => hnone (.inr (.inr h))⟩

/-- What is taken off a path are the parameters of its last segment. -/
theorem splitParams_parts (path : Text) :
    (splitParams path).1 <+: path ∧ (splitParams path).2 <:+ path ∧
      ';' ∉ (splitParams path).1.rtakeWhile (· ≠ '/') ∧ '/' ∉ (splitParams path).2 ∧
      (path.head? = some '/' → (splitParams path).1.head? = some '/') := by
  have hsegment : ∀ c ∈ path.rtakeWhile (fun c => decide (c ≠ '/')), decide (c ≠ '/') = true :=
    fun c hc => mem_rtakeWhile hc
  have hpath := rdropWhile_append_rtakeWhile (fun c => decide (c ≠ '/')) path
  have hlast := rtakeWhile_rdropWhile (fun c => decide (c ≠ '/')) path
  unfold splitParams
  generalize path.rtakeWhile (fun c => decide (c ≠ '/')) = segment at hpath hsegment ⊢
  generalize path.rdropWhile (fun c => decide (c ≠ '/')) = folder at hpath hlast ⊢
  have hfolder : path.head? = some '/' → ∀ more, (folder ++ more).head? = some '/' := by
    intro hhead more
    cases folder with
    | nil =>
      rw [List.nil_append] at hpath
      rw [← hpath] at hhead
      exact absurd (hsegment '/' (List.mem_of_mem_head? hhead)) (by decide)
    | cons first rest =>
      rw [← hpath] at hhead
      exact hhead
  rcases partition_cases ';' segment with ⟨hnone, heq⟩ | ⟨name, params, hname, rfl, heq⟩
  · rw [heq]
    refine ⟨hpath ▸ List.prefix_rfl, List.nil_suffix, ?_, List.not_mem_nil, fun h => hfolder h _⟩
    rw [rtakeWhile_append hsegment, hlast, List.nil_append]
    exact hnone
  · rw [heq]
    have hall : ∀ c ∈ name, decide (c ≠ '/') = true := fun c hc =>
      hsegment c (List.mem_append_left _ hc)
    refine ⟨⟨';' :: params, ?_⟩, ⟨folder ++ name ++ [';'], ?_⟩, ?_, ?_, fun h => hfolder h _⟩
    · rw [← hpath, List.append_assoc]
    · rw [← hpath]
      simp
    · rw [rtakeWhile_append hall, hlast, List.nil_append]
      exact hname
    · intro hslash
      exact absurd (hsegment '/' (by simp [hslash])) (by decide)

/-- What follows a network location is taken apart into components that are found again. -/
theorem components_wellFormed (h : Authority lib scheme netloc)
    (htail : ∀ c ∈ tail.head?, c = '/' ∨ c = '?' ∨ c = '#')
    (hkept : ∀ c ∈ tail, isUnsafe c = false) :
    WellFormed lib (components scheme netloc tail) := by
  obtain ⟨hnoFragment, hbefore, hfragment⟩ := partition_parts '#' tail
  obtain ⟨hnoQuery, hpath, hquery⟩ := partition_parts '?' (partition '#' tail).1
  have hpathIn := hpath.trans hbefore
  unfold components
  dsimp only
  generalize partition '?' (partition '#' tail).1 = parts at hnoQuery hpath hquery hpathIn ⊢
  generalize (partition '#' tail).1 = before at hnoFragment hbefore hpath hquery
  generalize (partition '#' tail).2.2 = fragment at hfragment ⊢
  obtain ⟨path, found, query⟩ := parts
  dsimp only at hnoQuery hpath hquery hpathIn ⊢
  have hslash : path = [] ∨ path.head? = some '/' := by
    by_cases hne : path = []
    · exact .inl hne
    · have hhead := head?_of_prefix hpathIn hne
      obtain ⟨first, more, rfl⟩ := List.exists_cons_of_ne_nil hne
      rcases htail first hhead.symm with rfl | rfl | rfl
      · exact .inr rfl
      · exact absurd List.mem_cons_self hnoQuery
      · exact absurd (hpath.subset List.mem_cons_self) hnoFragment
  have hchars : ∀ c ∈ path, c ≠ '?' ∧ c ≠ '#' := fun c hc =>
    ⟨fun heq => hnoQuery (heq ▸ hc), fun heq => hnoFragment (heq ▸ hpath.subset hc)⟩
  have hrest : ∀ c ∈ query ++ fragment, isUnsafe c = false := fun c hc =>
    (List.mem_append.mp hc).elim (fun hc => hkept c (hbefore.subset (hquery.subset hc)))
      fun hc => hkept c (hfragment.subset hc)
  by_cases hsplit : String.ofList scheme ∈ usesParams ∧ ';' ∈ path
  · obtain ⟨hname, hparams, hsegment, hnoSlash, hhead⟩ := splitParams_parts path
    rw [if_pos hsplit]
    have hin : ∀ c ∈ (splitParams path).1 ++ (splitParams path).2, c ∈ path := fun c hc =>
      (List.mem_append.mp hc).elim (fun hc => hname.subset hc) fun hc => hparams.subset hc
    refine ⟨h, .inr (hhead (hslash.resolve_left fun hnil => ?_)), fun c hc => hchars c (hin c hc),
      fun _ => ⟨hsegment, hnoSlash⟩, fun hnot => absurd hsplit.1 hnot,
      fun hmem => hnoFragment (hquery.subset hmem), fun c hc => ?_⟩
    · rw [hnil] at hsplit
      exact List.not_mem_nil hsplit.2
    · rw [List.append_assoc] at hc
      exact (List.mem_append.mp hc).elim (fun hc => hkept c (hpathIn.subset (hin c hc))) (hrest c)
  · rw [if_neg hsplit]
    refine ⟨h, hslash.imp_left fun hnil => ⟨hnil, rfl⟩, fun c hc => ?_, fun huses => ⟨?_, ?_⟩,
      fun _ => rfl, fun hmem => hnoFragment (hquery.subset hmem), fun c hc => ?_⟩
    · rw [List.append_nil] at hc
      exact hchars c hc
    · have hnone : ';' ∉ path := fun hmem => hsplit ⟨huses, hmem⟩
      rw [← rdropWhile_append_rtakeWhile (fun c => decide (c ≠ '/')) path] at hnone
      exact fun hmem => hnone (List.mem_append_right _ hmem)
    · exact List.not_mem_nil
    · rw [List.append_assoc, List.append_nil] at hc
      exact (List.mem_append.mp hc).elim (fun hc => hkept c (hpathIn.subset hc)) (hrest c)

/-- The components of a URL with a scheme and a network location are found again. -/
theorem wellFormed_of_parse (h : urlparse lib url [] = some p) (hscheme : p.scheme ≠ [])
    (hnetloc : p.netloc ≠ []) : WellFormed lib p := by
  obtain ⟨scheme, text, netloc, tail, hsplit, hcases, hchecked, rfl⟩ := urlparse_cases h
  rcases hcases with ⟨rest, rfl, hrest⟩ | ⟨rfl, -⟩
  · obtain ⟨rfl, hchars, htail⟩ := splitNetloc_cases hrest
    rcases splitScheme_cases hsplit with ⟨hnone, -⟩ | ⟨hfirst, hlower, hsuffix⟩
    · exact absurd hnone hscheme
    · have hkept : ∀ c ∈ netloc ++ tail, isUnsafe c = false := fun c hc => by
        have hmem := hsuffix.subset (List.mem_cons_of_mem _ (List.mem_cons_of_mem _ hc))
        simpa using (List.mem_filter.mp hmem).2
      exact components_wellFormed ⟨hfirst, hlower, hnetloc, hchars,
        fun c hc => hkept c (List.mem_append_left _ hc), hchecked⟩ htail
        fun c hc => hkept c (List.mem_append_right _ hc)
  · exact absurd rfl hnetloc

/-- The same URL at another network location. -/
theorem WellFormed.atNetloc (h : WellFormed lib p) (hnetloc : Authority lib p.scheme netloc) :
    WellFormed lib { p with netloc := netloc } :=
  ⟨hnetloc, h.path, h.pathChars, h.segment, h.params, h.query, h.kept⟩

end Parts

/-! ## Requests at an address -/

/-- An address written as `ipaddress` writes one without a zone. -/
structure Address.Spelled (address : Address) : Prop where
  chars : ∀ c ∈ address.text, c ≠ '/' ∧ c ≠ '?' ∧ c ≠ '#' ∧ c ≠ '[' ∧ c ≠ ']' ∧ c ≠ '%' ∧
    isUnsafe c = false
  ascii : isAscii address.text = true
  four : address.version ≠ 6 → ':' ∉ address.text
  six : address.version = 6 → lib.isBracketedHost address.text = true
  lower : lib.lower address.text = address.text

section Requests

variable {lib} {address : Address} {port : ℕ} {c : Char} {request : Request} {s : Settings}
  {answer : Answer} {answers : ℕ → Answer} {current next url : Text} {turn : ℕ} {p : ParseResult}

/-- The port as it follows the host. -/
def portSuffix (port : ℕ) : Text := if port = 443 then [] else ':' :: Nat.toDigits 10 port

theorem withPort_eq (host : Text) (port : ℕ) : withPort host port = host ++ portSuffix port := by
  unfold withPort portSuffix
  split
  · rw [List.append_nil]
  · rfl

theorem portSuffix_chars (h : c ∈ portSuffix port) : c = ':' ∨ c.isDigit = true := by
  unfold portSuffix at h
  split at h
  · cases h
  · rcases List.mem_cons.mp h with rfl | h
    · exact .inl rfl
    · exact .inr (Nat.isDigit_of_mem_toDigits (by decide) (by decide) h)

theorem portSuffix_ne (h : c ∈ portSuffix port) (hne : c ≠ ':') (hdigit : c.isDigit = false) :
    False := by
  rcases portSuffix_chars h with heq | hdigit'
  · exact hne heq
  · rw [hdigit] at hdigit'
    cases hdigit'

theorem hostinfo_pinned (h : address.Spelled lib) {p : ParseResult}
    (hp : p.netloc = withPort address.host port) :
    p.userinfo = none ∧ p.hostinfo = (address.text, (portSuffix port).tail) := by
  have hat : '@' ∉ p.netloc := hp ▸ withPort_plain (host_plain address) port
  have hall : ∀ x ∈ p.netloc, decide (x ≠ '@') = true := fun x hx => by
    simpa using fun heq : x = '@' => hat (heq ▸ hx)
  have htake : p.netloc.rtakeWhile (fun x => decide (x ≠ '@')) = p.netloc :=
    List.rtakeWhile_eq_self_iff.mpr hall
  have hbracket : ∀ mark : Char, mark = '[' ∨ mark = ']' → mark ∉ address.text ∧
      mark ∉ portSuffix port := by
    rintro mark (rfl | rfl)
    · exact ⟨fun hmem => (h.chars _ hmem).2.2.2.1 rfl,
        fun hmem => portSuffix_ne hmem (by decide) (by decide)⟩
    · exact ⟨fun hmem => (h.chars _ hmem).2.2.2.2.1 rfl,
        fun hmem => portSuffix_ne hmem (by decide) (by decide)⟩
  have hport : (partition ':' (portSuffix port)).2.2 = (portSuffix port).tail := by
    unfold portSuffix
    split
    · rfl
    · rw [← List.nil_append (':' :: _), partition_append_cons List.not_mem_nil]
      rfl
  constructor
  · unfold ParseResult.userinfo rpartition
    simp [hat]
  · unfold ParseResult.hostinfo rpartition
    simp only [htake]
    rw [hp, withPort_eq]
    unfold Address.host
    by_cases hsix : address.version = 6
    · rw [if_pos hsix, List.append_assoc]
      have hopen : partition '[' ('[' :: (address.text ++ ']' :: portSuffix port)) =
          ([], true, address.text ++ ']' :: portSuffix port) :=
        partition_append_cons (List.not_mem_nil : '[' ∉ ([] : Text))
      simp only [List.cons_append, List.nil_append]
      rw [hopen]
      simp only [if_true]
      rw [partition_append_cons (hbracket ']' (.inr rfl)).1, hport]
    · rw [if_neg hsix]
      have hopen : '[' ∉ address.text ++ portSuffix port := fun hmem =>
        (List.mem_append.mp hmem).elim (hbracket '[' (.inl rfl)).1 (hbracket '[' (.inl rfl)).2
      rw [partition_of_notMem hopen]
      simp only [Bool.false_eq_true, if_false]
      unfold portSuffix
      split
      · rw [List.append_nil, partition_of_notMem (h.four hsix)]
        rfl
      · rw [partition_append_cons (h.four hsix)]
        rfl

theorem https_first : https.head?.any Char.isAlpha = true := by decide

theorem https_chars : ∀ c ∈ https, isSchemeChar c = true ∧ c.toLower = c := by
  simp [https, isSchemeChar]

theorem digit_plain (h : c.isDigit = true) :
    c ≠ '/' ∧ c ≠ '?' ∧ c ≠ '#' ∧ isUnsafe c = false ∧ c.toNat < 128 := by
  have hscheme : isSchemeChar c = true := by simp [isSchemeChar, Char.isAlphanum, h]
  simp only [Char.isDigit, ge_iff_le, UInt32.le_iff_toNat_le, Bool.and_eq_true,
    decide_eq_true_eq] at h
  have hnine : '9'.val.toNat = 57 := rfl
  refine ⟨?_, ?_, ?_, (isSchemeChar_plain hscheme).2, ?_⟩
  · rintro rfl
    exact absurd h (by decide)
  · rintro rfl
    exact absurd h (by decide)
  · rintro rfl
    exact absurd h (by decide)
  · show c.val.toNat < 128
    omega

/-- The network location of a request at an address is found again. -/
theorem authority_pinned (h : address.Spelled lib) :
    Authority lib https (withPort address.host port) := by
  have hchars : ∀ c ∈ withPort address.host port,
      (c ≠ '/' ∧ c ≠ '?' ∧ c ≠ '#') ∧ isUnsafe c = false ∧ c.toNat < 128 := by
    intro c hc
    rw [withPort_eq] at hc
    rcases List.mem_append.mp hc with hc | hc
    · have htext : c ∈ address.text ∨ c = '[' ∨ c = ']' := by
        unfold Address.host at hc
        split at hc
        · rcases List.mem_append.mp hc with hc | hc
          · exact (List.mem_cons.mp hc).elim (fun heq => .inr (.inl heq)) .inl
          · exact .inr (.inr (List.mem_singleton.mp hc))
        · exact .inl hc
      rcases htext with htext | rfl | rfl
      · obtain ⟨hslash, hquery, hfragment, -, -, -, hkept⟩ := h.chars c htext
        exact ⟨⟨hslash, hquery, hfragment⟩, hkept,
          of_decide_eq_true (List.all_eq_true.mp h.ascii c htext)⟩
      · decide
      · decide
    · rcases portSuffix_chars hc with rfl | hdigit
      · decide
      · obtain ⟨hslash, hquery, hfragment, hkept, hascii⟩ := digit_plain hdigit
        exact ⟨⟨hslash, hquery, hfragment⟩, hkept, hascii⟩
  refine ⟨https_first, https_chars, withPort_ne_nil (host_ne_nil address) port,
    fun c hc => (hchars c hc).1, fun c hc => (hchars c hc).2.1, ?_, ?_⟩
  · have hopen : '[' ∉ address.text ∧ ']' ∉ address.text :=
      ⟨fun hmem => (h.chars _ hmem).2.2.2.1 rfl, fun hmem => (h.chars _ hmem).2.2.2.2.1 rfl⟩
    have hsuffix : '[' ∉ portSuffix port ∧ ']' ∉ portSuffix port :=
      ⟨fun hmem => portSuffix_ne hmem (by decide) (by decide),
        fun hmem => portSuffix_ne hmem (by decide) (by decide)⟩
    rw [withPort_eq]
    unfold checkBrackets Address.host
    by_cases hsix : address.version = 6
    · have hbracket : partition '[' ('[' :: (address.text ++ ']' :: portSuffix port)) =
          ([], true, address.text ++ ']' :: portSuffix port) :=
        partition_append_cons (List.not_mem_nil : '[' ∉ ([] : Text))
      simp only [if_pos hsix, List.append_assoc, List.cons_append, List.nil_append, hbracket,
        partition_append_cons hopen.2, h.six hsix]
      simp
    · simp [if_neg hsix, hopen, hsuffix]
  · have hascii : isAscii (withPort address.host port) = true :=
      List.all_eq_true.mpr fun c hc => decide_eq_true (hchars c hc).2.2
    unfold checkNetloc
    rw [hascii]
    rfl

/-- A port that is found in a URL is found at an address too. -/
theorem connectPort_pinned (h : address.Spelled lib) {p q : ParseResult}
    (hq : q.connectPort = some port) (hp : p.netloc = withPort address.host port) :
    p.connectPort = some port := by
  obtain ⟨stated, hstated, hport⟩ := Option.map_eq_some_iff.mp hq
  have hbounds : port ≠ 0 ∧ port ≤ 65535 := by
    rw [← hport]
    split
    · decide
    · rename_i hzero
      refine ⟨hzero, ?_⟩
      cases stated with
      | none => exact Nat.zero_le _
      | some n =>
        unfold ParseResult.port at hstated
        split at hstated
        · cases hstated
        · split at hstated
          · rename_i hvalue
            obtain rfl := Option.some.inj (Option.some.inj hstated)
            exact hvalue.2
          · cases hstated
  have hinfo : p.hostinfo.2 = (portSuffix port).tail := by rw [(hostinfo_pinned h hp).2]
  unfold portSuffix at hinfo
  unfold ParseResult.connectPort ParseResult.port
  by_cases hdefault : port = 443
  · rw [if_pos hdefault] at hinfo
    rw [hinfo, hdefault]
    rfl
  · rw [if_neg hdefault, List.tail_cons] at hinfo
    have hdigits : (Nat.toDigits 10 port).all Char.isDigit = true :=
      List.all_eq_true.mpr fun c hc => Nat.isDigit_of_mem_toDigits (by decide) (by decide) hc
    have hvalue := Numeral.textValue_toDigits port
    obtain ⟨first, rest, hcons⟩ :=
      List.exists_cons_of_ne_nil (Nat.toDigits_ne_nil : Nat.toDigits 10 port ≠ [])
    rw [hcons] at hinfo hdigits hvalue
    rw [hinfo]
    dsimp only
    rw [if_pos ⟨hdigits, hvalue ▸ hbounds.2⟩, hvalue]
    simp [hbounds.1]

theorem hostname_pinned (h : address.Spelled lib) {p : ParseResult}
    (hp : p.netloc = withPort address.host port) : p.hostname lib = some address.text := by
  have hpercent : '%' ∉ address.text := fun hmem => (h.chars _ hmem).2.2.2.2.2.1 rfl
  unfold ParseResult.hostname
  rw [(hostinfo_pinned h hp).2, partition_of_notMem hpercent]
  simp [address.nonempty, h.lower]

/-- The components of a URL with a host are found again. -/
theorem Passes.wellFormed (h : Passes lib s answer current p) : WellFormed lib p := by
  refine wellFormed_of_parse h.parse (by rw [h.scheme]; decide) fun hnil => ?_
  obtain ⟨hostname, hhostname, -⟩ := h.allowed
  have hinfo : p.hostinfo.1 = [] := by
    unfold ParseResult.hostinfo
    rw [hnil]
    rfl
  have hnone : p.hostname lib = none := by
    unfold ParseResult.hostname
    rw [hinfo]
    rfl
  rw [hnone] at hhostname
  cases hhostname

theorem visited_of_request
    (h : (downloadPinned lib s answers url).requests[turn]? = some request) :
    ∃ current, Visited lib s answers url turn current ∧
      requestFor lib s (answers turn) current = .ok request := by
  cases hexpected : expectedHost lib url with
  | none =>
    obtain ⟨e, heq⟩ := download_none s answers hexpected
    rw [heq] at h
    cases h
  | some expected =>
    rw [download_eq hexpected] at h
    have hroom : 0 ≤ s.maximumRedirects := by
      have hlength := turns_length lib s answers expected (s.maximumRedirects + 1).toNat 0 url
      have hturn := (List.getElem?_eq_some_iff.mp h).1
      omega
    obtain ⟨current, hvisited, hsent⟩ := turns_requests hexpected _ 0 url (.declared hroom) turn h
    rw [Nat.zero_add] at hvisited hsent
    exact ⟨current, hvisited, hsent⟩

/-- The URL that is asked, read back, is the URL that is visited, with the address and the port in
the place of its network location. -/
theorem pinned_request_reparsed
    (hspelled : ∀ turn, ∀ addresses ∈ (answers turn).addresses, ∀ address ∈ addresses,
      address.Spelled lib)
    (h : (downloadPinned lib s answers url).requests[turn]? = some request) :
    ∃ current, Visited lib s answers url turn current ∧
      urlparse lib current [] = some request.parsed ∧
      ∃ pinned, urlparse lib request.url [] = some pinned ∧
        pinned = { request.parsed with netloc := request.netloc } ∧
        pinned.userinfo = none ∧ pinned.hostname lib = some request.address.text ∧
        pinned.connectPort = request.parsed.connectPort := by
  obtain ⟨current, hvisited, hsent⟩ := visited_of_request h
  obtain ⟨hpasses, -, -, ⟨addresses, haddresses, hmem⟩, -, hport⟩ := requestFor_ok hsent
  have haddress := hspelled turn addresses haddresses request.address hmem
  have hauthority : Authority lib request.parsed.scheme request.netloc := by
    rw [hpasses.scheme]
    exact authority_pinned haddress
  refine ⟨current, hvisited, hpasses.parse, request.pinned,
    urlparse_urlunparse (hpasses.wellFormed.atNetloc hauthority), rfl,
    (hostinfo_pinned haddress rfl).1, hostname_pinned haddress rfl, ?_⟩
  rw [hport]
  exact connectPort_pinned haddress hport rfl

end Requests

/-! ## A redirect to an IPv6 address -/

def sixText : Text := "2606:4700:4700::1111".toList

theorem sixText_nonempty : sixText ≠ [] := by decide

theorem sixText_plain : '@' ∉ sixText := by decide

def sixAddress : Address where
  version := 6
  value := 50543257694033307102031451402929180945
  text := sixText
  isGlobal := true
  isMulticast := false
  isSiteLocal := false
  nonempty := sixText_nonempty
  plain := sixText_plain

def dualLibrary : TextLibrary := { asciiLibrary with isBracketedHost := fun text => text = sixText }

/-- A redirect to port 8443, where the host is resolved to its other address. -/
def dualAnswers : ℕ → Answer
  | 0 => ⟨some [publicAddress], some ⟨302, some "https://evidence.test:8443/b?c".toList, [], []⟩⟩
  | _ => ⟨some [sixAddress],
      some ⟨200, none, "application/json".toList, [some [123, 125]]⟩⟩

theorem publicAddress_spelled : publicAddress.Spelled dualLibrary :=
  ⟨by simp [publicAddress, isUnsafe], by decide, fun _ => by decide,
    fun h => absurd h (by decide), by decide⟩

theorem sixAddress_spelled : sixAddress.Spelled dualLibrary where
  chars c hc := by
    have hall : sixText.all (fun c => c ≠ '/' ∧ c ≠ '?' ∧ c ≠ '#' ∧ c ≠ '[' ∧ c ≠ ']' ∧ c ≠ '%' ∧
        isUnsafe c = false) = true := by
      decide +kernel
    exact of_decide_eq_true (List.all_eq_true.mp hall c hc)
  ascii := by decide +kernel
  four h := absurd rfl h
  six _ := by decide +kernel
  lower := by decide +kernel

theorem dualAnswers_spelled (turn : ℕ) : ∀ addresses ∈ (dualAnswers turn).addresses,
    ∀ address ∈ addresses, address.Spelled dualLibrary := by
  intro addresses haddresses address haddress
  cases turn with
  | zero =>
    obtain rfl := Option.some.inj haddresses
    exact List.mem_singleton.mp haddress ▸ publicAddress_spelled
  | succ turn =>
    obtain rfl := Option.some.inj haddresses
    exact List.mem_singleton.mp haddress ▸ sixAddress_spelled

theorem pinned_request_reparsed_moved :
    ∃ request pinned, (downloadPinned dualLibrary evidenceSettings dualAnswers
        declaredUri).requests[1]? = some request ∧
      request.url = "https://[2606:4700:4700::1111]:8443/b?c".toList ∧
      urlparse dualLibrary request.url [] = some pinned ∧
      pinned.hostname dualLibrary = some sixText ∧ pinned.connectPort = some 8443 := by
  obtain ⟨request, hrequest⟩ := Option.isSome_iff_exists.mp (by decide +kernel :
    ((downloadPinned dualLibrary evidenceSettings dualAnswers declaredUri).requests[1]?).isSome)
  have hfields : request.url = "https://[2606:4700:4700::1111]:8443/b?c".toList ∧
      request.address.text = sixText ∧ request.parsed.connectPort = some 8443 := by
    have hall : ∀ request ∈ (downloadPinned dualLibrary evidenceSettings dualAnswers
        declaredUri).requests[1]?, request.url = "https://[2606:4700:4700::1111]:8443/b?c".toList ∧
          request.address.text = sixText ∧ request.parsed.connectPort = some 8443 := by
      decide +kernel
    exact hall request hrequest
  obtain ⟨hurl, htext, hconnect⟩ := hfields
  obtain ⟨current, -, -, pinned, hpinned, -, -, hhost, hport⟩ :=
    pinned_request_reparsed dualAnswers_spelled hrequest
  rw [htext] at hhost
  rw [hconnect] at hport
  exact ⟨request, pinned, hrequest, hurl, hpinned, hhost, hport⟩

/-! ## Redirects to references -/

section References

variable {lib} {request : Request} {s : Settings} {answers : ℕ → Answer} {current next url : Text}
  {turn : ℕ} {p : ParseResult}

/-- A reference that names no host. -/
def Relative (lib : TextLibrary) (location : Text) : Prop :=
  ∀ p ∈ urlparse lib location https, p.scheme = https ∧ p.netloc = []

/-- A reference that names no host is joined at the network location of the base. -/
theorem urljoin_relative {location : Text} (hparse : urlparse lib current [] = some p)
    (hwell : WellFormed lib p) (hscheme : p.scheme = https) (hlocation : Relative lib location)
    (hjoin : urljoin lib current location = some next) :
    ∃ q ∈ urlparse lib next [], q.scheme = https ∧ q.netloc = p.netloc := by
  have hrelative : String.ofList https ∈ usesRelative := by decide
  have hnetloc : String.ofList https ∈ usesNetloc := by decide
  obtain ⟨q, hq, hqscheme, hqnetloc⟩ : ∃ q, next = urlunparse q ∧ q.scheme = https ∧
      q.netloc = p.netloc := by
    unfold urljoin at hjoin
    rw [hparse] at hjoin
    obtain ⟨b, hb, hjoin⟩ := Option.bind_eq_some_iff.mp hjoin
    obtain rfl := Option.some.inj hb
    obtain ⟨r, hr, hjoin⟩ := Option.bind_eq_some_iff.mp hjoin
    rw [hscheme] at hr
    obtain ⟨hrscheme, hrnetloc⟩ := hlocation r hr
    simp only [hscheme, hrscheme, hrnetloc, hrelative, hnetloc, ne_eq, not_true_eq_false, or_self,
      if_false, and_false, if_true, Option.pure_def] at hjoin
    split at hjoin
    · exact ⟨_, (Option.some.inj hjoin).symm, rfl, rfl⟩
    · exact ⟨_, (Option.some.inj hjoin).symm, rfl, rfl⟩
  have hne : q.scheme ≠ [] := by
    rw [hqscheme]
    decide
  have hauthority : Authority lib q.scheme q.netloc := by
    rw [hqscheme, hqnetloc, ← hscheme]
    exact hwell.authority
  rw [hq, urlunparse_of_netloc hne hauthority.nonempty,
    urlparse_authority hauthority (tail_head q)]
  exact ⟨_, rfl, hqscheme, hqnetloc⟩

theorem Visited.netloc {declared : ParseResult} (hdeclared : urlparse lib url [] = some declared)
    (hrelative : ∀ turn, ∀ response ∈ (answers turn).response, ∀ location ∈ response.location,
      Relative lib location)
    (h : Visited lib s answers url turn current) (hparse : urlparse lib current [] = some p) :
    p.netloc = declared.netloc := by
  induction h generalizing p with
  | declared hroom => rw [Option.some.inj (hparse.symm.trans hdeclared)]
  | redirected hvisited hpasses hredirects ih =>
    obtain ⟨response, hresponse, -, hlocation, hjoin⟩ := hredirects.location
    obtain ⟨location, hsome⟩ : ∃ location, response.location = some location := by
      cases hnone : response.location with
      | none =>
        rw [hnone] at hlocation
        exact absurd rfl hlocation
      | some location => exact ⟨location, rfl⟩
    rw [hsome] at hjoin
    obtain ⟨q, hq, -, hnetloc⟩ := urljoin_relative hpasses.parse hpasses.wellFormed hpasses.scheme
      (hrelative _ response hresponse location hsome) hjoin
    rw [Option.some.inj (hparse.symm.trans hq), hnetloc]
    exact ih hpasses.parse

/-- A download whose redirects name no host asks only the declared origin. -/
theorem relative_redirects_keep_origin
    (hport : ∀ declared ∈ urlparse lib url [], declared.port ≠ some (some 0))
    (hrelative : ∀ turn, ∀ response ∈ (answers turn).response, ∀ location ∈ response.location,
      Relative lib location)
    (h : (downloadPinned lib s answers url).requests[turn]? = some request) :
    ∃ declared ∈ urlparse lib url [], request.parsed.netloc = declared.netloc ∧
      Proper lib s answers declared turn request := by
  obtain ⟨current, hvisited, hsent⟩ := visited_of_request h
  obtain ⟨hpasses, -, -, -, -, hconnect⟩ := requestFor_ok hsent
  obtain ⟨declared, hdeclared⟩ : ∃ declared, urlparse lib url [] = some declared := by
    cases hparse : urlparse lib url [] with
    | none =>
      unfold downloadPinned at h
      rw [hparse] at h
      cases h
    | some declared => exact ⟨declared, rfl⟩
  have hnetloc := hvisited.netloc hdeclared hrelative hpasses.parse
  have hhostinfo : request.parsed.hostinfo = declared.hostinfo := by
    unfold ParseResult.hostinfo
    rw [hnetloc]
  have hname : request.parsed.hostname lib = declared.hostname lib := by
    unfold ParseResult.hostname
    rw [hhostinfo]
  have hconnect' : declared.connectPort = some request.port := by
    rw [← hconnect]
    unfold ParseResult.connectPort ParseResult.port
    rw [hhostinfo]
  exact ⟨declared, hdeclared, hnetloc, proper_of_request hsent hname
    ((originPort_iff hconnect').mpr (hport declared hdeclared))⟩

end References

/-- A redirect to a path of the host, and the artifact. -/
def referredAnswers : ℕ → Answer
  | 0 => ⟨some [publicAddress], some ⟨302, some "../b?c".toList, [], []⟩⟩
  | _ => ⟨some [publicAddress],
      some ⟨200, none, "application/json".toList, [some [123, 125]]⟩⟩

theorem referred_relative : Relative asciiLibrary "../b?c".toList := by
  have hparse : urlparse asciiLibrary "../b?c".toList https =
      some ⟨https, [], "../b".toList, [], "c".toList, []⟩ := by
    decide +kernel
  intro p hp
  obtain rfl := Option.some.inj (hparse.symm.trans hp)
  exact ⟨rfl, rfl⟩

theorem relative_redirects_keep_origin_referred :
    ∃ request declared, (downloadPinned asciiLibrary evidenceSettings referredAnswers
        declaredUri).requests[1]? = some request ∧
      urlparse asciiLibrary declaredUri [] = some declared ∧
      request.parsed.netloc = declared.netloc ∧ request.parsed.path = "/b".toList := by
  obtain ⟨request, hrequest⟩ := Option.isSome_iff_exists.mp (by decide +kernel :
    ((downloadPinned asciiLibrary evidenceSettings referredAnswers
      declaredUri).requests[1]?).isSome)
  have hpath : ∀ request ∈ (downloadPinned asciiLibrary evidenceSettings referredAnswers
      declaredUri).requests[1]?, request.parsed.path = "/b".toList := by
    decide +kernel
  have hrelative : ∀ turn, ∀ response ∈ (referredAnswers turn).response,
      ∀ location ∈ response.location, Relative asciiLibrary location := by
    intro turn response hresponse location hlocation
    cases turn with
    | zero =>
      obtain rfl := Option.some.inj hresponse
      obtain rfl := Option.some.inj hlocation
      exact referred_relative
    | succ turn =>
      obtain rfl := Option.some.inj hresponse
      cases hlocation
  obtain ⟨declared, hdeclared, hnetloc, -⟩ := relative_redirects_keep_origin (by decide +kernel)
    hrelative hrequest
  exact ⟨request, declared, hrequest, hdeclared, hnetloc, hpath request hrequest⟩

end AeepRouter.Artifacts

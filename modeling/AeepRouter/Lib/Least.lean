import Mathlib.Tactic
import Mathlib.Data.List.MinMax

/-!
# The least of a list

`argmin` picks the first of the least elements, so which one it is depends on the order of the list,
but its key does not. A key that takes a zero for nothing (`orTop`) picks the least known value only
when no zero is in the way: `leastKnown_iff` says when that is, and `orderless_iff` when the order
does not matter.
-/

namespace AeepRouter.Lib

section Argmin

variable {α κ : Type} [LinearOrder κ] {f : α → κ} {l l' : List α} {a b : α}

theorem exists_argmin (f : α → κ) (h : l ≠ []) : ∃ a, l.argmin f = some a := by
  cases hmin : l.argmin f with
  | none => exact absurd (List.argmin_eq_none.mp hmin) h
  | some a => exact ⟨a, rfl⟩

theorem argmin_perm (h : l.Perm l') (ha : l.argmin f = some a) (hb : l'.argmin f = some b) :
    f a = f b :=
  le_antisymm (List.le_of_mem_argmin (h.mem_iff.mpr (List.argmin_mem hb)) ha)
    (List.le_of_mem_argmin (h.mem_iff.mp (List.argmin_mem ha)) hb)

/-- Whatever the key of the least element decides is the same for every order of the list. -/
theorem argmin_map_perm {β : Type} {g : α → β}
    (hg : ∀ a ∈ l, ∀ b ∈ l, (∀ c ∈ l, f a ≤ f c) → f a = f b → g a = g b) (h : l.Perm l') :
    (l.argmin f).map g = (l'.argmin f).map g := by
  rcases eq_or_ne l [] with rfl | hne
  · rw [h.nil_eq]
  · obtain ⟨a, ha⟩ := exists_argmin f hne
    have hne' : l' ≠ [] := by
      rintro rfl
      exact hne (List.perm_nil.mp h)
    obtain ⟨b, hb⟩ := exists_argmin f hne'
    have heq := hg a (List.argmin_mem ha) b (h.mem_iff.mpr (List.argmin_mem hb))
      (fun c hc => List.le_of_mem_argmin hc ha) (argmin_perm h ha hb)
    rw [ha, hb, Option.map_some, Option.map_some, heq]

/-- Of equal elements the first is picked. -/
theorem argmin_cons_of_le (h : ∀ b ∈ l, f a ≤ f b) : (a :: l).argmin f = some a := by
  rw [List.argmin_cons]
  cases hmin : l.argmin f with
  | none => rfl
  | some b => exact if_neg (not_lt.mpr (h b (List.argmin_mem hmin)))

end Argmin

theorem mem_known {α κ : Type} {value : α → Option κ} {l : List α} {b : α} {w : κ} (hb : b ∈ l)
    (hw : value b = some w) : b ∈ l.filter fun a => (value a).isSome :=
  List.mem_filter.mpr ⟨hb, Option.isSome_iff_exists.mpr ⟨w, hw⟩⟩

section Known

variable {α κ : Type} [LinearOrder κ] [Zero κ] {value : α → Option κ} {l l' : List α} {a b : α}

/-- A key that takes a zero, like nothing, for the greatest. -/
def orTop : Option κ → WithTop κ
  | some x => if x = 0 then ⊤ else x
  | none => ⊤

/-- No known value is less than the one of `a`. -/
def LeastKnown (value : α → Option κ) (l : List α) (a : α) : Prop :=
  ∀ b ∈ l, ∀ w, value b = some w → ∃ v, value a = some v ∧ v ≤ w

@[simp] theorem orTop_none : orTop (none : Option κ) = ⊤ := rfl

@[simp] theorem orTop_zero : orTop (some (0 : κ)) = ⊤ := if_pos rfl

theorem orTop_of_ne {x : κ} (h : x ≠ 0) : orTop (some x) = x := if_neg h

theorem orTop_eq_coe {o : Option κ} {x : κ} (h : orTop o = x) : o = some x := by
  cases o with
  | none => exact absurd h WithTop.top_ne_coe
  | some y =>
    rcases eq_or_ne y 0 with rfl | hy
    · rw [orTop_zero] at h
      exact absurd h WithTop.top_ne_coe
    · rw [orTop_of_ne hy, WithTop.coe_inj] at h
      rw [h]

theorem orTop_eq_top {o : Option κ} (h : orTop o = ⊤) : o = none ∨ o = some 0 := by
  cases o with
  | none => exact .inl rfl
  | some x =>
    refine .inr (congrArg some (not_ne_iff.mp fun hx => ?_))
    rw [orTop_of_ne hx] at h
    exact WithTop.coe_ne_top h

theorem orTop_inj_of_known {o o' : Option κ} (ho : o ≠ none) (ho' : o' ≠ none)
    (h : orTop o = orTop o') : o = o' := by
  cases hkey : orTop o with
  | coe x => rw [orTop_eq_coe hkey, orTop_eq_coe (h.symm.trans hkey)]
  | top =>
    rw [(orTop_eq_top hkey).resolve_left ho, (orTop_eq_top (h.symm.trans hkey)).resolve_left ho']

/-- A value that is no zero bounds the picked one. -/
theorem exists_le_of_argmin (ha : l.argmin (fun a => orTop (value a)) = some a) (hb : b ∈ l) {w : κ}
    (hw : value b = some w) (hne : w ≠ 0) : ∃ v, value a = some v ∧ v ≠ 0 ∧ v ≤ w := by
  have hle : orTop (value a) ≤ orTop (value b) :=
    List.le_of_mem_argmin (f := fun a => orTop (value a)) hb ha
  rw [hw, orTop_of_ne hne] at hle
  obtain ⟨v, hv, hvw⟩ := WithTop.le_coe_iff.mp hle
  have hvalue := orTop_eq_coe hv
  refine ⟨v, hvalue, ?_, hvw⟩
  rintro rfl
  rw [hvalue, orTop_zero] at hv
  exact WithTop.top_ne_coe hv

/-- When a nothing or a zero is picked there is nothing else. -/
theorem eq_zero_of_argmin (ha : l.argmin (fun a => orTop (value a)) = some a)
    (hzero : orTop (value a) = ⊤) (hb : b ∈ l) {w : κ} (hw : value b = some w) : w = 0 := by
  by_contra hne
  obtain ⟨v, hv, hv0, -⟩ := exists_le_of_argmin ha hb hw hne
  rw [hv, orTop_of_ne hv0] at hzero
  exact WithTop.coe_ne_top hzero

/-- The pick of the known values is the least when there is no zero, nothing but zeros, or something
below zero. -/
theorem leastKnown_iff
    (ha : (l.filter fun a => (value a).isSome).argmin (fun a => orTop (value a)) = some a) :
    LeastKnown value l a ↔ ((∃ b ∈ l, value b = some 0) →
      (∀ b ∈ l, ∀ w, value b = some w → w = 0) ∨ ∃ b ∈ l, ∃ w < 0, value b = some w) := by
  obtain ⟨hmem, hsome⟩ := List.mem_filter.mp (List.argmin_mem ha)
  constructor
  · rintro hleast ⟨zero, hzero, hvalue⟩
    obtain ⟨v, hv, hle⟩ := hleast zero hzero 0 hvalue
    rcases hle.lt_or_eq with hlt | rfl
    · exact .inr ⟨a, hmem, v, hlt, hv⟩
    · refine .inl fun b hb w hw => ?_
      exact eq_zero_of_argmin ha (by rw [hv, orTop_zero]) (mem_known hb hw) hw
  · intro h b hb w hw
    rcases eq_or_ne w 0 with rfl | hne
    · rcases h ⟨b, hb, hw⟩ with hall | ⟨c, hc, u, hu, hvalue⟩
      · obtain ⟨v, hv⟩ := Option.isSome_iff_exists.mp hsome
        exact ⟨v, hv, (hall a hmem v hv).le⟩
      · obtain ⟨v, hv, -, hle⟩ := exists_le_of_argmin ha (mem_known hc hvalue) hvalue hu.ne
        exact ⟨v, hv, hle.trans hu.le⟩
    · obtain ⟨v, hv, -, hle⟩ := exists_le_of_argmin ha (mem_known hb hw) hw hne
      exact ⟨v, hv, hle⟩

theorem zero_of_leastKnown (ha : l.argmin (fun a => orTop (value a)) = some a)
    (hnonneg : ∀ b ∈ l, ∀ w, value b = some w → 0 ≤ w) (hleast : LeastKnown value l a)
    (hb : b ∈ l) (hzero : value b = some 0) : ∀ c ∈ l, ∀ w, value c = some w → w = 0 := by
  obtain ⟨v, hv, hle⟩ := hleast b hb 0 hzero
  obtain rfl := le_antisymm hle (hnonneg a (List.argmin_mem ha) v hv)
  exact fun c hc w hw => eq_zero_of_argmin ha (by rw [hv, orTop_zero]) hc hw

theorem leastKnown_of_zero (ha : l.argmin (fun a => orTop (value a)) = some a)
    (h : (∃ b ∈ l, value b = some 0) → ∀ b ∈ l, value b = some 0) : LeastKnown value l a := by
  intro b hb w hw
  rcases eq_or_ne w 0 with rfl | hne
  · exact ⟨0, h ⟨b, hb, hw⟩ a (List.argmin_mem ha), le_rfl⟩
  · obtain ⟨v, hv, -, hle⟩ := exists_le_of_argmin ha hb hw hne
    exact ⟨v, hv, hle⟩

theorem orderless_iff :
    (∀ l' : List α, l'.Perm l → (l.argmin fun a => orTop (value a)).map value =
        (l'.argmin fun a => orTop (value a)).map value) ↔
      ((∃ b ∈ l, value b = some 0) → (∃ b ∈ l, value b = none) →
        ∃ b ∈ l, ∃ w, value b = some w ∧ w ≠ 0) := by
  constructor
  · rintro h ⟨zero, hzero, hvalue⟩ ⟨missing, hmissing, hnone⟩
    by_contra hno
    have htop : ∀ b ∈ l, orTop (value b) = ⊤ := by
      intro b hb
      cases hb0 : value b with
      | none => rfl
      | some w =>
        have hw : w = 0 := by
          by_contra hne
          exact hno ⟨b, hb, w, hb0, hne⟩
        rw [hw, orTop_zero]
    have hfirst : ∀ b ∈ l, (l.argmin fun a => orTop (value a)).map value = some (value b) := by
      intro b hb
      obtain ⟨before, after, rfl⟩ := List.append_of_mem hb
      have hperm : (b :: (before ++ after)).Perm (before ++ b :: after) := List.perm_middle.symm
      have hle : ∀ c ∈ before ++ after, orTop (value b) ≤ orTop (value c) := by
        intro c hc
        rw [htop c (hperm.mem_iff.mp (List.mem_cons_of_mem b hc))]
        exact le_top
      rw [h _ hperm, argmin_cons_of_le hle, Option.map_some]
    have := (hfirst zero hzero).symm.trans (hfirst missing hmissing)
    rw [hvalue, hnone] at this
    simp at this
  · intro h l' hperm
    refine argmin_map_perm ?_ hperm.symm
    intro a ha b hb hleast heq
    cases hkey : orTop (value a) with
    | coe x => rw [orTop_eq_coe hkey, orTop_eq_coe (heq.symm.trans hkey)]
    | top =>
      have hzeros : ∀ c ∈ l, ∀ w, value c = some w → w = 0 := by
        intro c hc w hw
        by_contra hne
        have hle := hleast c hc
        rw [hkey, hw, orTop_of_ne hne] at hle
        exact WithTop.coe_ne_top (top_le_iff.mp hle)
      have hnot : ∀ c ∈ l, ∀ d ∈ l, value c = some 0 → value d ≠ none := by
        intro c hc d hd hzero hnone
        obtain ⟨e, he, w, hw, hne⟩ := h ⟨c, hc, hzero⟩ ⟨d, hd, hnone⟩
        exact hne (hzeros e he w hw)
      rcases orTop_eq_top hkey with hvalue | hvalue <;>
        rcases orTop_eq_top (heq.symm.trans hkey) with hvalue' | hvalue'
      · rw [hvalue, hvalue']
      · exact absurd hvalue (hnot b hb a ha hvalue')
      · exact absurd hvalue' (hnot a ha b hb hvalue)
      · rw [hvalue, hvalue']

end Known

end AeepRouter.Lib

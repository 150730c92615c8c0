import Mathlib.Tactic
import Mathlib.Algebra.BigOperators.Group.List.Basic

/-!
# Tables with a primary key

A table is the list of its rows in insertion order, no two of one key. `insert` keeps a table that
holds the key already, `modify` rewrites the row of a key without moving it, `erase` drops it, `put`
replaces it and `rewrite` rewrites every row.
`select p g` lists a column of the rows that meet `p`, as a query does; `sumBy w` adds up the weights
of the rows. Every operation moves both by the row it touches.
-/

namespace AeepRouter.Lib

/-- Rows in insertion order, at most one for a key. -/
structure Table (α : Type) {κ : Type} (key : α → κ) where
  rows : List α
  nodup : (rows.map key).Nodup

namespace Table

variable {α κ : Type} {key : α → κ}

/-- A rewrite of rows that keeps their key. -/
structure Rewrite (key : α → κ) where
  toFun : α → α
  keeps : ∀ x, key (toFun x) = key x

instance : CoeFun (Rewrite key) fun _ => α → α := ⟨Rewrite.toFun⟩

@[ext] theorem ext {t u : Table α key} (h : t.rows = u.rows) : t = u := by
  cases t
  cases u
  cases h
  rfl

instance [DecidableEq α] : DecidableEq (Table α key) :=
  fun t u => decidable_of_iff (t.rows = u.rows) ⟨ext, congrArg rows⟩

def empty : Table α key := ⟨[], List.nodup_nil⟩

instance : EmptyCollection (Table α key) := ⟨empty⟩

instance : Membership α (Table α key) := ⟨fun t x => x ∈ t.rows⟩

theorem mem_def {t : Table α key} {x : α} : x ∈ t ↔ x ∈ t.rows := Iff.rfl

@[simp] theorem not_mem_empty {x : α} : ¬ x ∈ (∅ : Table α key) := List.not_mem_nil

instance {p : α → Prop} [DecidablePred p] {t : Table α key} : Decidable (∀ x ∈ t, p x) :=
  inferInstanceAs (Decidable (∀ x ∈ t.rows, p x))

instance [DecidableEq α] {t : Table α key} {x : α} : Decidable (x ∈ t) :=
  inferInstanceAs (Decidable (x ∈ t.rows))

/-- Two rows of one key are one row. -/
theorem eq_of_key_eq {t : Table α key} {x y : α} (hx : x ∈ t) (hy : y ∈ t) (h : key x = key y) :
    x = y :=
  List.inj_on_of_nodup_map t.nodup hx hy h

section Select

variable {β : Type} {p q : α → Prop} [DecidablePred p] [DecidablePred q] {g : α → β}

/-- A column of the rows that meet a condition. -/
def select (p : α → Prop) [DecidablePred p] (g : α → β) (t : Table α key) : List β :=
  (t.rows.filter fun x => p x).map g

theorem mem_select {t : Table α key} {y : β} : y ∈ t.select p g ↔ ∃ x ∈ t, p x ∧ g x = y := by
  simp [select, mem_def, and_assoc]

@[simp] theorem select_empty : (∅ : Table α key).select p g = [] := rfl

theorem select_eq_nil {t : Table α key} (h : ∀ x ∈ t, ¬ p x) : t.select p g = [] := by
  unfold select
  rw [List.filter_eq_nil_iff.mpr fun x hx => by simpa using h x hx, List.map_nil]

theorem select_congr {t : Table α key} (h : ∀ x ∈ t, p x ↔ q x) : t.select p g = t.select q g :=
  congrArg (List.map g) (List.filter_congr fun x hx => by simp only [h x hx])

theorem sum_select_le {t : Table α key} {w : α → ℚ} (hpq : ∀ x ∈ t, p x → q x)
    (hw : ∀ x ∈ t, 0 ≤ w x) : (t.select p w).sum ≤ (t.select q w).sum := by
  have hrows : (t.rows.filter fun x => p x) = (t.rows.filter fun x => q x).filter fun x => p x := by
    rw [List.filter_filter]
    refine List.filter_congr fun x hx => ?_
    by_cases hp : p x
    · simp [hp, hpq x hx hp]
    · simp [hp]
  have hsub : (t.select p w).Sublist (t.select q w) := by
    unfold select
    rw [hrows]
    exact List.filter_sublist.map w
  refine hsub.sum_le_sum fun y hy => ?_
  obtain ⟨x, hx, -, rfl⟩ := mem_select.mp hy
  exact hw x hx

end Select

section Weights

variable {M : Type} [AddCommMonoid M]

/-- The weights of the rows, added up. -/
def sumBy (w : α → M) (t : Table α key) : M := (t.rows.map w).sum

@[simp] theorem sumBy_empty (w : α → M) : sumBy w (∅ : Table α key) = 0 := rfl

theorem sum_select (p : α → Prop) [DecidablePred p] (w : α → M) (t : Table α key) :
    (t.select p w).sum = sumBy (fun x => if p x then w x else 0) t := by
  unfold select sumBy
  induction t.rows with
  | nil => rfl
  | cons x xs ih =>
    rw [List.map_cons, List.sum_cons, ← ih]
    by_cases hp : p x <;> simp [hp]

theorem sumBy_congr {t : Table α key} {w w' : α → M} (h : ∀ x ∈ t, w x = w' x) :
    sumBy w t = sumBy w' t := by
  unfold sumBy
  rw [List.map_congr_left h]

theorem sumBy_nonneg [PartialOrder M] [IsOrderedAddMonoid M]
    {t : Table α key} {w : α → M} (h : ∀ x ∈ t, 0 ≤ w x) : 0 ≤ sumBy w t :=
  List.sum_nonneg (by simpa [mem_def] using h)

/-- Weights that differ in one row trade its old weight for its new one. -/
theorem sumBy_edit {t : Table α key} {x : α} (hx : x ∈ t) {w w' : α → M}
    (h : ∀ y ∈ t, key y ≠ key x → w' y = w y) : sumBy w' t + w x = sumBy w t + w' x := by
  obtain ⟨l, l', hrows⟩ := List.append_of_mem hx
  have hnodup := t.nodup
  rw [hrows, List.map_append, List.map_cons, List.nodup_append, List.nodup_cons] at hnodup
  obtain ⟨-, ⟨hafter, -⟩, hbefore⟩ := hnodup
  have hl : l.map w' = l.map w := List.map_congr_left fun y hy =>
    h y (by simp [mem_def, hrows, hy]) (hbefore _ (List.mem_map_of_mem hy) _ List.mem_cons_self)
  have hl' : l'.map w' = l'.map w := List.map_congr_left fun y hy =>
    h y (by simp [mem_def, hrows, hy]) fun hkey => hafter (List.mem_map.mpr ⟨y, hy, hkey⟩)
  simp only [sumBy, hrows, List.map_append, List.map_cons, List.sum_append, List.sum_cons, hl, hl']
  abel

end Weights

variable [DecidableEq κ]

def find? (t : Table α key) (k : κ) : Option α := t.rows.find? fun x => key x = k

/-- Adds a row unless its key is taken. -/
def insert (t : Table α key) (x : α) : Table α key :=
  if h : key x ∈ t.rows.map key then t
  else ⟨t.rows ++ [x], by
    rw [List.map_append, List.nodup_append]
    refine ⟨t.nodup, by simp, ?_⟩
    rintro k hk l hl rfl
    obtain rfl : k = key x := by simpa using hl
    exact h hk⟩

def modify (t : Table α key) (k : κ) (f : Rewrite key) : Table α key :=
  ⟨t.rows.map fun x => if key x = k then f x else x, by
    have : (key ∘ fun x => if key x = k then f x else x) = key := by
      funext x
      simp only [Function.comp]
      split <;> simp [f.keeps]
    rw [List.map_map, this]
    exact t.nodup⟩

def erase (t : Table α key) (k : κ) : Table α key :=
  ⟨t.rows.filter fun x => key x ≠ k, (List.filter_sublist.map key).nodup t.nodup⟩

/-! ## Lookup -/

theorem find?_eq_some {t : Table α key} {k : κ} {x : α} :
    t.find? k = some x ↔ x ∈ t ∧ key x = k := by
  constructor
  · intro h
    exact ⟨List.mem_of_find?_eq_some h, by simpa using List.find?_some h⟩
  · rintro ⟨hx, rfl⟩
    cases h : t.find? (key x) with
    | none => simpa using List.find?_eq_none.mp h x hx
    | some y =>
      have hy : key y = key x := by simpa using List.find?_some h
      rw [eq_of_key_eq (List.mem_of_find?_eq_some h) hx hy]

theorem find?_eq_none {t : Table α key} {k : κ} : t.find? k = none ↔ ∀ x ∈ t, key x ≠ k := by
  simp [find?, mem_def]

theorem find?_of_mem {t : Table α key} {x : α} (h : x ∈ t) : t.find? (key x) = some x :=
  find?_eq_some.mpr ⟨h, rfl⟩

theorem mem_of_find? {t : Table α key} {k : κ} {x : α} (h : t.find? k = some x) : x ∈ t :=
  (find?_eq_some.mp h).1

theorem key_of_find? {t : Table α key} {k : κ} {x : α} (h : t.find? k = some x) : key x = k :=
  (find?_eq_some.mp h).2

@[simp] theorem find?_empty (k : κ) : (∅ : Table α key).find? k = none := rfl

/-! ## Insertion -/

theorem insert_rows {t : Table α key} {x : α} (h : t.find? (key x) = none) :
    (t.insert x).rows = t.rows ++ [x] := by
  have hx : key x ∉ t.rows.map key := by
    rw [List.mem_map]
    rintro ⟨y, hy, hk⟩
    exact find?_eq_none.mp h y hy hk
  simp [insert, hx]

theorem mem_insert {t : Table α key} {x y : α} (h : t.find? (key x) = none) :
    y ∈ t.insert x ↔ y ∈ t ∨ y = x := by
  rw [mem_def, insert_rows h, List.mem_append, List.mem_singleton, mem_def]

theorem mem_or_eq_of_mem_insert {t : Table α key} {x y : α} (h : y ∈ t.insert x) :
    y ∈ t ∨ y = x := by
  by_cases hx : key x ∈ t.rows.map key
  · left
    simpa [insert, hx] using h
  · simpa [insert, hx, mem_def] using h

theorem mem_or_new_of_mem_insert {t : Table α key} {x y : α} (h : y ∈ t.insert x) :
    y ∈ t ∨ y = x ∧ t.find? (key x) = none := by
  by_cases hx : key x ∈ t.rows.map key
  · left
    simpa [insert, hx] using h
  · refine (mem_or_eq_of_mem_insert h).imp_right fun hy => ⟨hy, find?_eq_none.mpr fun z hz hk => ?_⟩
    exact hx (hk ▸ List.mem_map_of_mem hz)

theorem mem_insert_of_mem {t : Table α key} {x y : α} (h : y ∈ t) : y ∈ t.insert x := by
  by_cases hx : key x ∈ t.rows.map key
  · simpa [insert, hx] using h
  · have hy : y ∈ t.rows ++ [x] := List.mem_append_left [x] h
    simpa [insert, hx, mem_def] using hy

theorem find?_insert {t : Table α key} {x : α} (h : t.find? (key x) = none) (k : κ) :
    (t.insert x).find? k = if k = key x then some x else t.find? k := by
  unfold find?
  rw [insert_rows h, List.find?_append]
  split
  · next hk =>
    subst hk
    rw [show t.rows.find? _ = none from h]
    simp
  · next hk => simp [Ne.symm hk]

theorem find?_insert_self {t : Table α key} {x : α} (h : t.find? (key x) = none) :
    (t.insert x).find? (key x) = some x := by
  rw [find?_insert h, if_pos rfl]

theorem map_insert {β : Type} {t : Table α key} {x : α} (h : t.find? (key x) = none) (g : α → β) :
    (t.insert x).rows.map g = t.rows.map g ++ [g x] := by
  rw [insert_rows h, List.map_append, List.map_singleton]

/-! ## Modification -/

section Modify

variable {t : Table α key} {f : Rewrite key}

theorem mem_modify {k : κ} {y : α} :
    y ∈ t.modify k f ↔ ∃ x ∈ t, y = if key x = k then f x else x := by
  simp only [mem_def, modify, List.mem_map, eq_comm]

theorem map_modify {β : Type} {g : α → β} (hg : ∀ x, g (f x) = g x) (k : κ) :
    (t.modify k f).rows.map g = t.rows.map g := by
  unfold modify
  rw [List.map_map]
  refine List.map_congr_left fun x _ => ?_
  simp only [Function.comp]
  split
  · exact hg x
  · rfl

theorem find?_modify (k k' : κ) :
    (t.modify k f).find? k' = if k' = k then (t.find? k).map f else t.find? k' := by
  have hmap : (t.modify k f).find? k' =
      (t.find? k').map fun x => if key x = k then f x else x := by
    unfold find? modify
    rw [List.find?_map]
    congr 2
    funext x
    simp only [Function.comp]
    split <;> simp [f.keeps]
  rw [hmap]
  cases h : t.find? k' with
  | none =>
    split
    · next hk => rw [← hk, h]; rfl
    · rfl
  | some x =>
    obtain rfl := key_of_find? h
    split
    · next hk => rw [← hk, h, Option.map_some, if_pos rfl, Option.map_some]
    · next hk => rw [Option.map_some, if_neg hk]

theorem find?_modify_self {k : κ} {x : α} (h : t.find? k = some x) :
    (t.modify k f).find? k = some (f x) := by
  rw [find?_modify, if_pos rfl, h]
  rfl

theorem find?_modify_ne {k k' : κ} (h : k' ≠ k) : (t.modify k f).find? k' = t.find? k' := by
  rw [find?_modify, if_neg h]

end Modify

/-! ## Removal -/

theorem mem_erase {t : Table α key} {k : κ} {y : α} : y ∈ t.erase k ↔ y ∈ t ∧ key y ≠ k := by
  simp [mem_def, erase]

theorem find?_erase (t : Table α key) (k k' : κ) :
    (t.erase k).find? k' = if k' = k then none else t.find? k' := by
  split
  · next h =>
    subst h
    exact find?_eq_none.mpr fun x hx => (mem_erase.mp hx).2
  · next h =>
    cases hx : t.find? k' with
    | none =>
      exact find?_eq_none.mpr fun x hm => find?_eq_none.mp hx x (mem_erase.mp hm).1
    | some x =>
      obtain ⟨hm, hk⟩ := find?_eq_some.mp hx
      exact find?_eq_some.mpr ⟨mem_erase.mpr ⟨hm, by rwa [hk]⟩, hk⟩

/-! ## Replacement -/

/-- Puts a row in the place of the row of its key, if there is one. -/
def put (t : Table α key) (x : α) : Table α key := (t.erase (key x)).insert x

theorem mem_put {t : Table α key} {x y : α} : y ∈ t.put x ↔ y = x ∨ y ∈ t ∧ key y ≠ key x := by
  unfold put
  rw [mem_insert (by rw [find?_erase, if_pos rfl]), mem_erase, or_comm]

def rewrite (t : Table α key) (f : Rewrite key) : Table α key :=
  ⟨t.rows.map f, by
    have : key ∘ f = key := funext f.keeps
    rw [List.map_map, this]
    exact t.nodup⟩

omit [DecidableEq κ] in
theorem mem_rewrite {t : Table α key} {f : Rewrite key} {y : α} :
    y ∈ t.rewrite f ↔ ∃ x ∈ t, f x = y := List.mem_map

theorem find?_rewrite (t : Table α key) (f : Rewrite key) (k : κ) :
    (t.rewrite f).find? k = (t.find? k).map f := by
  unfold find? rewrite
  rw [List.find?_map]
  congr 2
  funext x
  simp [f.keeps]

/-! ## Agreement -/

section Agree

variable {p : κ → Prop} {t u t' u' : Table α key}

/-- Two tables with the same rows at some keys. -/
def Agree (p : κ → Prop) (t u : Table α key) : Prop := ∀ k, p k → t.find? k = u.find? k

/-- A table that differs from another at one key, by what that one has there. -/
def Edits (k : κ) (f : Option α → Option α) (t t' : Table α key) : Prop :=
  ∀ k', t'.find? k' = if k' = k then f (t.find? k) else t.find? k'

theorem edits_insert (t : Table α key) (x : α) :
    Edits (key x) (fun row => row.or (some x)) t (t.insert x) := by
  intro k
  cases h : t.find? (key x) with
  | none => exact find?_insert h k
  | some y =>
    have hx : key x ∈ t.rows.map key := by
      rw [← key_of_find? h]
      exact List.mem_map_of_mem (mem_of_find? h)
    have ht : t.insert x = t := by simp [insert, hx]
    rw [ht]
    split
    · next hk =>
      rw [hk, h]
      rfl
    · rfl

theorem edits_modify (t : Table α key) (k : κ) (f : Rewrite key) :
    Edits k (fun row => row.map f) t (t.modify k f) := fun k' => find?_modify k k'

theorem edits_erase (t : Table α key) (k : κ) : Edits k (fun _ => none) t (t.erase k) :=
  fun k' => find?_erase t k k'

theorem Agree.edit (h : t.Agree p u) {k : κ} {f : Option α → Option α} (hk : p k)
    (ht : Edits k f t t') (hu : Edits k f u u') : t'.Agree p u' := by
  intro k' hk'
  rw [ht, hu, h k hk, h k' hk']

theorem Agree.edit_left (h : t.Agree p u) {k : κ} {f : Option α → Option α} (hk : ¬ p k)
    (ht : Edits k f t t') : t'.Agree p u := by
  intro k' hk'
  have hne : k' ≠ k := by
    rintro rfl
    exact hk hk'
  rw [ht, if_neg hne, h k' hk']

end Agree

/-! ## Selection -/

section Select

variable {β : Type} {p q : α → Prop} [DecidablePred p] [DecidablePred q] {g : α → β}

theorem select_insert {t : Table α key} {x : α} (h : t.find? (key x) = none) :
    (t.insert x).select p g = t.select p g ++ if p x then [g x] else [] := by
  unfold select
  rw [insert_rows h, List.filter_append, List.map_append]
  by_cases hp : p x <;> simp [hp]

/-- A rewrite that keeps the column changes which rows are selected, not what they give. -/
theorem select_modify {t : Table α key} {k : κ} {f : Rewrite key} (hg : ∀ x, g (f x) = g x)
    (h : ∀ x ∈ t, p (if key x = k then f x else x) ↔ q x) :
    (t.modify k f).select p g = t.select q g := by
  unfold select modify
  dsimp only
  rw [List.filter_map, List.map_map]
  have hcolumn : (g ∘ fun x => if key x = k then f x else x) = g := by
    funext x
    show g (if key x = k then f x else x) = g x
    split
    · exact hg x
    · rfl
  rw [hcolumn]
  refine congrArg (List.map g) (List.filter_congr fun x hx => ?_)
  simp only [Function.comp, h x hx]

end Select

/-! ## Weights -/

section Weights

variable {M : Type} [AddCommMonoid M]

theorem sumBy_insert {t : Table α key} {x : α} (h : t.find? (key x) = none) (w : α → M) :
    sumBy w (t.insert x) = sumBy w t + w x := by
  simp [sumBy, insert_rows h]

/-- A modification trades the old weight of the row for its new one. -/
theorem sumBy_modify {t : Table α key} {k : κ} {r : α} (h : t.find? k = some r) (f : Rewrite key)
    (w : α → M) : sumBy w (t.modify k f) + w r = sumBy w t + w (f r) := by
  obtain ⟨hm, rfl⟩ := find?_eq_some.mp h
  have hedit : sumBy (fun x => w (if key x = key r then f x else x)) t + w r =
      sumBy w t + w (if key r = key r then f r else r) :=
    sumBy_edit hm fun y _ hy => by rw [if_neg hy]
  simpa [sumBy, modify, List.map_map, Function.comp_def] using hedit

end Weights

end Table

end AeepRouter.Lib

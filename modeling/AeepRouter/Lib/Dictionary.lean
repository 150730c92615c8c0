import AeepRouter.Lib.Table

/-!
# Assignments to a dictionary

`t.assign x` is `d[key] = value`: it replaces the row of a key where it stands, or appends a new one.
A table in which other keys are never assigned again `Extends` the table it was.
-/

namespace AeepRouter.Lib.Table

variable {α κ : Type} [DecidableEq κ] {key : α → κ}

/-- `d[key] = value`: the row of a key keeps its place. -/
def assign (t : Table α key) (x : α) : Table α key :=
  if (t.find? (key x)).isSome then
    t.rewrite ⟨fun y => if key y = key x then x else y, fun y => by split <;> simp_all⟩
  else t.insert x

theorem assign_eq_insert {t : Table α key} {x : α} (h : t.find? (key x) = none) :
    t.assign x = t.insert x := by
  simp [assign, h]

theorem find?_assign_of_none {t : Table α key} {x : α} (h : t.find? (key x) = none) :
    (t.assign x).find? (key x) = some x := by
  simp [assign, h, find?_insert_self h]

theorem mem_assign_of_none {t : Table α key} {x y : α} (h : t.find? (key x) = none) :
    y ∈ t.assign x ↔ y ∈ t ∨ y = x := by
  rw [assign_eq_insert h, mem_insert h]

/-- Every row of the first table is a row of the second. -/
def Extends (t t' : Table α key) : Prop := ∀ x ∈ t, x ∈ t'

omit [DecidableEq κ] in
theorem Extends.refl (t : Table α key) : t.Extends t := fun _ h => h

omit [DecidableEq κ] in
theorem Extends.trans {t u v : Table α key} (h : t.Extends u) (h' : u.Extends v) : t.Extends v :=
  fun x hx => h' x (h x hx)

theorem Extends.find? {t t' : Table α key} (h : t.Extends t') {k : κ} {x : α}
    (hx : t.find? k = some x) : t'.find? k = some x := by
  obtain ⟨hmem, rfl⟩ := find?_eq_some.mp hx
  exact find?_of_mem (h x hmem)

theorem extends_assign {t : Table α key} {x : α} (h : t.find? (key x) = none) :
    t.Extends (t.assign x) := fun _ hy => (mem_assign_of_none h).mpr (.inl hy)

end AeepRouter.Lib.Table

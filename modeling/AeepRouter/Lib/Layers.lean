import Mathlib.Data.List.Sort
import Mathlib.Logic.Relation
import Mathlib.Order.WellFounded
import Mathlib.Tactic

/-!
# Layers of a dependency graph

`layers` takes the elements without a dependency among those that remain, sorted, then those of the
rest, and so on. On a graph without cycles it puts every element in the list once, after all it
depends on; on a graph with a cycle it stops short (`acyclic_iff`), so that having no cycle can be
decided.
-/

namespace AeepRouter.Lib.Layers

variable {α : Type} [DecidableEq α] (deps : α → List α)

/-- The elements that wait for nothing that remains. -/
def ready (remaining : List α) : List α :=
  remaining.filter fun a => ∀ d ∈ deps a, d ∉ remaining

/-- The elements that wait. -/
def waiting (remaining : List α) : List α :=
  remaining.filter fun a => ¬ ∀ d ∈ deps a, d ∉ remaining

def layers (sort : List α → List α) : (rounds : ℕ) → (remaining : List α) → List α
  | 0, _ => []
  | rounds + 1, remaining =>
    sort (ready deps remaining) ++ layers sort rounds (waiting deps remaining)

/-- `d` is among the elements and one of them depends on it. -/
def Needs (elements : List α) (d a : α) : Prop := d ∈ elements ∧ a ∈ elements ∧ d ∈ deps a

/-- No element depends on itself, directly or through others. -/
def Acyclic (elements : List α) : Prop := ∀ a, ¬ Relation.TransGen (Needs deps elements) a a

variable {deps} {sort : List α → List α} {elements remaining : List α}

theorem mem_ready {a : α} :
    a ∈ ready deps remaining ↔ a ∈ remaining ∧ ∀ d ∈ deps a, d ∉ remaining := by
  simp [ready]

theorem ready_append_waiting (deps : α → List α) (remaining : List α) :
    (ready deps remaining ++ waiting deps remaining).Perm remaining := by
  unfold ready waiting
  simpa only [decide_not] using List.filter_append_perm
    (fun a => decide (∀ d ∈ deps a, d ∉ remaining)) remaining

theorem ready_or_waiting (deps : α → List α) {a : α} (h : a ∈ remaining) :
    a ∈ ready deps remaining ∨ a ∈ waiting deps remaining :=
  List.mem_append.mp ((ready_append_waiting deps remaining).mem_iff.mpr h)

theorem waiting_sublist (remaining : List α) : (waiting deps remaining).Sublist remaining :=
  List.filter_sublist

/-! ## Graphs without cycles -/

omit [DecidableEq α] in
theorem Acyclic.sublist (h : Acyclic deps elements) (hsub : remaining.Sublist elements) :
    Acyclic deps remaining := fun a ha =>
  h a (Relation.TransGen.mono
    (fun _ _ hn => ⟨hsub.subset hn.1, hsub.subset hn.2.1, hn.2.2⟩ :
      Needs deps remaining ≤ Needs deps elements) a a ha)

/-- Where nothing depends on itself, something waits for nothing. -/
theorem exists_ready (h : Acyclic deps remaining) (hne : remaining ≠ []) :
    ∃ a, a ∈ ready deps remaining := by
  let Below (a b : {a // a ∈ remaining}) : Prop :=
    Relation.TransGen (Needs deps remaining) a.1 b.1
  have : IsTrans _ Below := ⟨fun _ _ _ => Relation.TransGen.trans⟩
  have : Std.Irrefl Below := ⟨fun a => h a.1⟩
  have : Finite {a // a ∈ remaining} := (List.finite_toSet remaining).to_subtype
  have hwf : WellFounded Below := Finite.wellFounded_of_trans_of_irrefl Below
  obtain ⟨x, hx⟩ := List.exists_mem_of_ne_nil remaining hne
  obtain ⟨⟨a, ha⟩, -, hmin⟩ := hwf.has_min Set.univ ⟨⟨x, hx⟩, trivial⟩
  refine ⟨a, mem_ready.mpr ⟨ha, fun d hd hr => ?_⟩⟩
  exact hmin ⟨d, hr⟩ trivial (.single ⟨hr, ha, hd⟩)

theorem length_waiting_lt (h : Acyclic deps remaining) (hne : remaining ≠ []) :
    (waiting deps remaining).length < remaining.length := by
  obtain ⟨a, ha⟩ := exists_ready h hne
  have hlen := (ready_append_waiting deps remaining).length_eq
  have hpos := List.length_pos_of_mem ha
  rw [List.length_append] at hlen
  omega

/-- Every element is in the list once. -/
theorem layers_perm (hsort : ∀ l, (sort l).Perm l) (h : Acyclic deps remaining) {rounds : ℕ}
    (hrounds : remaining.length ≤ rounds) : (layers deps sort rounds remaining).Perm remaining := by
  induction rounds generalizing remaining with
  | zero =>
    rw [List.length_eq_zero_iff.mp (Nat.le_zero.mp hrounds)]
    exact .refl _
  | succ rounds ih =>
    have hwaiting : (layers deps sort rounds (waiting deps remaining)).Perm
        (waiting deps remaining) := by
      refine ih (h.sublist (waiting_sublist _)) ?_
      rcases eq_or_ne remaining [] with rfl | hne
      · simp [waiting]
      · have := length_waiting_lt h hne
        omega
    exact ((hsort _).append hwaiting).trans (ready_append_waiting deps remaining)

/-! ## Order -/

/-- Every element comes after those of `elements` it depends on. -/
def Ordered (deps : α → List α) (elements : List α) (order : List α) : Prop :=
  ∀ before a after, order = before ++ a :: after → ∀ d ∈ deps a, d ∈ elements → d ∈ before

theorem layers_ordered (hsort : ∀ l, (sort l).Perm l) (rounds : ℕ) (remaining : List α) :
    Ordered deps remaining (layers deps sort rounds remaining) := by
  induction rounds generalizing remaining with
  | zero =>
    intro before a after h
    simp [layers] at h
  | succ rounds ih =>
    intro before a after h d hd hmem
    rw [layers, List.append_eq_append_iff] at h
    rcases h with ⟨front, rfl, hrest⟩ | ⟨back, hlayer, hrest⟩
    · -- the element is in a later layer
      rcases ready_or_waiting deps hmem with hready | hwaiting
      · exact List.mem_append_left _ ((hsort _).mem_iff.mpr hready)
      · exact List.mem_append_right _ (ih _ _ a after hrest d hd hwaiting)
    · cases back with
      | nil =>
        -- the first layer ends right before the element
        rw [List.append_nil] at hlayer
        rcases ready_or_waiting deps hmem with hready | hwaiting
        · exact hlayer ▸ (hsort _).mem_iff.mpr hready
        · exact absurd (ih _ [] a after (by simpa using hrest.symm) d hd hwaiting)
            List.not_mem_nil
      | cons x back =>
        -- the element is in the first layer and waits for nothing
        rw [List.cons_append, List.cons.injEq] at hrest
        obtain ⟨rfl, -⟩ := hrest
        have ha : a ∈ ready deps remaining :=
          (hsort _).mem_iff.mp (hlayer ▸ List.mem_append_right _ List.mem_cons_self)
        exact absurd hmem ((mem_ready.mp ha).2 d hd)

/-! ## Deciding that there is no cycle -/

/-- In an ordered list nothing comes before what it needs, however far. -/
theorem Ordered.idxOf_lt {order : List α} (h : Ordered deps elements order)
    (hmem : ∀ a ∈ elements, a ∈ order) (hnodup : order.Nodup) {d a : α}
    (hn : Relation.TransGen (Needs deps elements) d a) : order.idxOf d < order.idxOf a := by
  have step : ∀ {d a}, Needs deps elements d a → order.idxOf d < order.idxOf a := by
    rintro d a ⟨hd, ha, hda⟩
    obtain ⟨before, after, rfl⟩ := List.append_of_mem (hmem a ha)
    have hbefore := h before a after rfl d hda hd
    have hnot : a ∉ before := by
      intro hb
      exact (List.nodup_append.mp hnodup).2.2 a hb a List.mem_cons_self rfl
    rw [List.idxOf_append_of_mem hbefore, List.idxOf_append_of_notMem hnot]
    have := List.idxOf_lt_length_of_mem hbefore
    omega
  induction hn with
  | single hn => exact step hn
  | tail _ hn ih => exact ih.trans (step hn)

theorem acyclic_iff (deps : α → List α) (hsort : ∀ l, (sort l).Perm l) (hnodup : elements.Nodup) :
    Acyclic deps elements ↔ (layers deps sort elements.length elements).Perm elements := by
  refine ⟨fun h => layers_perm hsort h le_rfl, fun h a ha => ?_⟩
  have hlt := (layers_ordered hsort elements.length elements).idxOf_lt
    (fun a ha => h.mem_iff.mpr ha) (h.nodup_iff.mpr hnodup) ha
  exact absurd hlt (lt_irrefl _)

end AeepRouter.Lib.Layers

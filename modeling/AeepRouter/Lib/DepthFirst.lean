import Mathlib.Logic.Relation
import AeepRouter.Lib.Run

/-!
# Depth-first traversal with cycle detection

Each key has steps to take, and a step fails or names keys to visit. A visit of a key on the path to
it fails as `cyclic`; one of a selected key is over; any other takes the steps of the key in their
order and then selects it. A visit has fuel, and the error is `none` where that runs out, which it
does not if it exceeds the number of keys (`visitAll_ends`).

After a visit that succeeds, every selected key has its successors selected before it (`Settled`), so
none of them lies on a cycle, and what is new was reachable (`Explores`).
-/

namespace AeepRouter.Lib.DepthFirst

open Relation

variable {κ ε : Type}

section Definitions

variable [DecidableEq κ] (steps : κ → List (Except ε (List κ))) (cyclic : ε)

/-- A visit of a key, with the keys on the path to it and those selected before. -/
def visit : ℕ → List κ → List κ → κ → Except (Option ε) (List κ)
  | 0, _, _, _ => .error none
  | fuel + 1, visiting, selected, key =>
    if key ∈ visiting then .error (some cyclic)
    else if key ∈ selected then .ok selected
    else do
      let selected ← (steps key).foldlM (fun selected step => do
        let references ← step.mapError some
        references.foldlM (visit fuel (key :: visiting)) selected) selected
      pure (key :: selected)

/-- The visits of some keys, one after the other. -/
def visitAll (fuel : ℕ) (roots : List κ) : Except (Option ε) (List κ) :=
  roots.foldlM (visit steps cyclic fuel []) []

def Edge (a b : κ) : Prop := ∃ references, .ok references ∈ steps a ∧ b ∈ references

/-- No step of the key fails. -/
def Sound (a : κ) : Prop := ∀ step ∈ steps a, ∃ references, step = .ok references

end Definitions

/-- Each key comes after its successors, and once. -/
def Settled (R : κ → κ → Prop) : List κ → Prop
  | [] => True
  | a :: rest => (a ∉ rest ∧ ∀ b, R a b → b ∈ rest) ∧ Settled R rest

namespace Settled

variable {R S : κ → κ → Prop} {l : List κ} {a b : κ}

theorem mem_of_rel (h : Settled R l) (ha : a ∈ l) (hab : R a b) : b ∈ l := by
  induction l with
  | nil => cases ha
  | cons c l ih =>
    rcases List.mem_cons.mp ha with rfl | ha
    · exact List.mem_cons_of_mem _ (h.1.2 b hab)
    · exact List.mem_cons_of_mem _ (ih h.2 ha)

theorem mem_of_reach (h : Settled R l) (ha : a ∈ l) (hab : ReflTransGen R a b) : b ∈ l := by
  induction hab with
  | refl => exact ha
  | tail _ hlast ih => exact h.mem_of_rel ih hlast

/-- No settled key lies on a cycle. -/
theorem acyclic (h : Settled R l) (ha : a ∈ l) : ¬ TransGen R a a := by
  induction l with
  | nil => cases ha
  | cons c l ih =>
    rcases List.mem_cons.mp ha with rfl | ha
    · intro hcycle
      obtain ⟨b, hfirst, hback⟩ := TransGen.head'_iff.mp hcycle
      exact h.1.1 (h.2.mem_of_reach (h.1.2 b hfirst) hback)
    · exact ih h.2 ha

theorem mono (h : Settled R l) (hle : ∀ a ∈ l, ∀ b, S a b → R a b) : Settled S l := by
  induction l with
  | nil => trivial
  | cons c l ih =>
    rw [List.forall_mem_cons] at hle
    exact ⟨⟨h.1.1, fun b hb => h.1.2 b (hle.1 b hb)⟩, ih h.2 hle.2⟩

end Settled

/-! ## Visits that succeed -/

section Success

variable (steps : κ → List (Except ε (List κ)))

/-- What is selected from `starts` on, off the path `visiting`. -/
structure Explores (starts visiting selected selected' : List κ) : Prop where
  keeps : ∀ a ∈ selected, a ∈ selected'
  settled : Settled (Edge steps) selected → Settled (Edge steps) selected'
  sound : (∀ a ∈ selected, Sound steps a) → ∀ a ∈ selected', Sound steps a
  avoids : ∀ a ∈ visiting, a ∈ selected' → a ∈ selected
  starts_mem : ∀ a ∈ starts, a ∈ selected'
  reached : ∀ a ∈ selected', a ∈ selected ∨ ∃ start ∈ starts, ReflTransGen (Edge steps) start a

variable {steps} {cyclic : ε} {starts others visiting s t u : List κ} {fuel : ℕ} {key : κ}

namespace Explores

theorem refl : Explores steps [] visiting s s where
  keeps _ h := h
  settled h := h
  sound h := h
  avoids _ _ h := h
  starts_mem := List.forall_mem_nil _
  reached _ h := .inl h

theorem trans (h : Explores steps starts visiting s t) (h' : Explores steps others visiting t u) :
    Explores steps (starts ++ others) visiting s u where
  keeps a ha := h'.keeps a (h.keeps a ha)
  settled hs := h'.settled (h.settled hs)
  sound hs := h'.sound (h.sound hs)
  avoids a ha hu := h.avoids a ha (h'.avoids a ha hu)
  starts_mem := by
    rw [List.forall_mem_append]
    exact ⟨fun a ha => h'.keeps a (h.starts_mem a ha), h'.starts_mem⟩
  reached a ha := by
    rcases h'.reached a ha with ht | ⟨start, hstart, hpath⟩
    · rcases h.reached a ht with hs | ⟨start, hstart, hpath⟩
      · exact .inl hs
      · exact .inr ⟨start, List.mem_append_left _ hstart, hpath⟩
    · exact .inr ⟨start, List.mem_append_right _ hstart, hpath⟩

theorem foldlM {f : List κ → κ → Except (Option ε) (List κ)}
    (hf : ∀ s t key, f s key = .ok t → Explores steps [key] visiting s t) :
    ∀ {keys s t}, keys.foldlM f s = .ok t → Explores steps keys visiting s t := by
  intro keys
  induction keys with
  | nil =>
    intro s t h
    obtain rfl : s = t := pure_ok.mp h
    exact refl
  | cons key keys ih =>
    intro s t h
    rw [List.foldlM_cons, bind_ok] at h
    obtain ⟨middle, hkey, hrest⟩ := h
    exact (hf s middle key hkey).trans (ih hrest)

end Explores

theorem mapError_some_ne {α : Type} {x : Except ε α} : x.mapError some ≠ .error none := by
  cases x with
  | error e => rintro ⟨⟩
  | ok a => rintro ⟨⟩

theorem mapError_ok {α ε' : Type} {x : Except ε α} {f : ε → ε'} {a : α} :
    x.mapError f = .ok a ↔ x = .ok a := by
  cases x <;> simp [Except.mapError]

theorem explores_steps {f : List κ → κ → Except (Option ε) (List κ)}
    (hf : ∀ s t key, f s key = .ok t → Explores steps [key] visiting s t) :
    ∀ {todo : List (Except ε (List κ))} {s t},
      todo.foldlM (fun selected step => do
        let references ← step.mapError some
        references.foldlM f selected) s = .ok t →
      ∃ named, (∀ step ∈ todo, ∃ references, step = .ok references ∧ references ⊆ named) ∧
        (∀ b ∈ named, ∃ references, .ok references ∈ todo ∧ b ∈ references) ∧
        Explores steps named visiting s t := by
  intro todo
  induction todo with
  | nil =>
    intro s t h
    obtain rfl : s = t := pure_ok.mp h
    exact ⟨[], List.forall_mem_nil _, List.forall_mem_nil _, .refl⟩
  | cons step todo ih =>
    intro s t h
    simp only [List.foldlM_cons, bind_ok, mapError_ok] at h
    obtain ⟨middle, ⟨references, rfl, hvisits⟩, hrest⟩ := h
    obtain ⟨named, hsound, hnamed, hexplores⟩ := ih hrest
    refine ⟨references ++ named, ?_, ?_, (Explores.foldlM hf hvisits).trans hexplores⟩
    · rw [List.forall_mem_cons]
      refine ⟨⟨references, rfl, List.subset_append_left _ _⟩, fun step hstep => ?_⟩
      obtain ⟨given, hgiven, hsub⟩ := hsound step hstep
      exact ⟨given, hgiven, List.subset_append_of_subset_right _ hsub⟩
    · rw [List.forall_mem_append]
      refine ⟨fun b hb => ⟨references, List.mem_cons_self, hb⟩, fun b hb => ?_⟩
      obtain ⟨given, hgiven, hmem⟩ := hnamed b hb
      exact ⟨given, List.mem_cons_of_mem _ hgiven, hmem⟩

variable [DecidableEq κ]

theorem visit_explores (h : visit steps cyclic fuel visiting s key = .ok t) :
    Explores steps [key] visiting s t := by
  induction fuel generalizing visiting s t key with
  | zero => cases h
  | succ fuel ih =>
    unfold visit at h
    split_ifs at h with hpath hdone
    · obtain rfl : s = t := Except.ok.inj h
      exact { Explores.refl with
        starts_mem := fun a ha => List.mem_singleton.mp ha ▸ hdone
        reached := fun a ha => .inl ha }
    · rw [bind_ok] at h
      obtain ⟨middle, hsteps, hpure⟩ := h
      obtain rfl : key :: middle = t := pure_ok.mp hpure
      obtain ⟨named, hsound, hnamed, hexplores⟩ := explores_steps (fun _ _ _ hvisit => ih hvisit) hsteps
      have hedge : ∀ b, Edge steps key b → b ∈ named := by
        rintro b ⟨references, hreferences, hb⟩
        obtain ⟨given, hgiven, hsub⟩ := hsound _ hreferences
        exact hsub (Except.ok.inj hgiven ▸ hb)
      have hnew : key ∉ middle := fun hmem => hdone (hexplores.avoids key List.mem_cons_self hmem)
      exact {
        keeps := fun a ha => List.mem_cons_of_mem _ (hexplores.keeps a ha)
        settled := fun hs =>
          ⟨⟨hnew, fun b hb => hexplores.starts_mem b (hedge b hb)⟩, hexplores.settled hs⟩
        sound := fun hs => List.forall_mem_cons.mpr
          ⟨fun step hstep => (hsound step hstep).imp fun _ hgiven => hgiven.1, hexplores.sound hs⟩
        avoids := fun a ha hmem => by
          rcases List.mem_cons.mp hmem with rfl | hmem
          · exact absurd ha hpath
          · exact hexplores.avoids a (List.mem_cons_of_mem _ ha) hmem
        starts_mem := fun a ha => List.mem_singleton.mp ha ▸ List.mem_cons_self
        reached := fun a ha => by
          rcases List.mem_cons.mp ha with rfl | ha
          · exact .inr ⟨a, List.mem_singleton_self a, .refl⟩
          · rcases hexplores.reached a ha with hs | ⟨start, hstart, hpath⟩
            · exact .inl hs
            · exact .inr ⟨key, List.mem_singleton_self key,
                .head (hnamed start hstart) hpath⟩ }

/-- The selected keys of a traversal are settled and sound, have the roots among them, and are reached
from these. -/
theorem visitAll_ok {roots : List κ} (h : visitAll steps cyclic fuel roots = .ok s) :
    Settled (Edge steps) s ∧ (∀ a ∈ s, Sound steps a) ∧ (∀ root ∈ roots, root ∈ s) ∧
      ∀ a ∈ s, ∃ root ∈ roots, ReflTransGen (Edge steps) root a := by
  have hexplores : Explores steps roots [] [] s :=
    Explores.foldlM (fun _ _ _ hvisit => visit_explores hvisit) h
  refine ⟨hexplores.settled trivial, hexplores.sound (List.forall_mem_nil _),
    hexplores.starts_mem, fun a ha => ?_⟩
  exact (hexplores.reached a ha).resolve_left List.not_mem_nil

/-! ## Termination -/

theorem visit_ends {keys : List κ} (hkeys : ∀ a ∈ keys, ∀ b, Edge steps a b → b ∈ keys)
    (hpath : visiting.Nodup) (hsub : visiting ⊆ keys)
    (hfuel : keys.length < fuel + visiting.length) (hkey : key ∈ keys) :
    visit steps cyclic fuel visiting s key ≠ .error none := by
  induction fuel generalizing visiting s key with
  | zero =>
    have hle := (List.subperm_of_subset hpath hsub).length_le
    omega
  | succ fuel ih =>
    unfold visit
    split_ifs with hvisiting hdone
    · rintro ⟨⟩
    · rintro ⟨⟩
    · intro h
      have hfold := (bind_error.mp h).resolve_right (by rintro ⟨middle, -, ⟨⟩⟩)
      obtain ⟨t, step, hstep, hfails⟩ := foldlM_error hfold
      cases step with
      | error e => cases hfails
      | ok references =>
        obtain ⟨u, b, hb, hfails⟩ := foldlM_error hfails
        refine ih (List.nodup_cons.mpr ⟨hvisiting, hpath⟩) (List.cons_subset.mpr ⟨hkey, hsub⟩) ?_
          (hkeys key hkey b ⟨references, hstep, hb⟩) hfails
        rw [List.length_cons]
        omega

theorem visitAll_ends {keys roots : List κ} (hkeys : ∀ a ∈ keys, ∀ b, Edge steps a b → b ∈ keys)
    (hroots : roots ⊆ keys) (hfuel : keys.length < fuel) :
    visitAll steps cyclic fuel roots ≠ .error none := by
  intro h
  obtain ⟨t, root, hroot, hfails⟩ := foldlM_error h
  exact visit_ends hkeys List.nodup_nil (List.nil_subset _) hfuel (hroots hroot) hfails

end Success

end AeepRouter.Lib.DepthFirst

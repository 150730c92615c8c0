import Mathlib.Tactic

/-!
# Guarded operations and runs

An operation of a state `σ` either fails with an error or returns a value and the next state
(`σ → Except ε (α × σ)`); a transaction that fails leaves the state as it was (`commit`).
`raiseIf` is a guard, and `bind_ok` takes a successful computation apart.

`run step s is` applies a list of inputs one after the other. `Admissible P s is` says that every
input meets `P` in the state it finds. An invariant is proved for one step and carried over runs by
`run_invariant`.
-/

namespace AeepRouter.Lib

/-! ## Guards -/

section Guards

variable {ε α β : Type}

/-- Fails when the condition holds. -/
def raiseIf (p : Prop) [Decidable p] (e : ε) : Except ε Unit := if p then .error e else .ok ()

@[simp] theorem raiseIf_ok {p : Prop} [Decidable p] {e : ε} {u : Unit} :
    raiseIf p e = .ok u ↔ ¬ p := by
  unfold raiseIf
  split <;> simp_all

theorem raiseIf_error {p : Prop} [Decidable p] {e e' : ε} : raiseIf p e = .error e' ↔ p ∧ e = e' := by
  unfold raiseIf
  split <;> simp_all

theorem bind_ok {x : Except ε α} {f : α → Except ε β} {b : β} :
    (x >>= f) = .ok b ↔ ∃ a, x = .ok a ∧ f a = .ok b := by
  cases x with
  | error e => simp [bind, Except.bind]
  | ok a => simp [bind, Except.bind]

theorem bind_error {x : Except ε α} {f : α → Except ε β} {e : ε} :
    (x >>= f) = .error e ↔ x = .error e ∨ ∃ a, x = .ok a ∧ f a = .error e := by
  cases x with
  | error e => simp [bind, Except.bind]
  | ok a => simp [bind, Except.bind]

theorem pure_ok {a b : α} : (pure a : Except ε α) = .ok b ↔ a = b := by
  simp [pure, Except.pure]

theorem map_ok {x : Except ε α} {f : α → β} {b : β} :
    x.map f = .ok b ↔ ∃ a, x = .ok a ∧ f a = b := by
  cases x <;> simp [Except.map]

theorem bind_map {γ : Type} {x : Except ε α} {f : α → Except ε β} {g : β → γ} :
    (x >>= f).map g = x >>= fun a => (f a).map g := by
  cases x <;> rfl

def require (o : Option α) (e : ε) : Except ε α :=
  match o with
  | some a => .ok a
  | none => .error e

@[simp] theorem require_ok {o : Option α} {e : ε} {a : α} : require o e = .ok a ↔ o = some a := by
  cases o <;> simp [require]

theorem require_error {o : Option α} {e e' : ε} : require o e = .error e' ↔ o = none ∧ e = e' := by
  cases o <;> simp [require]

/-- A check of every element of a list. -/
theorem forM_ok {f : α → Except ε Unit} {l : List α} {u : Unit} :
    l.forM f = .ok u ↔ ∀ a ∈ l, f a = .ok () := by
  induction l with
  | nil => simp [pure, Except.pure]
  | cons a l ih =>
    change (f a >>= fun _ => l.forM f) = _ ↔ _
    rw [bind_ok, List.forall_mem_cons, ← ih]
    exact ⟨fun ⟨_, ha, hl⟩ => ⟨ha, hl⟩, fun ⟨ha, hl⟩ => ⟨(), ha, hl⟩⟩

theorem forM_error {f : α → Except ε Unit} {l : List α} {e : ε} (h : l.forM f = .error e) :
    ∃ a ∈ l, f a = .error e := by
  induction l with
  | nil => cases h
  | cons a l ih =>
    change (f a >>= fun _ => l.forM f) = .error e at h
    rcases bind_error.mp h with ha | ⟨_, -, hl⟩
    · exact ⟨a, List.mem_cons_self, ha⟩
    · obtain ⟨b, hb, hfails⟩ := ih hl
      exact ⟨b, List.mem_cons_of_mem a hb, hfails⟩

/-- The results of a list of computations, one for each. -/
theorem forall₂_of_mapM {f : α → Except ε β} {as : List α} {bs : List β}
    (h : as.mapM f = .ok bs) : List.Forall₂ (fun a b => f a = .ok b) as bs := by
  induction as generalizing bs with
  | nil =>
    rw [List.mapM_nil, pure_ok] at h
    exact h ▸ .nil
  | cons a as ih =>
    simp only [List.mapM_cons, bind_ok, pure_ok] at h
    obtain ⟨b, hb, bs, hbs, rfl⟩ := h
    exact .cons hb (ih hbs)

/-- What every step of a successful fold keeps, the fold keeps. -/
theorem foldlM_invariant {P : β → Prop} {f : β → α → Except ε β}
    (hstep : ∀ s a s', P s → f s a = .ok s' → P s') {as : List α} {s s' : β} (hs : P s)
    (h : as.foldlM f s = .ok s') : P s' := by
  induction as generalizing s with
  | nil =>
    rw [List.foldlM_nil, pure_ok] at h
    exact h ▸ hs
  | cons a as ih =>
    rw [List.foldlM_cons, bind_ok] at h
    obtain ⟨t, ht, h⟩ := h
    exact ih (hstep s a t hs ht) h

/-- Where an element asks for a condition that elements with other keys leave as it is, a fold over
elements with distinct keys succeeds just when its first state meets all of them. -/
theorem foldlM_ok_iff {κ : Type} {key : α → κ} {P : β → α → Prop} {f : β → α → Except ε β}
    (hstep : ∀ s a, (∃ s', f s a = .ok s') ↔ P s a)
    (hframe : ∀ s a s' b, f s a = .ok s' → key b ≠ key a → (P s' b ↔ P s b)) {as : List α}
    (hdistinct : (as.map key).Nodup) {s : β} :
    (∃ s', as.foldlM f s = .ok s') ↔ ∀ a ∈ as, P s a := by
  induction as generalizing s with
  | nil => exact ⟨fun _ _ h => absurd h List.not_mem_nil, fun _ => ⟨s, rfl⟩⟩
  | cons a as ih =>
    rw [List.map_cons, List.nodup_cons] at hdistinct
    obtain ⟨hfresh, hdistinct⟩ := hdistinct
    have hother {t : β} (ht : f s a = .ok t) : ∀ b ∈ as, (P t b ↔ P s b) := fun b hb =>
      hframe s a t b ht fun heq => hfresh (heq ▸ List.mem_map_of_mem hb)
    simp only [List.foldlM_cons, bind_ok, List.forall_mem_cons]
    constructor
    · rintro ⟨s', t, ht, hrest⟩
      refine ⟨(hstep s a).mp ⟨t, ht⟩, fun b hb => ?_⟩
      exact (hother ht b hb).mp ((ih hdistinct).mp ⟨s', hrest⟩ b hb)
    · rintro ⟨ha, has⟩
      obtain ⟨t, ht⟩ := (hstep s a).mpr ha
      obtain ⟨s', hrest⟩ := (ih hdistinct).mpr fun b hb => (hother ht b hb).mpr (has b hb)
      exact ⟨s', t, ht, hrest⟩

/-- A fold that fails does so at one of its elements. -/
theorem foldlM_error {f : β → α → Except ε β} {as : List α} {s : β} {e : ε}
    (h : as.foldlM f s = .error e) : ∃ t, ∃ a ∈ as, f t a = .error e := by
  induction as generalizing s with
  | nil => cases h
  | cons a as ih =>
    rw [List.foldlM_cons] at h
    cases hstep : f s a with
    | error e' =>
      rw [hstep] at h
      obtain rfl : e' = e := Except.error.inj h
      exact ⟨s, a, List.mem_cons_self, hstep⟩
    | ok t =>
      rw [hstep] at h
      obtain ⟨u, b, hb, hfails⟩ := ih h
      exact ⟨u, b, List.mem_cons_of_mem _ hb, hfails⟩

/-- A chain of tests that each name a fault finds none. -/
theorem ite_some_eq_none {p : Prop} [Decidable p] {a : α} {rest : Option α} :
    (if p then some a else rest) = none ↔ ¬ p ∧ rest = none := by
  split <;> simp_all

end Guards

/-! ## Transactions -/

section Transactions

variable {σ ε α : Type}

/-- The state after a transaction: the new one, or the old one if it failed. -/
def commit (r : Except ε (α × σ)) (s : σ) : σ :=
  match r with
  | .ok (_, s') => s'
  | .error _ => s

theorem commit_error {e : ε} {s : σ} : commit (.error e : Except ε (α × σ)) s = s := rfl

theorem commit_ok {a : α} {s s' : σ} : commit (.ok (a, s') : Except ε (α × σ)) s = s' := rfl

/-- What every successful outcome has, and the old state has, the committed state has. -/
theorem commit_induction {P : σ → Prop} {r : Except ε (α × σ)} {s : σ} (h : P s)
    (hok : ∀ a s', r = .ok (a, s') → P s') : P (commit r s) := by
  cases r with
  | error e => exact h
  | ok p => exact hok p.1 p.2 rfl

end Transactions

/-! ## Runs -/

section Runs

variable {σ ι : Type} (step : σ → ι → σ)

/-- The state after a list of inputs. -/
def run (s : σ) (is : List ι) : σ := is.foldl step s

/-- Every input meets `P` in the state it is applied to. -/
def Admissible (P : σ → ι → Prop) : σ → List ι → Prop
  | _, [] => True
  | s, i :: is => P s i ∧ Admissible P (step s i) is

instance Admissible.decidable (P : σ → ι → Prop) [∀ s i, Decidable (P s i)] :
    ∀ s is, Decidable (Admissible step P s is)
  | _, [] => isTrue trivial
  | s, i :: is =>
    have := Admissible.decidable P (step s i) is
    inferInstanceAs (Decidable (P s i ∧ Admissible step P (step s i) is))

variable {step}

@[simp] theorem run_nil (s : σ) : run step s [] = s := rfl

@[simp] theorem run_cons (s : σ) (i : ι) (is : List ι) :
    run step s (i :: is) = run step (step s i) is := rfl

theorem run_append (s : σ) (is js : List ι) :
    run step s (is ++ js) = run step (run step s is) js := List.foldl_append

theorem admissible_append {P : σ → ι → Prop} {s : σ} {is js : List ι} :
    Admissible step P s (is ++ js) ↔
      Admissible step P s is ∧ Admissible step P (run step s is) js := by
  induction is generalizing s with
  | nil => simp [Admissible]
  | cons i is ih => simp [Admissible, ih, and_assoc]

theorem Admissible.and {P Q : σ → ι → Prop} {s : σ} {is : List ι} (h : Admissible step P s is)
    (h' : Admissible step Q s is) : Admissible step (fun s i => P s i ∧ Q s i) s is := by
  induction is generalizing s with
  | nil => trivial
  | cons i is ih => exact ⟨⟨h.1, h'.1⟩, ih h.2 h'.2⟩

/-- A condition that does not look at the state. -/
theorem admissible_of_forall {P : ι → Prop} {is : List ι} (h : ∀ i ∈ is, P i) (s : σ) :
    Admissible step (fun _ => P) s is := by
  induction is generalizing s with
  | nil => trivial
  | cons i is ih =>
    rw [List.forall_mem_cons] at h
    exact ⟨h.1, ih h.2 _⟩

theorem admissible_true (s : σ) (is : List ι) : Admissible step (fun _ _ => True) s is :=
  admissible_of_forall (fun _ _ => trivial) s

theorem run_invariant_of_admissible {P : σ → ι → Prop} {Inv : σ → Prop}
    (hstep : ∀ s i, Inv s → P s i → Inv (step s i)) {s : σ} {is : List ι} (hs : Inv s)
    (hadm : Admissible step P s is) : Inv (run step s is) := by
  induction is generalizing s with
  | nil => exact hs
  | cons i is ih => exact ih (hstep s i hs hadm.1) hadm.2

theorem run_invariant {Inv : σ → Prop} (hstep : ∀ s i, Inv s → Inv (step s i)) {s : σ}
    (is : List ι) (hs : Inv s) : Inv (run step s is) := by
  induction is generalizing s with
  | nil => exact hs
  | cons i is ih => exact ih (hstep s i hs)

theorem admissible_of_split {P : σ → ι → Prop} {s : σ} {is : List ι}
    (h : ∀ before i after, is = before ++ i :: after → P (run step s before) i) :
    Admissible step P s is := by
  induction is generalizing s with
  | nil => trivial
  | cons i is ih =>
    exact ⟨h [] i is rfl, ih fun before j after heq =>
      h (i :: before) j after (congrArg (List.cons i) heq)⟩

/-- Where a step keeps the invariant just when it meets `P`, a run keeps it throughout just when it
is admissible. -/
theorem forall_run_iff_admissible {P : σ → ι → Prop} {Inv : σ → Prop}
    (hstep : ∀ s i, Inv s → (Inv (step s i) ↔ P s i)) {s : σ} {is : List ι} (hs : Inv s) :
    (∀ before after, is = before ++ after → Inv (run step s before)) ↔ Admissible step P s is := by
  induction is generalizing s with
  | nil =>
    refine iff_of_true (fun before after heq => ?_) trivial
    rw [(List.nil_eq_append_iff.mp heq).1]
    exact hs
  | cons i is ih =>
    constructor
    · intro h
      have hinv : Inv (step s i) := h [i] is rfl
      exact ⟨(hstep s i hs).mp hinv, (ih hinv).mp fun before after heq =>
        h (i :: before) after (congrArg (List.cons i) heq)⟩
    · rintro ⟨hi, his⟩ before after heq
      cases before with
      | nil => exact hs
      | cons j before =>
        obtain ⟨rfl, hrest⟩ := List.cons.inj heq
        exact (ih ((hstep s i hs).mpr hi)).mpr his before after hrest

end Runs

end AeepRouter.Lib

import AeepRouter.Lib.Run

/-!
# Noninterference by unwinding

Inputs are split into those an observer sees and the hidden ones. Two runs with the same visible
inputs show the observer the same outputs if some relation of states unwinds the machine: a hidden
input moves within it, a visible one keeps it and gives one output on both sides
(`Unwinding.noninterference`). `Paired R` relates the outcomes of one operation in two related
states.
-/

namespace AeepRouter.Lib

/-! ## Operations in two states -/

section Paired

variable {σ ε α γ : Type} {R : σ → σ → Prop}

/-- The same error, or the same value and related states. -/
inductive Paired (R : σ → σ → Prop) : Except ε (α × σ) → Except ε (α × σ) → Prop where
  | error (e : ε) : Paired R (.error e) (.error e)
  | ok (a : α) {s t : σ} : R s t → Paired R (.ok (a, s)) (.ok (a, t))

/-- A computation the states do not differ in, then two paired ones. -/
theorem paired_bind {x : Except ε γ} {f g : γ → Except ε (α × σ)}
    (h : ∀ c, x = .ok c → Paired R (f c) (g c)) : Paired R (x >>= f) (x >>= g) := by
  cases x with
  | error e => exact .error e
  | ok c => exact h c rfl

theorem Paired.map {β : Type} {r r' : Except ε (α × σ)} (h : Paired R r r') (f : α → β) :
    Paired R (r.map fun p => (f p.1, p.2)) (r'.map fun p => (f p.1, p.2)) := by
  cases h with
  | error e => exact .error e
  | ok a hR => exact .ok (f a) hR

theorem Paired.commit {r r' : Except ε (α × σ)} (h : Paired R r r') {s t : σ} (hR : R s t) :
    R (commit r s) (commit r' t) := by
  cases h with
  | error => exact hR
  | ok a hR' => exact hR'

theorem Paired.output {r r' : Except ε (α × σ)} (h : Paired R r r') :
    r.map Prod.fst = r'.map Prod.fst := by
  cases h <;> rfl

end Paired

/-! ## Unwinding -/

section Unwinding

variable {σ ι ο : Type} (step : σ → ι → σ) (output : σ → ι → ο) (visible : ι → Prop)
  [DecidablePred visible]

/-- The outputs of the visible inputs of a run. -/
def observed : σ → List ι → List ο
  | _, [] => []
  | s, i :: is =>
    if visible i then output s i :: observed (step s i) is else observed (step s i) is

/-- A relation of states that hidden inputs stay within and visible ones keep, for the inputs a
run may have. -/
structure Unwinding (allowed : ι → Prop) (R : σ → σ → Prop) : Prop where
  hidden : ∀ s t i, allowed i → ¬ visible i → R s t → R (step s i) t
  keeps : ∀ s t i, allowed i → visible i → R s t → R (step s i) (step t i)
  shows : ∀ s t i, allowed i → visible i → R s t → output s i = output t i

variable {step output visible} {allowed : ι → Prop} {R : σ → σ → Prop}

/-- A run and its visible part end in related states and show the same outputs. -/
theorem Unwinding.purge (h : Unwinding step output visible allowed R) {s t : σ} (hR : R s t)
    {is : List ι} (his : ∀ i ∈ is, allowed i) :
    R (run step s is) (run step t (is.filter fun i => visible i)) ∧
      observed step output visible s is =
        observed step output visible t (is.filter fun i => visible i) := by
  induction is generalizing s t with
  | nil => exact ⟨hR, rfl⟩
  | cons i is ih =>
    rw [List.forall_mem_cons] at his
    obtain ⟨hi, his⟩ := his
    by_cases hv : visible i
    · obtain ⟨hrun, hshow⟩ := ih (h.keeps s t i hi hv hR) his
      rw [List.filter_cons_of_pos (by simpa using hv)]
      refine ⟨hrun, ?_⟩
      simp only [observed, if_pos hv]
      rw [h.shows s t i hi hv hR, hshow]
    · obtain ⟨hrun, hshow⟩ := ih (h.hidden s t i hi hv hR) his
      rw [List.filter_cons_of_neg (by simpa using hv)]
      refine ⟨hrun, ?_⟩
      rw [← hshow]
      simp only [observed, if_neg hv]

/-- Two runs with the same visible inputs show the same outputs, and end in states related to one. -/
theorem Unwinding.noninterference (h : Unwinding step output visible allowed R) {s : σ}
    (hR : R s s) {is js : List ι} (his : ∀ i ∈ is, allowed i) (hjs : ∀ j ∈ js, allowed j)
    (hsame : is.filter (fun i => visible i) = js.filter fun j => visible j) :
    observed step output visible s is = observed step output visible s js ∧
      ∃ t, R (run step s is) t ∧ R (run step s js) t := by
  obtain ⟨hrun, hshow⟩ := h.purge hR his
  obtain ⟨hrun', hshow'⟩ := h.purge hR hjs
  refine ⟨?_, _, hrun, hsame ▸ hrun'⟩
  rw [hshow, hshow', hsame]

end Unwinding

end AeepRouter.Lib

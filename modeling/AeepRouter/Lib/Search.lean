import Mathlib.Data.List.Sort
import Mathlib.Data.Prod.Lex
import Mathlib.Tactic

/-!
# Searches that may leave something out

A search returns what it found and a flag; the flag is lowered wherever a list is cut or a loop is
left. `Listing.Between` says what a listing is worth: everything listed is wanted, and with the flag
up everything needed is listed. A search runs in a state and may raise; `Yields` says what every
run of it returns and what it may raise, whatever state it starts in.
-/

namespace AeepRouter.Lib

/-- What was found, and whether nothing was left out. -/
structure Listing (β : Type) where
  items : List β
  complete : Bool
  deriving DecidableEq

/-! ## Listings -/

namespace Listing

variable {α β : Type}

/-- The first `width` items. -/
def cut (width : ℕ) (l : Listing β) : Listing β :=
  ⟨l.items.take width, l.complete && decide (l.items.length ≤ width)⟩

/-- The items in order of their keys, equal keys as they were. -/
def sortBy [LinearOrder α] (key : β → α) (l : Listing β) : Listing β :=
  ⟨l.items.insertionSort (fun a b => key a ≤ key b), l.complete⟩

def append (l m : Listing β) : Listing β := ⟨l.items ++ m.items, l.complete && m.complete⟩

/-- Lowers the flag unless the condition holds. -/
def onlyIf (c : Bool) (l : Listing β) : Listing β := ⟨l.items, c && l.complete⟩

structure Between (l : Listing β) (needed wanted : β → Prop) : Prop where
  sound : ∀ b ∈ l.items, wanted b
  full : l.complete = true → ∀ b, needed b → b ∈ l.items

/-- The listing of a set. -/
abbrev Lists (l : Listing β) (s : β → Prop) : Prop := l.Between s s

variable {l m : Listing β} {needed wanted : β → Prop}

namespace Between

theorem mono {needed' wanted' : β → Prop} (h : l.Between needed wanted)
    (hn : ∀ b, needed' b → needed b) (hw : ∀ b, wanted b → wanted' b) :
    l.Between needed' wanted' :=
  ⟨fun b hb => hw b (h.sound b hb), fun hc b hb => h.full hc b (hn b hb)⟩

theorem cut (h : l.Between needed wanted) (width : ℕ) :
    (l.cut width).Between needed wanted := by
  refine ⟨fun b hb => h.sound b (List.mem_of_mem_take hb), fun hc b hb => ?_⟩
  simp only [Listing.cut, Bool.and_eq_true, decide_eq_true_eq] at hc
  show b ∈ l.items.take width
  rw [List.take_of_length_le hc.2]
  exact h.full hc.1 b hb

theorem sortBy [LinearOrder α] (h : l.Between needed wanted) (key : β → α) :
    (l.sortBy key).Between needed wanted := by
  have hperm := List.perm_insertionSort (fun a b => key a ≤ key b) l.items
  exact ⟨fun b hb => h.sound b (hperm.mem_iff.mp hb),
    fun hc b hb => hperm.mem_iff.mpr (h.full hc b hb)⟩

/-- What is needed may be known to be in reach only under the condition. -/
theorem onlyIf {needed' : β → Prop} (h : l.Between needed wanted) {c : Bool}
    (hn : c = true → ∀ b, needed' b → needed b) : (l.onlyIf c).Between needed' wanted := by
  refine ⟨h.sound, fun hc b hb => ?_⟩
  simp only [Listing.onlyIf, Bool.and_eq_true] at hc
  exact h.full hc.2 b (hn hc.1 b hb)

theorem filterMap {γ : Type} (h : l.Between needed wanted) (f : β → Option γ) :
    (Listing.mk (l.items.filterMap f) l.complete).Between (fun c => ∃ b, needed b ∧ f b = some c)
      (fun c => ∃ b, wanted b ∧ f b = some c) := by
  refine ⟨fun c hc => ?_, fun hc c ⟨b, hb, hf⟩ => ?_⟩
  · obtain ⟨b, hb, hf⟩ := List.mem_filterMap.mp hc
    exact ⟨b, h.sound b hb, hf⟩
  · exact List.mem_filterMap.mpr ⟨b, h.full hc b hb, hf⟩

theorem append {needed' wanted' : β → Prop} (h : l.Between needed wanted)
    (h' : m.Between needed' wanted') :
    (l.append m).Between (fun b => needed b ∨ needed' b) (fun b => wanted b ∨ wanted' b) := by
  refine ⟨fun b hb => ?_, fun hc b hb => ?_⟩
  · exact (List.mem_append.mp hb).imp (h.sound b) (h'.sound b)
  · simp only [Listing.append, Bool.and_eq_true] at hc
    exact List.mem_append.mpr (hb.imp (h.full hc.1 b) (h'.full hc.2 b))

end Between

def Sorted [LinearOrder α] (key : β → α) (l : Listing β) : Prop :=
  l.items.Pairwise fun a b => key a ≤ key b

theorem sorted_sortBy [LinearOrder α] (key : β → α) (l : Listing β) : (l.sortBy key).Sorted key :=
  List.pairwise_insertionSort (fun a b => key a ≤ key b) l.items

theorem Sorted.cut [LinearOrder α] {key : β → α} (h : l.Sorted key) (width : ℕ) :
    (l.cut width).Sorted key := h.sublist (List.take_sublist _ _)

theorem Sorted.head_le [LinearOrder α] {key : β → α} (h : l.Sorted key) {b c : β}
    (hb : l.items.head? = some b) (hc : c ∈ l.items) : key b ≤ key c := by
  obtain ⟨rest, hrest⟩ := List.head?_eq_some_iff.mp hb
  unfold Sorted at h
  rw [hrest, List.pairwise_cons] at h
  rw [hrest] at hc
  rcases List.mem_cons.mp hc with rfl | hc
  · exact le_rfl
  · exact h.1 c hc

end Listing

/-! ## Runs of a search -/

section Runs

variable {ε σ α β : Type}

/-- Whatever the state, the search returns a value with `post` or raises something with `raise`. -/
def Yields (m : EStateM ε σ α) (post : α → Prop) (raises : ε → Prop) : Prop :=
  ∀ s, match m.run s with
    | .ok a _ => post a
    | .error e _ => raises e

variable {post : α → Prop} {raises : ε → Prop}

namespace Yields

theorem pure {a : α} (h : post a) : Yields (pure a : EStateM ε σ α) post raises := fun _ => h

theorem throw {e : ε} (h : raises e) : Yields (throw e : EStateM ε σ α) post raises := fun _ => h

theorem get : Yields (get : EStateM ε σ σ) (fun _ => True) raises := fun _ => trivial

theorem modify (f : σ → σ) : Yields (modify f : EStateM ε σ PUnit) (fun _ => True) raises :=
  fun _ => trivial

theorem bind {m : EStateM ε σ α} {f : α → EStateM ε σ β} {mid : α → Prop} {post : β → Prop}
    (hm : Yields m mid raises) (hf : ∀ a, mid a → Yields (f a) post raises) :
    Yields (m >>= f) post raises := by
  intro s
  have hs := hm s
  simp only [EStateM.run_bind]
  cases h : m.run s with
  | ok a t => exact hf a (by simpa [h] using hs) t
  | error e t => simpa [h] using hs

end Yields

/-- What the search lists for one element after another, up to the first that ends the loop. -/
def gather (f : α → EStateM ε σ (Option (Listing β))) : List α → EStateM ε σ (Listing β)
  | [] => pure ⟨[], true⟩
  | a :: as => do
    match ← f a with
    | none => pure ⟨[], false⟩
    | some found => return found.append (← gather f as)

theorem Yields.gather {f : α → EStateM ε σ (Option (Listing β))} {needed wanted : α → β → Prop}
    {as : List α}
    (hf : ∀ a ∈ as, Yields (f a) (fun o => ∀ l ∈ o, l.Between (needed a) (wanted a)) raises) :
    Yields (gather f as) (fun l => l.Between (fun b => ∃ a ∈ as, needed a b)
      (fun b => ∃ a ∈ as, wanted a b)) raises := by
  induction as with
  | nil => exact .pure ⟨by simp, by simp⟩
  | cons a as ih =>
    refine .bind (hf a List.mem_cons_self) fun o ho => ?_
    cases o with
    | none => exact .pure ⟨by simp, by simp⟩
    | some found =>
      refine .bind (ih fun b hb => hf b (List.mem_cons_of_mem _ hb)) fun rest hrest => .pure ?_
      refine ((ho found rfl).append hrest).mono (fun b hb => ?_) (fun b hb => ?_)
      · simpa only [List.exists_mem_cons_iff] using hb
      · simpa only [List.exists_mem_cons_iff] using hb

end Runs

end AeepRouter.Lib

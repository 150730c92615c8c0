import Mathlib.Data.Set.Insert
import Mathlib.Logic.Function.Basic
import Mathlib.Logic.Relation

/-!
# Publishing files by renaming drafts

Writers share a disk. A writer makes a draft under a hidden name that was never used, writes it, syncs
it and renames it to its target. A writer can stop anywhere, and a power cut stops all of them: it may
lose any name and tears every file that is not synced. Under a name that is not hidden there is
nevertheless never anything but a whole file that is valid for the name (`Sound`), and what is there
stays there until a power cut (`Run.shown`).
-/

namespace AeepRouter.Lib

/-- The content of a file, and whether a power cut spares it. -/
structure File (β : Type) where
  content : List β
  synced : Bool
  deriving DecidableEq, Repr

abbrev Disk (π β : Type) := π → Option (File β)

namespace Disk

variable {π β : Type} [DecidableEq π]

def create (p : π) (d : Disk π β) : Disk π β := Function.update d p (some ⟨[], false⟩)

def write (p : π) (content : List β) (d : Disk π β) : Disk π β :=
  Function.update d p ((d p).map fun _ => ⟨content, false⟩)

def sync (p : π) (d : Disk π β) : Disk π β :=
  Function.update d p ((d p).map fun file => { file with synced := true })

def unlink (p : π) (d : Disk π β) : Disk π β := Function.update d p none

def rename (p q : π) (d : Disk π β) : Disk π β :=
  match d p with
  | none => d
  | some file => Function.update (d.unlink p) q (some file)

/-- What a power cut leaves. -/
def cut (keeps : π → Bool) (torn : π → List β) (d : Disk π β) : Disk π β := fun p =>
  if keeps p then (d p).map fun file => if file.synced then file else ⟨torn p, false⟩ else none

/-- Every file whose name is not hidden is synced, and valid for its name. -/
def Sound (hidden : π → Prop) (valid : π → List β → Prop) (d : Disk π β) : Prop :=
  ∀ p, ¬ hidden p → ∀ file ∈ d p, file.synced = true ∧ valid p file.content

section Sound

variable {hidden : π → Prop} {valid : π → List β → Prop} {d : Disk π β} {p q : π} {file : File β}

/-- What is done to a hidden name leaves the shown ones alone. -/
theorem Sound.update (h : d.Sound hidden valid) (hp : hidden p) (file : Option (File β)) :
    Disk.Sound hidden valid (Function.update d p file) := by
  intro q hq shown hshown
  have hne : q ≠ p := fun heq => hq (heq ▸ hp)
  rw [Function.update_of_ne hne] at hshown
  exact h q hq shown hshown

theorem Sound.rename (h : d.Sound hidden valid) (hp : hidden p)
    (hfile : ∀ file ∈ d p, file.synced = true ∧ valid q file.content) :
    (d.rename p q).Sound hidden valid := by
  unfold Disk.rename
  cases hd : d p with
  | none => exact h
  | some file =>
    dsimp only
    intro r hr shown hshown
    by_cases heq : r = q
    · rw [heq, Function.update_self] at hshown
      obtain rfl := Option.some.inj hshown
      exact heq ▸ hfile file hd
    · rw [Function.update_of_ne heq] at hshown
      exact h.update hp none r hr shown hshown

omit [DecidableEq π] in
theorem Sound.cut (h : d.Sound hidden valid) (keeps : π → Bool) (torn : π → List β) :
    (d.cut keeps torn).Sound hidden valid := by
  intro p hp file hfile
  unfold Disk.cut at hfile
  split at hfile
  · obtain ⟨before, hbefore, rfl⟩ := Option.map_eq_some_iff.mp hfile
    obtain ⟨hsynced, hvalid⟩ := h p hp before hbefore
    rw [if_pos hsynced]
    exact ⟨hsynced, hvalid⟩
  · cases hfile

end Sound

theorem rename_apply {d : Disk π β} {p q : π} {file : File β} (h : d p = some file) (r : π) :
    d.rename p q r = if r = q then some file else if r = p then none else d r := by
  unfold rename unlink
  rw [h]
  simp only [Function.update_apply]

end Disk

/-! ## Writers -/

namespace Publication

variable {ω π β : Type}

inductive Stage where
  | writing
  | ready
  | over
  deriving DecidableEq, Repr

/-- What a writer has in hand. -/
structure Work (π β : Type) where
  draft : π
  target : π
  goal : List β
  stage : Stage

structure State (ω π β : Type) where
  disk : Disk π β
  work : ω → Option (Work π β)
  used : Set π

/-- What a power cut leaves. -/
def State.cut (keeps : π → Bool) (torn : π → List β) (s : State ω π β) : State ω π β where
  disk := s.disk.cut keeps torn
  work := fun _ => none
  used := s.used

/-- One step of one writer, but for a power cut. -/
inductive Step [DecidableEq ω] [DecidableEq π] (hidden : π → Prop) (valid : π → List β → Prop)
    (s : State ω π β) : State ω π β → Prop where
  | create (w : ω) (draft target : π) (goal : List β) : s.work w = none → hidden draft →
      draft ∉ s.used → ¬ hidden target → valid target goal →
      Step hidden valid s ⟨s.disk.create draft,
        Function.update s.work w (some ⟨draft, target, goal, .writing⟩), insert draft s.used⟩
  | write (w : ω) (k : Work π β) (n : ℕ) : s.work w = some k → k.stage = .writing →
      Step hidden valid s { s with disk := s.disk.write k.draft (k.goal.take n) }
  | sync (w : ω) (k : Work π β) : s.work w = some k → k.stage = .writing →
      Step hidden valid s { s with
        disk := (s.disk.write k.draft k.goal).sync k.draft
        work := Function.update s.work w (some { k with stage := .ready }) }
  | rename (w : ω) (k : Work π β) : s.work w = some k → k.stage = .ready →
      Step hidden valid s { s with
        disk := s.disk.rename k.draft k.target
        work := Function.update s.work w (some { k with stage := .over }) }
  | abort (w : ω) (k : Work π β) : s.work w = some k →
      Step hidden valid s { s with
        work := Function.update s.work w (some { k with stage := .over }) }
  | unlink (w : ω) (k : Work π β) : s.work w = some k →
      Step hidden valid s { s with
        disk := s.disk.unlink k.draft
        work := Function.update s.work w none }
  | stop (w : ω) : Step hidden valid s { s with work := Function.update s.work w none }

/-- What the writers have in hand agrees with the disk. -/
structure Sound (hidden : π → Prop) (valid : π → List β → Prop) (s : State ω π β) : Prop where
  disk : s.disk.Sound hidden valid
  names : ∀ w, ∀ k ∈ s.work w, hidden k.draft ∧ k.draft ∈ s.used ∧ ¬ hidden k.target ∧
    valid k.target k.goal
  apart : ∀ w w', ∀ k ∈ s.work w, ∀ k' ∈ s.work w', k.draft = k'.draft → w = w'
  writing : ∀ w, ∀ k ∈ s.work w, k.stage = .writing → (s.disk k.draft).isSome
  ready : ∀ w, ∀ k ∈ s.work w, k.stage = .ready → s.disk k.draft = some ⟨k.goal, true⟩

section Steps

variable [DecidableEq ω] [DecidableEq π] {hidden : π → Prop} {valid : π → List β → Prop}
  {s s' : State ω π β} {w : ω} {k : Work π β} {disk : Disk π β} {work : Option (Work π β)}
  {used : Set π}

omit [DecidableEq π] in
/-- A step of a writer that leaves the drafts of the others alone. -/
theorem Sound.of_update (h : Sound hidden valid s) (hdisk : disk.Sound hidden valid)
    (hused : s.used ⊆ used)
    (hothers : ∀ w' ≠ w, ∀ k' ∈ s.work w', disk k'.draft = s.disk k'.draft)
    (hnames : ∀ k ∈ work, hidden k.draft ∧ k.draft ∈ used ∧ ¬ hidden k.target ∧
      valid k.target k.goal)
    (hapart : ∀ k ∈ work, ∀ w' ≠ w, ∀ k' ∈ s.work w', k'.draft ≠ k.draft)
    (hwriting : ∀ k ∈ work, k.stage = .writing → (disk k.draft).isSome)
    (hready : ∀ k ∈ work, k.stage = .ready → disk k.draft = some ⟨k.goal, true⟩) :
    Sound hidden valid ⟨disk, Function.update s.work w work, used⟩ := by
  have hcases : ∀ w', ∀ k' ∈ Function.update s.work w work w',
      w' = w ∧ k' ∈ work ∨ w' ≠ w ∧ k' ∈ s.work w' := by
    intro w' k' hk'
    by_cases heq : w' = w
    · rw [heq, Function.update_self] at hk'
      exact .inl ⟨heq, hk'⟩
    · rw [Function.update_of_ne heq] at hk'
      exact .inr ⟨heq, hk'⟩
  refine ⟨hdisk, fun w' k' hk' => ?_, fun w₁ w₂ k₁ hk₁ k₂ hk₂ hdraft => ?_,
    fun w' k' hk' hstage => ?_, fun w' k' hk' hstage => ?_⟩
  · rcases hcases w' k' hk' with ⟨-, hmine⟩ | ⟨-, hother⟩
    · exact hnames k' hmine
    · obtain ⟨hdraft, hin, htarget⟩ := h.names w' k' hother
      exact ⟨hdraft, hused hin, htarget⟩
  · rcases hcases w₁ k₁ hk₁ with ⟨rfl, hmine₁⟩ | ⟨hne₁, hother₁⟩
    · rcases hcases w₂ k₂ hk₂ with ⟨rfl, -⟩ | ⟨hne₂, hother₂⟩
      · rfl
      · exact absurd hdraft.symm (hapart k₁ hmine₁ w₂ hne₂ k₂ hother₂)
    · rcases hcases w₂ k₂ hk₂ with ⟨rfl, hmine₂⟩ | ⟨-, hother₂⟩
      · exact absurd hdraft (hapart k₂ hmine₂ w₁ hne₁ k₁ hother₁)
      · exact h.apart w₁ w₂ k₁ hother₁ k₂ hother₂ hdraft
  · rcases hcases w' k' hk' with ⟨-, hmine⟩ | ⟨hne, hother⟩
    · exact hwriting k' hmine hstage
    · show (disk k'.draft).isSome
      rw [hothers w' hne k' hother]
      exact h.writing w' k' hother hstage
  · rcases hcases w' k' hk' with ⟨-, hmine⟩ | ⟨hne, hother⟩
    · exact hready k' hmine hstage
    · show disk k'.draft = _
      rw [hothers w' hne k' hother]
      exact h.ready w' k' hother hstage

omit [DecidableEq ω] [DecidableEq π] in
theorem Sound.draft_ne (h : Sound hidden valid s) (hk : s.work w = some k) :
    ∀ w' ≠ w, ∀ k' ∈ s.work w', k'.draft ≠ k.draft :=
  fun w' hne k' hk' hdraft => hne (h.apart w' w k' hk' k hk hdraft)

theorem Step.sound (h : Sound hidden valid s) (hstep : Step hidden valid s s') :
    Sound hidden valid s' := by
  cases hstep with
  | create w draft target goal hidle hdraft hfresh htarget hgoal =>
    have hne : ∀ w' ≠ w, ∀ k' ∈ s.work w', k'.draft ≠ draft := fun w' _ k' hk' heq =>
      hfresh (heq ▸ (h.names w' k' hk').2.1)
    refine h.of_update (h.disk.update hdraft _) (Set.subset_insert _ _)
      (fun w' hw' k' hk' => Function.update_of_ne (hne w' hw' k' hk') _ _)
      (fun k hk => ?_) (fun k hk => ?_) (fun k hk _ => ?_) fun k hk hready => ?_
    all_goals obtain rfl := Option.some.inj hk
    · exact ⟨hdraft, Set.mem_insert _ _, htarget, hgoal⟩
    · exact hne
    · rw [Disk.create, Function.update_self]
      rfl
    · cases hready
  | write w k n hk hstage =>
    have hsame : s.work = Function.update s.work w (some k) := by
      rw [← hk, Function.update_eq_self]
    rw [hsame]
    refine h.of_update (h.disk.update (h.names w k hk).1 _) (Set.Subset.refl _)
      (fun w' hw' k' hk' => Function.update_of_ne (h.draft_ne hk w' hw' k' hk') _ _)
      (fun k' hk' => ?_) (fun k' hk' => ?_) (fun k' hk' _ => ?_) fun k' hk' hready => ?_
    all_goals obtain rfl := Option.some.inj hk'
    · exact h.names w k hk
    · exact h.draft_ne hk
    · rw [Disk.write, Function.update_self, Option.isSome_map]
      exact h.writing w k hk hstage
    · rw [hstage] at hready
      cases hready
  | sync w k hk hstage =>
    have hapart := h.draft_ne hk
    refine h.of_update ((h.disk.update (h.names w k hk).1 _).update (h.names w k hk).1 _)
      (Set.Subset.refl _) (fun w' hw' k' hk' => ?_) (fun k' hk' => ?_) (fun k' hk' => ?_)
      (fun k' hk' hwriting => ?_) fun k' hk' hready => ?_
    · have hne := h.draft_ne hk w' hw' k' hk'
      exact (Function.update_of_ne hne _ _).trans (Function.update_of_ne hne _ _)
    all_goals obtain rfl := Option.some.inj hk'
    · exact h.names w k hk
    · exact hapart
    · cases hwriting
    · obtain ⟨file, hfile⟩ := Option.isSome_iff_exists.mp (h.writing w k hk hstage)
      simp [Disk.sync, Disk.write, hfile]
  | rename w k hk hstage =>
    have hdraft := h.ready w k hk hstage
    have hapart := h.draft_ne hk
    obtain ⟨hhidden, hin, htarget, hvalid⟩ := h.names w k hk
    refine h.of_update (h.disk.rename hhidden fun file hfile => ?_) (Set.Subset.refl _)
      (fun w' hw' k' hk' => ?_) (fun k' hk' => ?_) (fun k' hk' => ?_) (fun k' hk' hwriting => ?_)
      fun k' hk' hready => ?_
    · obtain rfl := Option.some.inj (hdraft.symm.trans hfile)
      exact ⟨rfl, hvalid⟩
    · have hshown : k'.draft ≠ k.target := fun heq =>
        htarget (heq ▸ (h.names w' k' hk').1)
      rw [Disk.rename_apply hdraft, if_neg hshown, if_neg (h.draft_ne hk w' hw' k' hk')]
    all_goals obtain rfl := Option.some.inj hk'
    · exact ⟨hhidden, hin, htarget, hvalid⟩
    · exact hapart
    · cases hwriting
    · cases hready
  | abort w k hk =>
    have hapart := h.draft_ne hk
    refine h.of_update h.disk (Set.Subset.refl _) (fun _ _ _ _ => rfl) (fun k' hk' => ?_)
      (fun k' hk' => ?_) (fun k' hk' hwriting => ?_) fun k' hk' hready => ?_
    all_goals obtain rfl := Option.some.inj hk'
    · exact h.names w k hk
    · exact hapart
    · cases hwriting
    · cases hready
  | unlink w k hk =>
    refine h.of_update (h.disk.update (h.names w k hk).1 _) (Set.Subset.refl _)
      (fun w' hw' k' hk' => Function.update_of_ne (h.draft_ne hk w' hw' k' hk') _ _) ?_ ?_ ?_ ?_
    all_goals exact fun k' hk' => by cases hk'
  | stop w =>
    refine h.of_update h.disk (Set.Subset.refl _) (fun _ _ _ _ => rfl) ?_ ?_ ?_ ?_
    all_goals exact fun k' hk' => by cases hk'

/-- A name that shows a file shows one after the step. -/
theorem Step.shown (h : Sound hidden valid s) (hstep : Step hidden valid s s') {p : π}
    (hp : ¬ hidden p) (hfile : (s.disk p).isSome) : (s'.disk p).isSome := by
  have hupdate : ∀ draft (file : Option (File β)), hidden draft →
      (Function.update s.disk draft file p).isSome := by
    intro draft file hdraft
    have hne : p ≠ draft := fun heq => hp (heq ▸ hdraft)
    rw [Function.update_of_ne hne]
    exact hfile
  cases hstep with
  | create w draft target goal _ hdraft => exact hupdate draft _ hdraft
  | write w k n hk => exact hupdate _ _ (h.names w k hk).1
  | sync w k hk =>
    have hdraft := (h.names w k hk).1
    have hne : p ≠ k.draft := fun heq => hp (heq ▸ hdraft)
    show ((s.disk.write k.draft k.goal).sync k.draft p).isSome
    rw [Disk.sync, Function.update_of_ne hne]
    exact hupdate _ _ hdraft
  | rename w k hk hstage =>
    have hne : p ≠ k.draft := fun heq => hp (heq ▸ (h.names w k hk).1)
    show (s.disk.rename k.draft k.target p).isSome
    rw [Disk.rename_apply (h.ready w k hk hstage), if_neg hne]
    split
    · rfl
    · exact hfile
  | abort w k hk => exact hfile
  | unlink w k hk => exact hupdate _ _ (h.names w k hk).1
  | stop w => exact hfile

omit [DecidableEq ω] [DecidableEq π] in
/-- A power cut stops every writer. -/
theorem Sound.cut (h : Sound hidden valid s) (keeps : π → Bool) (torn : π → List β) :
    Sound hidden valid (s.cut keeps torn) := by
  refine ⟨h.disk.cut keeps torn, ?_, ?_, ?_, ?_⟩
  · exact fun w k hk => by cases hk
  · exact fun w w' k hk => by cases hk
  · exact fun w k hk => by cases hk
  · exact fun w k hk => by cases hk

/-- Steps between two power cuts. -/
abbrev Run (hidden : π → Prop) (valid : π → List β → Prop) :
    State ω π β → State ω π β → Prop :=
  Relation.ReflTransGen (Step hidden valid)

theorem Run.sound (hrun : Run hidden valid s s') (h : Sound hidden valid s) :
    Sound hidden valid s' := by
  induction hrun with
  | refl => exact h
  | tail _ hstep ih => exact hstep.sound ih

theorem Run.shown (hrun : Run hidden valid s s') (h : Sound hidden valid s) {p : π}
    (hp : ¬ hidden p) (hfile : (s.disk p).isSome) : (s'.disk p).isSome := by
  induction hrun with
  | refl => exact hfile
  | tail hbefore hstep ih => exact hstep.shown (Run.sound hbefore h) hp ih

end Steps

end Publication

end AeepRouter.Lib

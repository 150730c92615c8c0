import AeepRouter.Task.Lifecycle

/-!
# Which activations may dispatch

In every run of sessions, crashes included, an activation that `requireActivation` lets through was
last activated or resumed, and was resumed after each event that ended it, a replacement included
(`permission_accounted`). An operation that has not committed ends nothing, and nothing keeps a
replaced activation from being resumed (`ended_activations_permitted`).
-/

namespace AeepRouter.Task

open Lib

/-! ## Statements -/

namespace LifecycleEvent

variable (event : LifecycleEvent) (a : TaskActivation)

def concerns : Prop := event.activation = a ∨ event.replaced = some a

def permits : Prop :=
  event.activation = a ∧
    (event.operation = .activate ∨ event.operation = .replace ∨ event.operation = .resume)

/-- A change of the state of `a` other than a resumption, or a replacement of `a` by another. -/
def ends : Prop :=
  event.replaced = some a ∧ event.activation ≠ a ∨
    event.activation = a ∧ (event.operation = .pause ∨ event.operation = .stop ∨
      event.operation = .rollback ∨ event.operation = .uninstall)

def resumes : Prop := event.activation = a ∧ event.operation = .resume

def activates : Prop :=
  event.activation = a ∧ (event.operation = .activate ∨ event.operation = .replace)

instance : Decidable (event.concerns a) := inferInstanceAs (Decidable (_ ∨ _))

instance : Decidable (event.ends a) := inferInstanceAs (Decidable (_ ∨ _))

end LifecycleEvent

def lastConcerning (log : List LifecycleEvent) (a : TaskActivation) : Option LifecycleEvent :=
  (log.filter (·.concerns a)).getLast?

/-- What stands behind the permission of an activation. -/
structure Accounted (d : Disk) (a : TaskActivation) : Prop where
  last : ∃ event, lastConcerning d.lifecycle a = some event ∧ event.permits a
  overlay : d.overlayApplied a
  resumed : ∀ before event after, d.lifecycle = before ++ event :: after → event.ends a →
    ∃ later ∈ after, later.resumes a

/-! ## The disk -/

variable {project : Project} {s : System} {d d' : Disk} {a record : TaskActivation}
  {previous : Option TaskActivation} {log : List LifecycleEvent} {event : LifecycleEvent}
  {writer : Option ℕ} {me : ℕ} {work : Work}

def Disk.Reviewed (d : Disk) (a : TaskActivation) : Prop := (d.reviews.find? a).isSome = true

/-- An activation that has ended keeps its review, or else its overlay. -/
def Disk.Marked (d : Disk) (a : TaskActivation) : Prop := d.Reviewed a ∨ d.overlayApplied a

def Disk.Settled (d : Disk) (a : TaskActivation) : Prop :=
  ∀ event ∈ d.lifecycle, event.ends a → d.Reviewed a

/-- What holds of the disk in every run. -/
structure Disk.Sound (d : Disk) : Prop where
  permitted : ∀ row ∈ d.reviews, row.revoked = false →
    ∃ event, lastConcerning d.lifecycle row.activation = some event ∧ event.permits row.activation
  /-- No activation is activated once it has ended. -/
  ended : d.lifecycle.Pairwise fun event later => ∀ a, event.ends a → ¬ later.activates a
  marked : ∀ event ∈ d.lifecycle, ∀ a, event.ends a → d.Marked a

theorem lastConcerning_append (log : List LifecycleEvent) (event : LifecycleEvent)
    (a : TaskActivation) : lastConcerning (log ++ [event]) a =
      if event.concerns a then some event else lastConcerning log a := by
  unfold lastConcerning
  rw [List.filter_append]
  split
  next h =>
    have hone : [event].filter (·.concerns a) = [event] := by simp [h]
    rw [hone, List.getLast?_concat]
  next h =>
    have hnil : [event].filter (·.concerns a) = [] := by simp [h]
    rw [hnil, List.append_nil]

/-! ## Steps and the disk -/

/-- What one step of a session does to the disk. -/
inductive Effect (writer : Option ℕ) (me : ℕ) (d : Disk) : Disk → Prop where
  | quiet (records : Table TaskActivation (·.activationId))
      (bindings : Table TaskCodexBinding (·.activationId)) (config : Option String) :
      Effect writer me d { d with
        records := records
        bindings := bindings
        config := config }
  | create (record : TaskActivation) (hwriter : writer = some me)
      (hnone : d.overlays.find? record.activationId = none) :
      Effect writer me d { d with overlays := d.overlays.insert ⟨record.activationId, none⟩ }
  | write (record : TaskActivation) (hwriter : writer = some me)
      (hfound : d.overlays.find? record.activationId = some ⟨record.activationId, none⟩) :
      Effect writer me d
        { d with overlays := d.overlays.assign ⟨record.activationId, some record⟩ }
  | unlink (record : TaskActivation) (hreviewed : d.Reviewed record)
      (happlied : d.overlayApplied record) :
      Effect writer me d { d with overlays := d.overlays.erase record.activationId }
  | change (record : TaskActivation) (operation : Change) (hwriter : writer = none) :
      Effect writer me d (d.commitChange record operation)
  | activate (record : TaskActivation) (previous : Option TaskActivation)
      (hwriter : writer = some me) (hmarked : ∀ old ∈ previous, d.Marked old)
      (hsettled : d.Settled record) {next : Disk}
      (hcommit : d.commitActivation record previous = some next) : Effect writer me d next

theorem commitActivation_eq_some (h : d.commitActivation record previous = some d') :
    d.reviews.find? record = none ∧ d' = { d with
      reviews := (d.reviews.rewrite (revoke previous)).insert ⟨record, false⟩
      lifecycle := d.lifecycle ++ [activated record previous] } := by
  unfold Disk.commitActivation at h
  split at h
  · cases h
  next hnone => exact ⟨Option.not_isSome_iff_eq_none.mp hnone, (Option.some_inj.mp h).symm⟩

theorem find?_revoked (hnone : d.reviews.find? record = none) (a : TaskActivation) :
    ((d.reviews.rewrite (revoke previous)).insert ⟨record, false⟩).find? a =
      if a = record then some ⟨record, false⟩ else (d.reviews.find? a).map (revoke previous) := by
  have hfree : (d.reviews.rewrite (revoke previous)).find? record = none := by
    rw [Table.find?_rewrite, hnone]
    rfl
  rw [Table.find?_insert hfree, Table.find?_rewrite]

theorem Effect.reviewed (h : Effect writer me d d') (ha : d.Reviewed a) : d'.Reviewed a := by
  cases h with
  | quiet | create | write | unlink => exact ha
  | change record operation =>
    unfold Disk.Reviewed Disk.commitChange
    dsimp only
    rw [Table.find?_assign]
    split
    · rfl
    · exact ha
  | activate record previous _ _ _ hcommit =>
    obtain ⟨hnone, rfl⟩ := commitActivation_eq_some hcommit
    unfold Disk.Reviewed
    dsimp only
    rw [find?_revoked hnone]
    split
    · rfl
    · rw [Option.isSome_map]
      exact ha

theorem Effect.marked (h : Effect writer me d d') (ha : d.Marked a) : d'.Marked a := by
  rcases ha with hrow | happlied
  · exact .inl (h.reviewed hrow)
  cases h with
  | quiet | change => exact .inr happlied
  | create record _ hnone =>
    refine .inr ?_
    unfold Disk.overlayApplied at happlied ⊢
    dsimp only
    rw [Table.find?_insert hnone]
    split
    next heq =>
      rw [heq, hnone] at happlied
      cases happlied
    next => exact happlied
  | write record _ hfound =>
    refine .inr ?_
    unfold Disk.overlayApplied at happlied ⊢
    dsimp only
    rw [Table.find?_assign]
    split
    next heq =>
      rw [heq, hfound] at happlied
      cases happlied
    next => exact happlied
  | unlink record hreviewed happlied' =>
    unfold Disk.overlayApplied at happlied happlied'
    by_cases heq : a.activationId = record.activationId
    · rw [heq, happlied', Option.some_inj] at happlied
      have hsame : record = a := Option.some_inj.mp (congrArg Overlay.contents happlied)
      exact .inl (hsame ▸ hreviewed)
    · refine .inr ?_
      unfold Disk.overlayApplied
      dsimp only
      rw [Table.find?_erase, if_neg heq]
      exact happlied
  | activate record previous _ _ _ hcommit =>
    obtain ⟨-, rfl⟩ := commitActivation_eq_some hcommit
    exact .inr happlied

theorem Disk.Sound.append (hd : d.Sound) (hlog : d'.lifecycle = d.lifecycle ++ [event])
    (hmarked : ∀ a, d.Marked a → d'.Marked a) (hnew : ∀ a, event.ends a → d'.Marked a)
    (hended : ∀ a, event.activates a → ∀ earlier ∈ d.lifecycle, ¬ earlier.ends a)
    (hrows : ∀ row ∈ d'.reviews, row.revoked = false →
      event.permits row.activation ∨ row ∈ d.reviews ∧ ¬ event.concerns row.activation) : d'.Sound where
  permitted := by
    intro row hrow hpermitted
    rw [hlog, lastConcerning_append]
    rcases hrows row hrow hpermitted with hpermits | ⟨hold, hnot⟩
    · rw [if_pos (.inl hpermits.1)]
      exact ⟨event, rfl, hpermits⟩
    · rw [if_neg hnot]
      exact hd.permitted row hold hpermitted
  ended := by
    rw [hlog, List.pairwise_append]
    refine ⟨hd.ended, List.pairwise_singleton _ _, fun earlier hearlier later hlater a hends => ?_⟩
    rw [List.mem_singleton.mp hlater]
    exact fun hactivates => hended a hactivates earlier hearlier hends
  marked := by
    intro earlier hearlier a hends
    rw [hlog, List.mem_append, List.mem_singleton] at hearlier
    rcases hearlier with hold | rfl
    · exact hmarked a (hd.marked earlier hold a hends)
    · exact hnew a hends

theorem reviewed_commitChange (d : Disk) (record : TaskActivation) (operation : Change) :
    (d.commitChange record operation).Reviewed record := by
  unfold Disk.Reviewed Disk.commitChange
  dsimp only
  rw [Table.find?_assign, if_pos rfl]
  rfl

theorem Disk.Sound.change (hd : d.Sound) (record : TaskActivation) (operation : Change) :
    (d.commitChange record operation).Sound := by
  have heffect : Effect none 0 d (d.commitChange record operation) := .change record operation rfl
  refine hd.append rfl (fun a ha => heffect.marked ha) (fun a hends => ?_) (fun a hactivates => ?_)
    fun row hin hpermitted => ?_
  · rcases hends with ⟨hreplaced, -⟩ | ⟨rfl, -⟩
    · cases hreplaced
    · exact .inl (reviewed_commitChange d _ operation)
  · obtain ⟨-, hoperation⟩ := hactivates
    cases operation <;> rcases hoperation with hoperation | hoperation <;> cases hoperation
  · by_cases hsame : row.activation = record
    · have hrow := Table.find?_of_mem hin
      unfold Disk.commitChange at hrow
      dsimp only at hrow
      rw [Table.find?_assign, if_pos hsame, Option.some_inj] at hrow
      rw [← hrow, decide_eq_false_iff_not, not_not] at hpermitted
      exact .inl ⟨hsame.symm, .inr (.inr (hpermitted ▸ rfl))⟩
    · rcases Table.mem_or_eq_of_mem_assign hin with hold | rfl
      · refine .inr ⟨hold, fun hconcerns => ?_⟩
        rcases hconcerns with heq | heq
        · exact hsame heq.symm
        · cases heq
      · exact absurd rfl hsame

theorem Disk.Sound.activate (hd : d.Sound) (hmarked : ∀ old ∈ previous, d.Marked old)
    (hsettled : d.Settled record) (hcommit : d.commitActivation record previous = some d') :
    d'.Sound := by
  have heffect : Effect (some 0) 0 d d' := .activate record previous rfl hmarked hsettled hcommit
  obtain ⟨hnone, rfl⟩ := commitActivation_eq_some hcommit
  refine hd.append rfl (fun a ha => heffect.marked ha) (fun a hends => ?_) (fun a hactivates => ?_)
    fun row hin hpermitted => ?_
  · rcases hends with ⟨hreplaced, -⟩ | ⟨-, hoperation⟩
    · exact heffect.marked (hmarked a hreplaced)
    · unfold activated at hoperation
      dsimp only at hoperation
      split at hoperation <;> simp at hoperation
  · obtain ⟨rfl, -⟩ := hactivates
    intro earlier hearlier hends
    have hrow := hsettled earlier hearlier hends
    unfold Disk.Reviewed at hrow
    rw [hnone] at hrow
    cases hrow
  · have hrow := Table.find?_of_mem hin
    dsimp only at hrow
    rw [find?_revoked hnone] at hrow
    split at hrow
    next hsame =>
      refine .inl ⟨hsame.symm, ?_⟩
      unfold activated
      dsimp only
      split
      · exact .inr (.inl rfl)
      · exact .inl rfl
    next hne =>
      obtain ⟨old, hold, hrevoked⟩ := Option.map_eq_some_iff.mp hrow
      have hkey := Table.key_of_find? hold
      unfold revoke at hrevoked
      dsimp only at hrevoked
      split at hrevoked
      next =>
        rw [← hrevoked] at hpermitted
        cases hpermitted
      next hother =>
        subst hrevoked
        refine .inr ⟨Table.mem_of_find? hold, fun hconcerns => ?_⟩
        rcases hconcerns with heq | heq
        · exact hne heq.symm
        · exact hother heq.symm

theorem Effect.sound (h : Effect writer me d d') (hd : d.Sound) : d'.Sound := by
  have hmarked : ∀ a, d.Marked a → d'.Marked a := fun a ha => h.marked ha
  cases h with
  | quiet | create | write | unlink =>
    exact ⟨hd.permitted, hd.ended, fun event hevent a hends => hmarked a (hd.marked event hevent a hends)⟩
  | change record operation => exact hd.change record operation
  | activate record previous _ hold hsettled hcommit => exact hd.activate hold hsettled hcommit

/-! ## Sessions -/

/-- What a session relies on at its next step. -/
def Work.Holds (d : Disk) (writer : Option ℕ) (me : ℕ) : Work → Prop
  | .activate _ previous .create => writer = some me ∧ ∀ old ∈ previous, d.Marked old
  | .activate record previous .write => writer = some me ∧ (∀ old ∈ previous, d.Marked old) ∧
      d.Settled record ∧ d.overlays.find? record.activationId = some ⟨record.activationId, none⟩
  | .activate record previous .commit => writer = some me ∧ (∀ old ∈ previous, d.Marked old) ∧
      d.Settled record
  | .activate _ _ _ => True
  | .change _ _ .check | .change _ _ .transact => True
  | .change record _ _ => d.Reviewed record

/-- While one session has the write lock, no other one logs an event. -/
theorem Effect.lifecycle_eq {other : ℕ} (h : Effect writer me d d') (hwriter : writer = some other)
    (hne : other ≠ me) : d'.lifecycle = d.lifecycle := by
  cases h with
  | quiet | create | write | unlink => rfl
  | change record operation hfree => cases hwriter.symm.trans hfree
  | activate record previous hmine =>
    exact absurd (Option.some_inj.mp (hwriter.symm.trans hmine)) hne

theorem Effect.settled {other : ℕ} (h : Effect writer me d d') (hwriter : writer = some other)
    (hne : other ≠ me) (ha : d.Settled a) : d'.Settled a := by
  intro event hevent hends
  rw [h.lifecycle_eq hwriter hne] at hevent
  exact h.reviewed (ha event hevent hends)

/-- Nor does another one touch an overlay that is not written yet. -/
theorem Effect.unwritten {other : ℕ} {activationId : String} (h : Effect writer me d d')
    (hwriter : writer = some other) (hne : other ≠ me)
    (hfound : d.overlays.find? activationId = some ⟨activationId, none⟩) :
    d'.overlays.find? activationId = some ⟨activationId, none⟩ := by
  cases h with
  | quiet => exact hfound
  | change record operation hfree => cases hwriter.symm.trans hfree
  | create _ hmine | write _ hmine | activate _ _ hmine =>
    exact absurd (Option.some_inj.mp (hwriter.symm.trans hmine)) hne
  | unlink record _ happlied =>
    dsimp only
    rw [Table.find?_erase, if_neg]
    · exact hfound
    · rintro rfl
      rw [Disk.overlayApplied, hfound] at happlied
      cases happlied

theorem Work.Holds.step_other {other : ℕ} {writer' : Option ℕ} (h : work.Holds d writer other)
    (hne : other ≠ me) (heffect : Effect writer me d d')
    (hwriter : writer = some other → writer' = some other) : work.Holds d' writer' other := by
  cases work with
  | activate record previous stage =>
    cases stage with
    | put | lockHost | bind | writeHost | begin => trivial
    | create => exact ⟨hwriter h.1, fun old hold => heffect.marked (h.2 old hold)⟩
    | write =>
      obtain ⟨hmine, hmarked, hsettled, hfound⟩ := h
      exact ⟨hwriter hmine, fun old hold => heffect.marked (hmarked old hold),
        heffect.settled hmine hne hsettled, heffect.unwritten hmine hne hfound⟩
    | commit =>
      obtain ⟨hmine, hmarked, hsettled⟩ := h
      exact ⟨hwriter hmine, fun old hold => heffect.marked (hmarked old hold),
        heffect.settled hmine hne hsettled⟩
  | change record operation stage =>
    cases stage with
    | check | transact => trivial
    | lockHost | compare | writeHost | unlink => exact heffect.reviewed h

/-- What a step is to make of the system. -/
def Progress.Fine (s : System) (me : ℕ) : Progress → Prop
  | .blocked | .raised => True
  | .next work s' => s'.sessions = s.sessions ∧
      (∀ other, other ≠ me → s.writer = some other → s'.writer = some other) ∧
      Effect s.writer me s.disk s'.disk ∧ ∀ next ∈ work, next.Holds s'.disk s'.writer me

theorem Effect.refl (writer : Option ℕ) (me : ℕ) (d : Disk) : Effect writer me d d :=
  .quiet d.records d.bindings d.config

theorem holds_none {writer : Option ℕ} :
    ∀ next ∈ (none : Option Work), next.Holds d writer me :=
  fun next hnext => absurd hnext (Option.not_mem_none next)

theorem lockHost_fine (h : work.Holds s.disk s.writer me) : (lockHost s me work).Fine s me := by
  unfold lockHost
  split_ifs
  · trivial
  · refine ⟨rfl, fun _ _ h => h, .refl _ _ _, fun next hnext => ?_⟩
    cases hnext
    exact h

theorem writeHost_fine {before after : Option String}
    (h : work.Holds { s.disk with config := after } s.writer me) :
    (writeHost s before after work).Fine s me := by
  unfold writeHost
  split_ifs
  · trivial
  · refine ⟨rfl, fun _ _ h => h, .quiet _ _ _, fun next hnext => ?_⟩
    cases hnext
    exact h

theorem stepActivate_fine {stage : ActivateStage} (hd : s.disk.Sound)
    (h : (Work.activate record previous stage).Holds s.disk s.writer me) :
    (stepActivate project s me record previous stage).Fine s me := by
  cases stage with
  | put =>
    simp only [stepActivate]
    split_ifs
    · trivial
    all_goals
      split
      · trivial
      · refine ⟨rfl, fun _ _ h => h, .quiet _ _ _, fun next hnext => ?_⟩
        cases hnext
        trivial
  | lockHost =>
    simp only [stepActivate]
    exact lockHost_fine trivial
  | bind =>
    simp only [stepActivate]
    split_ifs
    · trivial
    · split
      · trivial
      · split
        · trivial
        · refine ⟨rfl, fun _ _ h => h, .quiet _ _ _, fun next hnext => ?_⟩
          cases hnext
          trivial
  | writeHost before after =>
    simp only [stepActivate]
    exact writeHost_fine trivial
  | begin =>
    simp only [stepActivate]
    split_ifs with hheld happlied
    · trivial
    · trivial
    · refine ⟨rfl, fun other _ hwriter => ?_, .refl _ _ _, fun next hnext => ?_⟩
      · cases hwriter.symm.trans (not_not.mp hheld)
      · cases hnext
        push Not at happlied
        exact ⟨rfl, fun old hold => .inr (happlied old hold)⟩
  | create =>
    simp only [stepActivate]
    split_ifs with hsome
    · trivial
    · have hnone := Option.not_isSome_iff_eq_none.mp hsome
      have heffect : Effect s.writer me s.disk { s.disk with
          overlays := s.disk.overlays.insert ⟨record.activationId, none⟩ } :=
        .create record h.1 hnone
      refine ⟨rfl, fun _ _ h => h, heffect, fun next hnext => ?_⟩
      cases hnext
      refine ⟨h.1, fun old hold => heffect.marked (h.2 old hold), fun event hevent hends => ?_,
        Table.find?_insert_self hnone⟩
      -- an activation that has ended has its review, as it has no overlay
      rcases hd.marked event hevent record hends with hrow | happlied
      · exact hrow
      · rw [Disk.overlayApplied, hnone] at happlied
        cases happlied
  | write =>
    obtain ⟨hmine, hmarked, hsettled, hfound⟩ := h
    have heffect : Effect s.writer me s.disk { s.disk with
        overlays := s.disk.overlays.assign ⟨record.activationId, some record⟩ } :=
      .write record hmine hfound
    simp only [stepActivate]
    refine ⟨rfl, fun _ _ h => h, heffect, fun next hnext => ?_⟩
    cases hnext
    exact ⟨hmine, fun old hold => heffect.marked (hmarked old hold), hsettled⟩
  | commit =>
    obtain ⟨hmine, hmarked, hsettled⟩ := h
    simp only [stepActivate]
    split
    · trivial
    next disk hcommit =>
      refine ⟨rfl, fun other hne hwriter => ?_,
        .activate record previous hmine hmarked hsettled hcommit, holds_none⟩
      exact absurd (Option.some_inj.mp (hwriter.symm.trans hmine)) hne

theorem stepChange_fine {operation : Change} {stage : ChangeStage}
    (h : (Work.change record operation stage).Holds s.disk s.writer me) :
    (stepChange project s me record operation stage).Fine s me := by
  cases stage with
  | check =>
    simp only [stepChange]
    split
    · trivial
    · refine ⟨rfl, fun _ _ h => h, .refl _ _ _, fun next hnext => ?_⟩
      cases hnext
      trivial
  | transact =>
    simp only [stepChange]
    split_ifs with hheld hundo
    · trivial
    all_goals
      have heffect : Effect s.writer me s.disk (s.disk.commitChange record operation) :=
        .change record operation (not_not.mp hheld)
    · refine ⟨rfl, fun _ _ h => h, heffect, fun next hnext => ?_⟩
      cases hnext
      exact reviewed_commitChange s.disk record operation
    · exact ⟨rfl, fun _ _ h => h, heffect, holds_none⟩
  | lockHost =>
    simp only [stepChange]
    split_ifs
    · refine ⟨rfl, fun _ _ h => h, .refl _ _ _, fun next hnext => ?_⟩
      cases hnext
      exact h
    · exact lockHost_fine h
  | compare =>
    have hunlink : (Progress.next (some (.change record operation .unlink))
        { s with hostLock := none }).Fine s me := by
      refine ⟨rfl, fun _ _ h => h, .refl _ _ _, fun next hnext => ?_⟩
      cases hnext
      exact h
    simp only [stepChange]
    split
    · split
      · trivial
      · exact hunlink
      · split
        · trivial
        · refine ⟨rfl, fun _ _ h => h, .refl _ _ _, fun next hnext => ?_⟩
          cases hnext
          exact h
    · exact hunlink
  | writeHost before after =>
    simp only [stepChange]
    exact writeHost_fine h
  | unlink =>
    simp only [stepChange]
    split_ifs with hnone happlied
    · exact ⟨rfl, fun _ _ h => h, .refl _ _ _, holds_none⟩
    · exact ⟨rfl, fun _ _ h => h, .unlink record h happlied, holds_none⟩
    · trivial

/-! ## Runs -/

structure System.Sound (s : System) : Prop where
  disk : s.disk.Sound
  sessions : ∀ session ∈ s.sessions, session.work.Holds s.disk s.writer session.sessionId

theorem Work.step_fine (hd : s.disk.Sound) (h : work.Holds s.disk s.writer me) :
    (work.step project s me).Fine s me := by
  cases work with
  | activate record previous stage => exact stepActivate_fine hd h
  | change record operation stage => exact stepChange_fine h

/-- The end of a session releases no lock of another. -/
theorem leave_writer {other : ℕ} (hne : other ≠ me) (h : s.writer = some other) :
    (s.leave me).writer = some other := by
  unfold System.leave
  dsimp only
  rw [if_neg]
  · exact h
  · rw [h]
    exact fun heq => hne (Option.some_inj.mp heq)

theorem System.Sound.leave (h : s.Sound) (me : ℕ) : (s.leave me).Sound where
  disk := h.disk
  sessions := by
    intro session hsession
    obtain ⟨hold, hne⟩ := Table.mem_erase.mp hsession
    exact (h.sessions session hold).step_other hne (.refl _ me _) (leave_writer hne)

theorem System.Sound.enter (h : s.Sound) {work : Result Work}
    (hwork : ∀ w, work = .ok w → w.Holds s.disk s.writer me) : (s.enter me work).Sound := by
  unfold System.enter
  split
  next w hnone =>
    refine ⟨h.disk, fun session hsession => ?_⟩
    rcases (Table.mem_insert hnone).mp hsession with hold | rfl
    · exact h.sessions session hold
    · exact hwork w rfl
  next => exact h

theorem System.Sound.progress (h : s.Sound) {session : Session} (hsession : session ∈ s.sessions) :
    (s.progress session.sessionId (session.work.step project s session.sessionId)).Sound := by
  have hfine : (session.work.step project s session.sessionId).Fine s session.sessionId :=
    Work.step_fine h.disk (h.sessions session hsession)
  generalize session.work.step project s session.sessionId = progress at hfine
  cases progress with
  | blocked => exact h
  | raised => exact h.leave _
  | next work s' =>
    obtain ⟨hsessions, hwriter, heffect, hnext⟩ := hfine
    have hdisk := heffect.sound h.disk
    have hothers : ∀ other ∈ s'.sessions, other.sessionId ≠ session.sessionId →
        other.work.Holds s'.disk s'.writer other.sessionId := by
      intro other hother hne
      rw [hsessions] at hother
      exact (h.sessions other hother).step_other hne heffect (hwriter _ hne)
    cases work with
    | none =>
      refine ⟨hdisk, fun other hother => ?_⟩
      obtain ⟨hold, hne⟩ := Table.mem_erase.mp hother
      exact (hothers other hold hne).step_other hne (.refl _ session.sessionId _) (leave_writer hne)
    | some work =>
      refine ⟨hdisk, fun other hother => ?_⟩
      rcases Table.mem_put.mp hother with rfl | ⟨hold, hne⟩
      · exact hnext work rfl
      · exact hothers other hold hne

theorem System.Sound.step (h : s.Sound) (input : Input) : (step project s input).Sound := by
  cases input with
  | activate me activationId scopeId replace profile hostBinding =>
    refine h.enter fun work hwork => ?_
    unfold startActivation at hwork
    simp only [bind_ok, pure_ok] at hwork
    obtain ⟨_, -, _, -, _, -, _, -, _, -, rfl⟩ := hwork
    trivial
  | change me identity operation =>
    refine h.enter fun work hwork => ?_
    obtain ⟨record, -, rfl⟩ := map_ok.mp hwork
    split <;> trivial
  | advance me =>
    unfold Task.step
    dsimp only
    split
    · exact h
    next session hfound =>
      have hid : session.sessionId = me := Table.key_of_find? hfound
      exact hid ▸ h.progress (Table.mem_of_find? hfound)
  | crash me => exact h.leave me

theorem sound_empty : System.empty.Sound where
  disk := ⟨fun _ h => absurd h Table.not_mem_empty, .nil, fun _ h => absurd h List.not_mem_nil⟩
  sessions := fun _ h => absurd h Table.not_mem_empty

theorem LifecycleEvent.ends.concerns (h : event.ends a) : event.concerns a := by
  rcases h with ⟨hreplaced, -⟩ | ⟨hactivation, -⟩
  · exact .inr hreplaced
  · exact .inl hactivation

theorem LifecycleEvent.ends.not_permits (h : event.ends a) : ¬ event.permits a := by
  rintro ⟨hactivation, hpermitting⟩
  rcases h with ⟨-, hne⟩ | ⟨-, hending⟩
  · exact hne hactivation
  · rcases hending with hop | hop | hop | hop <;> rw [hop] at hpermitting <;> simp at hpermitting

theorem Disk.Sound.resumed (hd : d.Sound) {last : LifecycleEvent}
    (hlast : lastConcerning d.lifecycle a = some last) (hpermits : last.permits a)
    {before after : List LifecycleEvent} (hlog : d.lifecycle = before ++ event :: after)
    (hends : event.ends a) : ∃ later ∈ after, later.resumes a := by
  have hkept : (event :: after).filter (·.concerns a) = event :: after.filter (·.concerns a) :=
    List.filter_cons_of_pos (by simpa using hends.concerns)
  have hmem : last ∈ after := by
    unfold lastConcerning at hlast
    rw [hlog, List.filter_append, hkept,
      List.getLast?_append_of_ne_nil _ (List.cons_ne_nil _ _)] at hlast
    rcases List.mem_cons.mp (List.mem_of_mem_getLast? hlast) with rfl | hin
    · exact absurd hpermits hends.not_permits
    · exact List.mem_of_mem_filter hin
  have hpair := hd.ended
  rw [hlog, List.pairwise_append] at hpair
  have hnot := (List.pairwise_cons.mp hpair.2.1).1 last hmem a hends
  obtain ⟨hactivation, hoperation⟩ := hpermits
  refine ⟨last, hmem, hactivation, ?_⟩
  rcases hoperation with hop | hop | hop
  · exact absurd ⟨hactivation, .inl hop⟩ hnot
  · exact absurd ⟨hactivation, .inr hop⟩ hnot
  · exact hop

/-- In every run, an activation that may dispatch was last activated or resumed, its overlay spells it,
and it was resumed after each event that ended it. -/
theorem permission_accounted (project : Project) (inputs : List Input) (identity : String)
    (a : TaskActivation)
    (h : requireActivation project (run (step project) .empty inputs).disk identity = .ok a) :
    Accounted (run (step project) .empty inputs).disk a := by
  have hsound : (run (step project) .empty inputs).Sound :=
    run_invariant (fun _ input hs => hs.step input) inputs sound_empty
  generalize run (step project) .empty inputs = s at h hsound
  unfold requireActivation at h
  simp only [bind_ok, pure_ok, raiseIf_ok, exists_const, not_not] at h
  obtain ⟨record, -, hreview, hoverlay, -, -, _, -, rfl⟩ := h
  obtain ⟨last, hlast, hpermits⟩ :=
    hsound.disk.permitted ⟨record, false⟩ (Table.mem_of_find? hreview) rfl
  exact ⟨⟨last, hlast, hpermits⟩, hoverlay, fun before event after hlog hends =>
    hsound.disk.resumed hlast hpermits hlog hends⟩

/-! ## Pauses that crash and replacements that are undone -/

def exampleProject : Project where
  manifestPath := "/p/aeep.json"
  manifestDigest := "m"
  manifestFileDigest := some "f"
  scope id := .ok ("scope " ++ id)
  scopeReady _ := .ok ()
  profile _ _ := .ok true
  entryState binding config :=
    if ∃ text ∈ config, binding.block.toList <:+: text.toList then .applied else .absent
  installed record config :=
    .ok ("[aeep_" ++ record.activationId ++ "]",
      config.getD "" ++ "[aeep_" ++ record.activationId ++ "]")
  removed _ _ := .ok none

def exampleActivation (activationId : String) : TaskActivation where
  activationId := activationId
  scopeDigest := "scope s"
  manifestDigest := "m"
  manifestFileDigest := some "f"
  manifestPath := "/p/aeep.json"
  capabilityProfileDigest := none
  hostBinding := true

/-- A session that activates from its first step to its last. -/
def activation (me : ℕ) (activationId : String) (replace : Option String) : List Input :=
  .activate me activationId "s" replace none true :: List.replicate 8 (.advance me)

def after (inputs : List Input) : System := run (step exampleProject) .empty inputs

def pausedAndResumed : List Input :=
  activation 0 "a" none ++ [.change 1 "a" .pause, .advance 1] ++
    [.change 2 "a" .resume, .advance 2, .advance 2]

theorem permission_accounted_of_resume : Accounted (after pausedAndResumed).disk (exampleActivation "a") :=
  permission_accounted exampleProject pausedAndResumed "a" (exampleActivation "a") (by decide +kernel)

def pausing : List Input := activation 0 "a" none ++ [.change 1 "a" .pause]

def replacedAndResumed : List Input :=
  activation 0 "a" none ++ activation 1 "b" (some "a") ++
    [.change 2 "a" .resume, .advance 2, .advance 2]

/-- A crash of a pause leaves its activation permitted, and a resumption permits an activation beside
the one that replaced it. -/
theorem ended_activations_permitted :
    ((after pausing).sessions.find? 1 = some ⟨1, .change (exampleActivation "a") .pause .transact⟩ ∧
      requireActivation exampleProject (after (pausing ++ [.crash 1])).disk "a" =
        .ok (exampleActivation "a")) ∧
    (⟨exampleActivation "b", .replace, some (exampleActivation "a")⟩ ∈
        (after replacedAndResumed).disk.lifecycle ∧
      requireActivation exampleProject (after replacedAndResumed).disk "a" =
        .ok (exampleActivation "a") ∧
      requireActivation exampleProject (after replacedAndResumed).disk "b" =
        .ok (exampleActivation "b")) := by
  decide +kernel

end AeepRouter.Task

import AeepRouter.Attempt.Available
import AeepRouter.Attempt.Step

/-!
# Attempts and their holds

A transition of an attempt moves its holds in the same transaction: they are reserved until it is
invoked, claimed by its owner from then on, and released when it ends. That rests on every bound hold
belonging to its attempt, which a transition checks when it binds and a creation does not.
-/

namespace AeepRouter

open Lib

/-- The holds are moved by attempts alone. -/
def AttemptOp.LeavesHolds : AttemptOp → Prop
  | claimCapacity .. | releaseCapacity .. => False
  | _ => True

instance (op : AttemptOp) : Decidable op.LeavesHolds := by
  induction op using AttemptOp.casesOn <;> unfold AttemptOp.LeavesHolds <;> infer_instance

def AttemptOp.BindsOwn (s : AttemptStore) : AttemptOp → Prop
  | create attempt _ => s.attempts.find? attempt.attemptId = none →
      ∀ id ∈ attempt.capacityReservationIds,
        (s.reservations.find? id).any (·.executionId = attempt.attemptId)
  | _ => True

instance (s : AttemptStore) (op : AttemptOp) : Decidable (op.BindsOwn s) := by
  induction op using AttemptOp.casesOn <;> unfold AttemptOp.BindsOwn <;> infer_instance

namespace AttemptStore

def Entered (s : AttemptStore) (attemptId : String) : Prop :=
  ∃ link ∈ s.transitions, link.attemptId = attemptId ∧ link.toState = .invoking

/-- A hold exists and belongs to an attempt. -/
def Owned (s : AttemptStore) (attemptId id : String) : Prop :=
  ∃ row, s.reservations.find? id = some row ∧ row.executionId = attemptId

def Bound (s : AttemptStore) : Prop :=
  ∀ a ∈ s.attempts, ∀ id ∈ a.capacityReservationIds, s.Owned a.attemptId id

/-- Nothing has happened yet to the holds of an attempt that does not exist. -/
def Unborn (attemptId : String) (s : AttemptStore) : Prop :=
  s.attempts.find? attemptId = none →
    (∀ id row, s.reservations.find? id = some row → row.executionId = attemptId →
      row.status = .reserved) ∧
    ∀ link ∈ s.transitions, link.attemptId ≠ attemptId

instance (s : AttemptStore) (attemptId : String) : Decidable (s.Entered attemptId) :=
  inferInstanceAs (Decidable (∃ link ∈ s.transitions.rows, _))

def holdStatus (s : AttemptStore) (a : ExecutionAttempt) : CapacityReservationStatus :=
  if a.state.terminal then .released else if s.Entered a.attemptId then .claimed else .reserved

structure InPhase (s : AttemptStore) (a : ExecutionAttempt) : Prop where
  holds : ∀ id ∈ a.capacityReservationIds, ∀ row, s.reservations.find? id = some row →
    row.status = s.holdStatus a ∧ (row.status = .claimed → row.claimToken = a.ownerId)
  early : a.state = .created ∨ a.state = .claimed ∨ a.state = .reserved → ¬ s.Entered a.attemptId

end AttemptStore

/-! ## Ownership -/

section Ownership

variable {contentDigest : AssessmentValue → String} {s s' : AttemptStore} {op : AttemptOp}
  {current updated : ExecutionAttempt} {t : HoldTable} {attemptId id : String}

theorem HoldsFollow.owned {ids : List String} {row : CapacityReservation} {t t' : HoldTable}
    (h : HoldsFollow current updated ids t t') (hrow : t.find? id = some row) :
    ∃ row', t'.find? id = some row' ∧ row'.executionId = row.executionId := by
  by_cases hid : id ∈ ids
  · exact ⟨_, by rw [h.moved id hid, hrow, Option.map_some], moveHold_executionId ..⟩
  · exact ⟨row, by rw [h.others id hid, hrow], rfl⟩

theorem AttemptStore.Moves.owns (h : s.Moves current updated t) (hbound : s.Bound)
    (hid : id ∈ updated.capacityReservationIds) : s.Owned updated.attemptId id := by
  rcases h.bindings with hsame | hbinds
  · rw [hsame] at hid
    rw [← h.attemptId]
    exact hbound current (Table.mem_of_find? h.found) id hid
  · obtain ⟨row, hrow, howner, -⟩ := h.owned hbinds id hid
    exact ⟨row, hrow, howner⟩

theorem AttemptChange.bound (h : AttemptChange contentDigest s op s') (hleaves : op.LeavesHolds)
    (hown : op.BindsOwn s) (hs : s.Bound) : s'.Bound := by
  cases h with
  | stay => exact hs
  | held reservation knownAvailable now hfree =>
    intro a ha id hid
    obtain ⟨row, hrow, howner⟩ := hs a ha id hid
    refine ⟨row, ?_, howner⟩
    rw [Table.find?_insert (x := reservation.opened) hfree, if_neg, hrow]
    rintro rfl
    cases hrow.symm.trans hfree
  | holdClaimed | holdReleased => exact hleaves.elim
  | created attempt now hfree _ =>
    intro a ha id hid
    rcases (Table.mem_insert hfree).mp ha with ha | rfl
    · exact hs a ha id hid
    · obtain ⟨row, hrow, howner⟩ := (Option.any_eq_true ..).mp (hown hfree id hid)
      exact ⟨row, hrow, of_decide_eq_true howner⟩
  | moved _ current updated t reason _ hmoves hlink =>
    have hkeep : ∀ {attemptId id : String}, s.Owned attemptId id →
        ∃ row, t.find? id = some row ∧ row.executionId = attemptId := by
      rintro attemptId id ⟨row, hrow, rfl⟩
      exact hmoves.follow.owned hrow
    intro a ha id hid
    by_cases hself : a.attemptId = updated.attemptId
    · obtain rfl : updated = a := by
        have hfind := Table.find?_of_mem ha
        have hset := AttemptStore.find?_setAttempt_self hmoves.found
        rw [← hself] at hset
        exact Option.some.inj (hset.symm.trans hfind)
      exact hkeep (hmoves.owns hs hid)
    · have hfind := Table.find?_of_mem ha
      have hset := AttemptStore.find?_setAttempt_ne (s := s) hself
      have hmem := Table.mem_of_find? (hset.symm.trans hfind)
      exact hkeep (hs a hmem id hid)
  | put | review => exact hs

/-- Two attempts own no hold in common. -/
theorem AttemptStore.Owned.unique {s : AttemptStore} {a b id : String} (ha : s.Owned a id)
    (hb : s.Owned b id) : a = b := by
  obtain ⟨row, hrow, rfl⟩ := ha
  obtain ⟨row', hrow', rfl⟩ := hb
  obtain rfl := Option.some.inj (hrow.symm.trans hrow')
  rfl

theorem AttemptStore.Moves.leaves (h : s.Moves current updated t) (hbound : s.Bound)
    (hne : attemptId ≠ updated.attemptId) (howned : s.Owned attemptId id) :
    t.find? id = s.reservations.find? id :=
  h.follow.others id fun hid => hne (howned.unique (h.owns hbound hid))

theorem AttemptChange.unborn (h : AttemptChange contentDigest s op s') (hleaves : op.LeavesHolds)
    (hbound : s.Bound) (hs : s.Unborn attemptId) : s'.Unborn attemptId := by
  intro hnone
  cases h with
  | stay => exact hs hnone
  | held reservation knownAvailable now hfree =>
    obtain ⟨hholds, hlinks⟩ := hs hnone
    refine ⟨fun id row hrow howner => ?_, hlinks⟩
    rw [Table.find?_insert (x := reservation.opened) hfree] at hrow
    split at hrow
    · obtain rfl := Option.some.inj hrow
      rfl
    · exact hholds id row hrow howner
  | holdClaimed | holdReleased => exact hleaves.elim
  | created attempt now hfree _ =>
    rw [Table.find?_insert hfree] at hnone
    split at hnone
    · cases hnone
    · exact hs hnone
  | moved _ current updated t reason _ hmoves hlink =>
    have hne : attemptId ≠ updated.attemptId := by
      rintro rfl
      cases hnone.symm.trans (AttemptStore.find?_setAttempt_self hmoves.found)
    obtain ⟨hholds, hlinks⟩ := hs ((AttemptStore.find?_setAttempt_ne hne).symm.trans hnone)
    refine ⟨fun id row hrow howner => ?_, fun link hmem => ?_⟩
    · by_cases hid : id ∈ updated.capacityReservationIds
      · -- a hold this update binds belongs to its own attempt
        obtain ⟨row₀, hrow₀, howner₀⟩ := hmoves.owns hbound hid
        obtain ⟨row₁, hrow₁, howner₁⟩ := hmoves.follow.owned hrow₀
        obtain rfl := Option.some.inj (hrow.symm.trans hrow₁)
        exact absurd (howner.symm.trans (howner₁.trans howner₀)) hne
      · exact hholds id row ((hmoves.follow.others id hid).symm.trans hrow) howner
    · rcases (Table.mem_insert hlink).mp hmem with hmem | rfl
      · exact hlinks link hmem
      · rw [← hmoves.attemptId] at hne
        exact hne.symm
  | put | review => exact hs hnone

end Ownership

/-! ## Phases -/

section Phases

variable {contentDigest : AssessmentValue → String} {s s' : AttemptStore} {op : AttemptOp}
  {a b current updated : ExecutionAttempt} {t : HoldTable} {reason : Option String} {id : String}

/-- An update enters `INVOKING` or leaves unchanged whether the attempt has. -/
theorem AttemptStore.entered_insert {link : AttemptTransition} {attemptId : String}
    (hfree : s.transitions.find? link.transitionId = none)
    (hs : s'.transitions = s.transitions.insert link) :
    s'.Entered attemptId ↔
      s.Entered attemptId ∨ link.attemptId = attemptId ∧ link.toState = .invoking := by
  unfold AttemptStore.Entered
  rw [hs]
  constructor
  · rintro ⟨l, hl, hkey, hstate⟩
    rcases (Table.mem_insert hfree).mp hl with hl | rfl
    · exact .inl ⟨l, hl, hkey, hstate⟩
    · exact .inr ⟨hkey, hstate⟩
  · rintro (⟨l, hl, hkey, hstate⟩ | ⟨hkey, hstate⟩)
    · exact ⟨l, (Table.mem_insert hfree).mpr (.inl hl), hkey, hstate⟩
    · exact ⟨link, (Table.mem_insert hfree).mpr (.inr rfl), hkey, hstate⟩

theorem AttemptStore.InPhase.congr (h : s.InPhase a)
    (hholds : ∀ id ∈ a.capacityReservationIds, s'.reservations.find? id = s.reservations.find? id)
    (hentered : s'.Entered a.attemptId ↔ s.Entered a.attemptId) : s'.InPhase a where
  holds id hid row hrow := by
    have hstatus : s'.holdStatus a = s.holdStatus a := by
      unfold holdStatus
      simp only [hentered]
    rw [hholds id hid] at hrow
    rw [hstatus]
    exact h.holds id hid row hrow
  early hearly := by
    rw [hentered]
    exact h.early hearly

theorem AttemptStore.Moves.status_before (h : s.Moves current updated t) (hphase : s.InPhase current)
    (hid : id ∈ updated.capacityReservationIds) {row : CapacityReservation}
    (hrow : s.reservations.find? id = some row) :
    row.status = (if s.Entered current.attemptId then .claimed else .reserved) ∧
      (row.status = .claimed → row.claimToken = current.ownerId) := by
  rcases h.bindings with hsame | hbinds
  · rw [hsame] at hid
    obtain ⟨hstatus, htoken⟩ := hphase.holds id hid row hrow
    rw [holdStatus, if_neg h.not_terminal] at hstatus
    exact ⟨hstatus, htoken⟩
  · obtain ⟨row', hrow', -, hstatus⟩ := h.owned hbinds id hid
    obtain rfl := Option.some.inj (hrow.symm.trans hrow')
    rw [if_neg (hphase.early (.inr (.inl hbinds.1))), hstatus]
    exact ⟨rfl, fun hclaimed => by cases hclaimed⟩

theorem AttemptStore.Moves.inPhase (h : s.Moves current updated t) (hphase : s.InPhase current)
    (hfree : s.transitions.find? (current.link updated reason).transitionId = none) :
    ({ s.setAttempt updated with
        reservations := t
        transitions := s.transitions.insert (current.link updated reason) } :
      AttemptStore).InPhase updated := by
  set s' : AttemptStore := { s.setAttempt updated with
    reservations := t
    transitions := s.transitions.insert (current.link updated reason) }
  have hentered : s'.Entered updated.attemptId ↔
      s.Entered current.attemptId ∨ updated.state = .invoking := by
    rw [AttemptStore.entered_insert hfree rfl, ← h.attemptId]
    exact or_congr_right (and_iff_right rfl)
  have hlegal := h.legal
  constructor
  · intro id hid row' hrow'
    rw [h.follow.moved id hid, Option.map_eq_some_iff] at hrow'
    obtain ⟨row, hrow, rfl⟩ := hrow'
    obtain ⟨hstatus, htoken⟩ := h.status_before hphase hid hrow
    by_cases hinvoking : updated.state = .invoking
    · have howner : updated.ownerId = current.ownerId := by
        refine h.owner.resolve_right fun hcreated => ?_
        rw [hinvoking, hcreated] at hlegal
        exact absurd hlegal (by decide)
      have hphase' : s'.holdStatus updated = .claimed := by
        rw [holdStatus, if_neg (by rw [hinvoking]; decide), if_pos (hentered.mpr (.inr hinvoking))]
      rw [moveHold, if_pos hinvoking, hphase', howner]
      exact ⟨rfl, fun _ => rfl⟩
    · by_cases hterminal : updated.state.terminal
      · rw [moveHold, if_neg hinvoking, if_pos hterminal, holdStatus, if_pos hterminal]
        exact ⟨rfl, fun hclaimed => by cases hclaimed⟩
      · rw [moveHold, if_neg hinvoking, if_neg hterminal, holdStatus, if_neg hterminal]
        simp only [hentered, hinvoking, or_false]
        refine ⟨hstatus, fun hclaimed => ?_⟩
        have howner : updated.ownerId = current.ownerId := by
          refine h.owner.resolve_right fun hcreated => ?_
          rw [hstatus, if_neg (hphase.early (.inl hcreated))] at hclaimed
          cases hclaimed
        rw [howner]
        exact htoken hclaimed
  · intro hearly
    rw [hentered, not_or]
    have hbefore : (current.state = .created ∨ current.state = .claimed ∨
        current.state = .reserved) ∧ updated.state ≠ .invoking := by
      revert hearly hlegal
      cases current.state <;> cases updated.state <;> decide
    exact ⟨hphase.early hbefore.1, hbefore.2⟩

theorem AttemptStore.Unborn.inPhase {attempt : ExecutionAttempt} (hs : s.Unborn attempt.attemptId)
    (hfree : s.attempts.find? attempt.attemptId = none) (hcreated : attempt.state = .created)
    (hown : ∀ id ∈ attempt.capacityReservationIds, s.Owned attempt.attemptId id) :
    ({ s with attempts := s.attempts.insert attempt } : AttemptStore).InPhase attempt := by
  obtain ⟨hholds, hlinks⟩ := hs hfree
  have hentered : ¬ s.Entered attempt.attemptId := by
    rintro ⟨link, hmem, hkey, -⟩
    exact hlinks link hmem hkey
  refine ⟨fun id hid row hrow => ?_, fun _ => hentered⟩
  obtain ⟨row', hrow', howner⟩ := hown id hid
  obtain rfl := Option.some.inj (hrow.symm.trans hrow')
  have hreserved := hholds id row hrow howner
  rw [holdStatus, if_neg (by rw [hcreated]; decide), hreserved]
  refine ⟨?_, nofun⟩
  rw [if_neg]
  exact hentered

/-- The bindings of an attempt are settled once it has left `CREATED` and `CLAIMED`. -/
def ExecutionAttempt.Settled (a : ExecutionAttempt) : Prop :=
  a.state ≠ .created ∧ a.state ≠ .claimed

theorem AttemptStore.Moves.settled (h : s.Moves current updated t) (hsettled : current.Settled) :
    updated.Settled ∧ updated.capacityReservationIds = current.capacityReservationIds := by
  have hlegal := h.legal
  refine ⟨⟨?_, ?_⟩, h.bindings.resolve_right fun hbinds => hsettled.2 hbinds.1⟩
  · intro hstate
    rw [hstate] at hlegal
    exact ExecutionAttemptState.created_not_mem_transitions _ hlegal
  · intro hstate
    rw [hstate] at hlegal
    exact hsettled.1 (ExecutionAttemptState.eq_created_of_claimed_mem hlegal)

theorem AttemptChange.track (h : AttemptChange contentDigest s op s') (hleaves : op.LeavesHolds)
    (hbound : s.Bound) {attemptId : String} (ha : s.attempts.find? attemptId = some a)
    (hphase : s.InPhase a) :
    ∃ a', s'.attempts.find? attemptId = some a' ∧ s'.InPhase a' ∧
      (a.Settled → a'.Settled ∧ a'.capacityReservationIds = a.capacityReservationIds) := by
  have hkey := Table.key_of_find? ha
  cases h with
  | stay => exact ⟨a, ha, hphase, fun h => ⟨h, rfl⟩⟩
  | held reservation knownAvailable now hfree =>
    refine ⟨a, ha, hphase.congr (fun id hid => ?_) Iff.rfl, fun h => ⟨h, rfl⟩⟩
    obtain ⟨row, hrow, -⟩ := hbound a (Table.mem_of_find? ha) id hid
    rw [Table.find?_insert (x := reservation.opened) hfree, if_neg]
    rintro rfl
    cases hrow.symm.trans hfree
  | holdClaimed | holdReleased => exact hleaves.elim
  | created attempt now hfree _ =>
    refine ⟨a, ?_, hphase.congr (fun _ _ => rfl) Iff.rfl, fun h => ⟨h, rfl⟩⟩
    rw [Table.find?_insert hfree, if_neg, ha]
    rintro rfl
    cases ha.symm.trans hfree
  | moved _ current updated t reason _ hmoves hlink =>
    by_cases hself : attemptId = updated.attemptId
    · subst hself
      obtain rfl := Option.some.inj (hmoves.found.symm.trans ha)
      exact ⟨updated, AttemptStore.find?_setAttempt_self hmoves.found,
        hmoves.inPhase hphase hlink, hmoves.settled⟩
    · refine ⟨a, (AttemptStore.find?_setAttempt_ne hself).trans ha, hphase.congr ?_ ?_,
        fun h => ⟨h, rfl⟩⟩
      · intro id hid
        refine hmoves.leaves hbound hself ?_
        rw [← hkey]
        exact hbound a (Table.mem_of_find? ha) id hid
      · rw [AttemptStore.entered_insert hlink rfl]
        refine or_iff_left fun h => hself ?_
        rw [← hkey, ← h.1]
        exact hmoves.attemptId
  | put | review => exact ⟨a, ha, hphase.congr (fun _ _ => rfl) Iff.rfl, fun h => ⟨h, rfl⟩⟩

end Phases

/-! ## Runs -/

section Runs

variable {contentDigest : AssessmentValue → String} {s : AttemptStore} {a : ExecutionAttempt}

structure AttemptStore.HoldsInStep (s : AttemptStore) (a : ExecutionAttempt) : Prop where
  claimed : s.Entered a.attemptId → ¬ a.state.terminal → ∀ id ∈ a.capacityReservationIds,
    ∃ row, s.reservations.find? id = some row ∧ row.status = .claimed ∧ row.claimToken = a.ownerId
  released : a.state.terminal → ∀ id ∈ a.capacityReservationIds,
    ∃ row, s.reservations.find? id = some row ∧ row.status = .released
  exclusive : ∀ b ∈ s.attempts, b.attemptId ≠ a.attemptId →
    ∀ id ∈ a.capacityReservationIds, id ∉ b.capacityReservationIds
  unobstructed : ∀ updated : ExecutionAttempt, updated.state ∈ a.state.transitions →
    updated.state.terminal → updated.capacityReservationIds = a.capacityReservationIds →
    ∃ s', transitionAttemptCapacityLocked a updated s = .ok s'

theorem AttemptStore.InPhase.inStep (h : s.InPhase a) (hbound : s.Bound) (ha : a ∈ s.attempts) :
    s.HoldsInStep a where
  claimed hentered hterminal id hid := by
    obtain ⟨row, hrow, -⟩ := hbound a ha id hid
    obtain ⟨hstatus, htoken⟩ := h.holds id hid row hrow
    rw [holdStatus, if_neg hterminal, if_pos hentered] at hstatus
    exact ⟨row, hrow, hstatus, htoken hstatus⟩
  released hterminal id hid := by
    obtain ⟨row, hrow, -⟩ := hbound a ha id hid
    obtain ⟨hstatus, -⟩ := h.holds id hid row hrow
    rw [holdStatus, if_pos hterminal] at hstatus
    exact ⟨row, hrow, hstatus⟩
  exclusive b hb hne id hid hid' := hne ((hbound b hb id hid').unique (hbound a ha id hid))
  unobstructed updated hlegal hterminal hsame := by
    have hopen : ¬ a.state.terminal := by
      intro hended
      rw [ExecutionAttemptState.transitions_of_terminal hended] at hlegal
      exact List.not_mem_nil hlegal
    unfold transitionAttemptCapacityLocked
    simp only [bind_ok, raiseIf_ok, exists_const]
    have hholds : ∀ id ∈ updated.capacityReservationIds, ∃ row,
        s.reservations.find? id = some row ∧ row.executionId = a.attemptId ∧
          (row.status = .reserved ∨ row.status = .claimed) := by
      intro id hid
      rw [hsame] at hid
      obtain ⟨row, hrow, howner⟩ := hbound a ha id hid
      obtain ⟨hstatus, -⟩ := h.holds id hid row hrow
      rw [holdStatus, if_neg hopen] at hstatus
      refine ⟨row, hrow, howner, ?_⟩
      rw [hstatus]
      split
      · exact .inr rfl
      · exact .inl rfl
    obtain ⟨s', hs'⟩ := transitionHolds_of_terminal hterminal updated.capacity_nodup hholds
    exact ⟨s', fun hchanged => hchanged.1 hsame, hs'⟩

/-- The transactions of a run that leaves the holds to the attempts and binds own holds alone. -/
def AttemptOp.Orderly (s : AttemptStore) (op : AttemptOp) : Prop := op.LeavesHolds ∧ op.BindsOwn s

instance (s : AttemptStore) (op : AttemptOp) : Decidable (op.Orderly s) := by
  unfold AttemptOp.Orderly
  infer_instance

theorem AttemptStore.apply_bound {op : AttemptOp} (hop : op.Orderly s) (hs : s.Bound) :
    (s.apply contentDigest op).Bound :=
  AttemptStore.apply_induction contentDigest hs fun _ h =>
    (AttemptOp.exec_change h).bound hop.1 hop.2 hs

theorem AttemptStore.apply_unborn {op : AttemptOp} {attemptId : String} (hop : op.Orderly s)
    (hbound : s.Bound) (hs : s.Unborn attemptId) : (s.apply contentDigest op).Unborn attemptId :=
  AttemptStore.apply_induction contentDigest hs fun _ h =>
    (AttemptOp.exec_change h).unborn hop.1 hbound hs

/-- Before an attempt is created. -/
theorem unborn_run {ops : List AttemptOp} (attemptId : String)
    (hadm : Admissible (AttemptStore.apply contentDigest) (fun s op => op.Orderly s) .empty ops) :
    let s := run (AttemptStore.apply contentDigest) .empty ops
    s.Bound ∧ s.Unborn attemptId := by
  refine @run_invariant_of_admissible _ _ _ _
    (fun s : AttemptStore => s.Bound ∧ s.Unborn attemptId) ?_ _ _ ?_ hadm
  · intro s op hs hop
    exact ⟨AttemptStore.apply_bound hop hs.1, AttemptStore.apply_unborn hop hs.1 hs.2⟩
  · refine ⟨fun a ha => absurd ha Table.not_mem_empty, fun _ => ⟨fun id row hrow => ?_,
      fun link h => absurd h Table.not_mem_empty⟩⟩
    cases hrow

/-- After an attempt is created: it stays in phase with its holds, and keeps them once settled. -/
theorem track_run {attemptId : String} {ops : List AttemptOp}
    (hadm : Admissible (AttemptStore.apply contentDigest) (fun s op => op.Orderly s) s ops)
    (hbound : s.Bound) (ha : s.attempts.find? attemptId = some a) (hphase : s.InPhase a) :
    let s' := run (AttemptStore.apply contentDigest) s ops
    s'.Bound ∧ ∃ a', s'.attempts.find? attemptId = some a' ∧ s'.InPhase a' ∧
      (a.Settled → a'.capacityReservationIds = a.capacityReservationIds) := by
  induction ops generalizing s a with
  | nil => exact ⟨hbound, a, ha, hphase, fun _ => rfl⟩
  | cons op ops ih =>
    obtain ⟨hop, hrest⟩ := hadm
    have hstep : ∃ a', (s.apply contentDigest op).attempts.find? attemptId = some a' ∧
        (s.apply contentDigest op).InPhase a' ∧
        (a.Settled → a'.Settled ∧ a'.capacityReservationIds = a.capacityReservationIds) :=
      AttemptStore.apply_induction contentDigest
        (P := fun t => ∃ a', t.attempts.find? attemptId = some a' ∧ t.InPhase a' ∧
          (a.Settled → a'.Settled ∧ a'.capacityReservationIds = a.capacityReservationIds))
        ⟨a, ha, hphase, fun h => ⟨h, rfl⟩⟩
        fun _ h => (AttemptOp.exec_change h).track hop.1 hbound ha hphase
    obtain ⟨a₁, ha₁, hphase₁, hsettled₁⟩ := hstep
    obtain ⟨hbound', a₂, ha₂, hphase₂, hsame⟩ :=
      ih hrest (AttemptStore.apply_bound hop hbound) ha₁ hphase₁
    refine ⟨hbound', a₂, ha₂, hphase₂, fun h => ?_⟩
    rw [hsame (hsettled₁ h).1, (hsettled₁ h).2]

theorem created_run {attempt : ExecutionAttempt} {now : Int} {ops : List AttemptOp}
    {s' : AttemptStore} (hcreated : attempt.state = .created)
    (hadm : Admissible (AttemptStore.apply contentDigest) (fun s op => op.Orderly s) .empty
      (ops ++ [.create attempt now]))
    (hnew : (run (AttemptStore.apply contentDigest) .empty ops).attempts.find?
      attempt.attemptId = none)
    (hok : createExecutionAttempt attempt now (run (AttemptStore.apply contentDigest) .empty ops) =
      .ok (a, s')) :
    run (AttemptStore.apply contentDigest) .empty (ops ++ [.create attempt now]) = s' ∧
      s'.Bound ∧ s'.attempts.find? attempt.attemptId = some attempt ∧ s'.InPhase attempt := by
  obtain ⟨hbefore, hop, -⟩ := admissible_append.mp hadm
  obtain ⟨hbound, hunborn⟩ := unborn_run attempt.attemptId hbefore
  have hexec : (AttemptOp.create attempt now).exec contentDigest
      (run (AttemptStore.apply contentDigest) .empty ops) = .ok ((), s') :=
    AttemptM.drop_ok.mpr ⟨a, hok⟩
  have happly := AttemptStore.apply_ok contentDigest hexec
  have hbound' : (AttemptStore.apply contentDigest _ _).Bound := AttemptStore.apply_bound hop hbound
  rw [happly] at hbound'
  refine ⟨by rw [run_append]; exact happly, hbound', ?_⟩
  obtain ⟨-, hfound⟩ | ⟨-, -, -, rfl⟩ := createExecutionAttempt_ok hok
  · cases hnew.symm.trans hfound
  · refine ⟨Table.find?_insert_self hnew, hunborn.inPhase hnew hcreated fun id hid => ?_⟩
    obtain ⟨row, hrow, howner⟩ := (Option.any_eq_true ..).mp (hop.2 hnew id hid)
    exact ⟨row, hrow, of_decide_eq_true howner⟩

/-- In every run in which new attempts bind no holds but their own, the holds of an attempt created
in `CREATED` keep step with it, stay the same once it is settled, and a refused transition changes
nothing. -/
theorem holds_follow_attempt (contentDigest : AssessmentValue → String)
    (before after : List AttemptOp) (attempt : ExecutionAttempt) (now : Int)
    (hcreated : attempt.state = .created)
    (hadm : Admissible (AttemptStore.apply contentDigest) (fun s op => op.Orderly s) .empty
      (before ++ .create attempt now :: after))
    (hnew : (run (AttemptStore.apply contentDigest) .empty before).attempts.find?
      attempt.attemptId = none)
    (hok : ∃ s', createExecutionAttempt attempt now
      (run (AttemptStore.apply contentDigest) .empty before) = .ok (attempt, s')) :
    let s := run (AttemptStore.apply contentDigest) .empty (before ++ .create attempt now :: after)
    ∃ a, s.attempts.find? attempt.attemptId = some a ∧ s.HoldsInStep a ∧
      (∀ mid late, after = mid ++ late → ∀ a₁,
        (run (AttemptStore.apply contentDigest) .empty
          (before ++ .create attempt now :: mid)).attempts.find? attempt.attemptId = some a₁ →
        a₁.Settled → a.capacityReservationIds = a₁.capacityReservationIds) ∧
      ∀ call e, transitionExecutionAttempt call s = .error e →
        s.apply contentDigest (.transition call) = s := by
  intro s
  obtain ⟨s₁, hok⟩ := hok
  have hsplit : ∀ ops, before ++ .create attempt now :: ops =
      before ++ [.create attempt now] ++ ops := by simp
  rw [hsplit, admissible_append] at hadm
  obtain ⟨hrun, hbound, hattempt, hphase⟩ := created_run hcreated hadm.1 hnew hok
  rw [hrun] at hadm
  have htail : ∀ ops, run (AttemptStore.apply contentDigest) .empty
      (before ++ .create attempt now :: ops) = run (AttemptStore.apply contentDigest) s₁ ops := by
    intro ops
    rw [hsplit, run_append, hrun]
  obtain ⟨hbound', a, ha, hphase', -⟩ := track_run hadm.2 hbound hattempt hphase
  rw [← htail after] at hbound' ha hphase'
  refine ⟨a, ha, hphase'.inStep hbound' (Table.mem_of_find? ha), ?_, fun call e he => ?_⟩
  · rintro mid late rfl a₁ ha₁ hsettled
    obtain ⟨hmid, hlate⟩ := admissible_append.mp hadm.2
    obtain ⟨hbound₂, a₂, ha₂, hphase₂, -⟩ := track_run hmid hbound hattempt hphase
    rw [htail] at ha₁
    obtain rfl := Option.some.inj (ha₁.symm.trans ha₂)
    obtain ⟨-, a₃, ha₃, -, hsame⟩ := track_run hlate hbound₂ ha₂ hphase₂
    rw [← run_append, ← htail] at ha₃
    obtain rfl := Option.some.inj (ha.symm.trans ha₃)
    exact hsame hsettled
  · refine AttemptStore.apply_error contentDigest (e := e) ?_
    simp [AttemptOp.exec, AttemptM.drop, he, Except.map]

def readAttempt (name : String) (capacityReservationIds : List String)
    (hnodup : capacityReservationIds.Nodup) : ExecutionAttempt where
  taskScopeDigest := none
  attemptId := name
  decisionId := name
  preparedId := none
  actionDigest := "sha256:0000000000000000000000000000000000000000000000000000000000000003"
  executorId := "executor"
  executorFingerprint := "sha256:0000000000000000000000000000000000000000000000000000000000000002"
  sideEffect := .read
  idempotent := true
  ownerId := none
  leaseExpiresAt := none
  heartbeatAt := none
  version := 0
  state := .created
  externalAttemptDigest := none
  externalThreadDigest := none
  externalTurnDigest := none
  cashReservationIds := []
  capacityReservationIds := capacityReservationIds
  invocationStartDigest := none
  retryEligible := false
  recoveryReason := none
  terminalReceiptIds := []
  createdAt := 0
  updatedAt := 0
  valid := by simp [AttemptFields.fault, hnodup]

/-- A transition of an attempt at the start of time. -/
def AttemptCall.plain (attemptId : String) (expectedState : ExecutionAttemptState)
    (expectedVersion : Int) (targetState : ExecutionAttemptState) : AttemptCall where
  attemptId := attemptId
  expectedState := expectedState
  expectedVersion := expectedVersion
  targetState := targetState
  updatedAt := 0
  reason := none
  cashReservationIds := none
  capacityReservationIds := none
  invocationStartDigest := none
  externalAttemptDigest := none
  externalThreadDigest := none
  externalTurnDigest := none
  terminalReceiptIds := none

def invokeWithHold : List AttemptOp :=
  [.claim "attempt" "worker" 0 1, .reserveCapacity (turnHold "hold" "attempt" 10) (some 1) 0,
    .transition { AttemptCall.plain "attempt" .claimed 1 .reserved with
      capacityReservationIds := some ["hold"] },
    .transition { AttemptCall.plain "attempt" .reserved 2 .invoking with
      invocationStartDigest :=
        some "sha256:0000000000000000000000000000000000000000000000000000000000000004" }]

/-- An attempt invoked with a hold, and a stale transition. -/
theorem holds_follow_attempt_invoked :
    let s := run (AttemptStore.apply fun _ => "") .empty
      ([] ++ .create (readAttempt "attempt" [] .nil) 0 ::
        (invokeWithHold ++ [.transition (.plain "attempt" .reserved 2 .failed)]))
    ∃ a, s.attempts.find? "attempt" = some a ∧ s.HoldsInStep a :=
  let ⟨a, ha, hstep, _⟩ := holds_follow_attempt (fun _ => "") []
    (invokeWithHold ++ [.transition (.plain "attempt" .reserved 2 .failed)])
    (readAttempt "attempt" [] .nil) 0 rfl (by decide +kernel) (by decide +kernel) ⟨_, rfl⟩
  ⟨a, ha, hstep⟩

/-- An attempt created with the hold of another one: the hold is bound twice, and the second attempt
cannot end. -/
theorem holds_bound_at_creation :
    let ops : List AttemptOp := .create (readAttempt "attempt" [] .nil) 0 :: invokeWithHold ++
      [.create (readAttempt "second" ["hold"] (by decide)) 0, .claim "second" "other" 0 1]
    let s := run (AttemptStore.apply fun _ => "") .empty ops
    (∀ op ∈ ops, op.LeavesHolds) ∧
    (∃ a ∈ s.attempts.rows, ∃ b ∈ s.attempts.rows, a.attemptId ≠ b.attemptId ∧
      "hold" ∈ a.capacityReservationIds ∧ "hold" ∈ b.capacityReservationIds) ∧
    .cancelled ∈ ExecutionAttemptState.transitions .claimed ∧
    (transitionExecutionAttempt (.plain "second" .claimed 1 .cancelled) s).map (fun _ => ()) =
      .error (.configuration "capacity reservation does not belong to execution attempt") := by
  decide +kernel

end Runs

end AeepRouter

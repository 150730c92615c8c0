import AeepRouter.Attempt.Machine

/-!
# What one transaction on attempts can do

`AttemptChange s op s'` lists the ways a successful transaction changes the tables, each with what
its code checked. A claim and a transition of an attempt are one case, `moved`: the attempt is
replaced by a legal update, and the holds the update binds follow it (`moveHold`).
-/

namespace AeepRouter

open Lib

def moveHold (current updated : ExecutionAttempt) (row : CapacityReservation) :
    CapacityReservation :=
  if updated.state = .invoking then
    CapacityReservation.claim current.ownerId updated.updatedAt row
  else if updated.state.terminal then CapacityReservation.release updated.updatedAt row
  else row

structure HoldsFollow (current updated : ExecutionAttempt) (ids : List String) (t t' : HoldTable) :
    Prop where
  moved : ∀ id ∈ ids, t'.find? id = (t.find? id).map (moveHold current updated)
  others : ∀ id, id ∉ ids → t'.find? id = t.find? id

structure AttemptStore.Moves (s : AttemptStore) (current updated : ExecutionAttempt) (t : HoldTable) :
    Prop where
  found : s.attempts.find? updated.attemptId = some current
  legal : updated.state ∈ current.state.transitions
  authority : updated.authority = current.authority
  owner : updated.ownerId = current.ownerId ∨ current.state = .created
  bindings : updated.capacityReservationIds = current.capacityReservationIds ∨
    current.Binds updated
  owned : current.Binds updated → ∀ id ∈ updated.capacityReservationIds,
    ∃ row, s.reservations.find? id = some row ∧ row.executionId = updated.attemptId ∧
      row.status = .reserved
  follow : HoldsFollow current updated updated.capacityReservationIds s.reservations t

inductive AttemptChange (contentDigest : AssessmentValue → String) (s : AttemptStore) :
    AttemptOp → AttemptStore → Prop where
  | stay (op : AttemptOp) : AttemptChange contentDigest s op s
  | held (reservation : CapacityReservation) (knownAvailable : Option ℚ) (now : Int) :
      s.reservations.find? reservation.reservationId = none →
      AttemptChange contentDigest s (.reserveCapacity reservation knownAvailable now)
        { s with reservations := s.reservations.insert reservation.opened }
  | holdClaimed (reservationId claimToken : String) (expectedVersion now : Int) (f : HoldRewrite) :
      AttemptChange contentDigest s (.claimCapacity reservationId claimToken expectedVersion now)
        (s.setHold reservationId f)
  | holdReleased (reservationId : String) (expectedVersion now : Int) (f : HoldRewrite) :
      AttemptChange contentDigest s (.releaseCapacity reservationId expectedVersion now)
        (s.setHold reservationId f)
  | created (attempt : ExecutionAttempt) (now : Int) :
      s.attempts.find? attempt.attemptId = none → s.requireTaskScope attempt now = .ok () →
      AttemptChange contentDigest s (.create attempt now)
        { s with attempts := s.attempts.insert attempt }
  | moved (op : AttemptOp) (current updated : ExecutionAttempt) (t : HoldTable)
      (reason : Option String) :
      (∀ attempt now, op ≠ .create attempt now) → s.Moves current updated t →
      s.transitions.find? (current.link updated reason).transitionId = none →
      AttemptChange contentDigest s op
        { s.setAttempt updated with
          reservations := t
          transitions := s.transitions.insert (current.link updated reason) }
  | put (kind identity : String) (value : AssessmentValue) :
      (∀ record ∈ s.definitions.records, record.key = (kind, identity) →
        record.digest = contentDigest value) →
      AttemptChange contentDigest s (.put kind identity value)
        { s with definitions :=
            s.definitions.insertOrIgnore ⟨kind, identity, contentDigest value, value⟩ }
  | review (digest : String) (revoke : Bool) (now : Int) :
      AttemptChange contentDigest s (.review digest revoke now)
        { s with definitions := s.definitions.setReview ⟨digest, now, revoke⟩ }

namespace AttemptStore.Moves

variable {s : AttemptStore} {current updated : ExecutionAttempt} {t : HoldTable}

theorem attemptId (h : s.Moves current updated t) : current.attemptId = updated.attemptId := by
  have hkey := Table.key_of_find? h.found
  exact hkey

theorem not_terminal (h : s.Moves current updated t) : ¬ current.state.terminal := by
  intro hterminal
  have hlegal := h.legal
  rw [ExecutionAttemptState.transitions_of_terminal hterminal] at hlegal
  exact List.not_mem_nil hlegal

end AttemptStore.Moves

theorem AttemptStore.find?_setAttempt_self {s : AttemptStore} {current updated : ExecutionAttempt}
    (h : s.attempts.find? updated.attemptId = some current) :
    (s.setAttempt updated).attempts.find? updated.attemptId = some updated := by
  have hkey := Table.key_of_find? h
  unfold setAttempt
  rw [Table.find?_modify_self h]
  exact congrArg some (if_pos hkey.symm)

theorem AttemptStore.find?_setAttempt_ne {s : AttemptStore} {updated : ExecutionAttempt}
    {attemptId : String} (h : attemptId ≠ updated.attemptId) :
    (s.setAttempt updated).attempts.find? attemptId = s.attempts.find? attemptId :=
  Table.find?_modify_ne h

@[simp] theorem moveHold_executionId (current updated : ExecutionAttempt)
    (row : CapacityReservation) :
    (moveHold current updated row).executionId = row.executionId := by
  unfold moveHold
  split
  · rfl
  · split <;> rfl

/-! ## The holds of a transition -/

section Holds

variable {s s' : AttemptStore} {current updated : ExecutionAttempt} {ids : List String}

theorem transitionHold_follow {id : String}
    (h : transitionHold current updated s id = .ok s') :
    s' = { s with reservations := s'.reservations } ∧
      (∃ row, s.reservations.find? id = some row ∧ row.executionId = current.attemptId ∧
        (updated.state = .reserved ∨ updated.state = .invoking → row.Open updated.updatedAt)) ∧
      HoldsFollow current updated [id] s.reservations s'.reservations := by
  obtain ⟨row, hrow, howner, hopen, hcase⟩ := transitionHold_ok h
  have hmodify : ∀ f : HoldRewrite, f row = moveHold current updated row →
      HoldsFollow current updated [id] s.reservations (s.setHold id f).reservations := by
    intro f hf
    constructor
    · intro id' hid
      obtain rfl := List.mem_singleton.mp hid
      rw [AttemptStore.setHold_reservations, Table.find?_modify_self hrow, hrow, Option.map_some, hf]
    · intro id' hid
      exact Table.find?_modify_ne fun heq => hid (List.mem_singleton.mpr heq)
  obtain ⟨rfl, hinvoking, hterminal⟩ |
    ⟨f, -, rfl, ⟨hinvoking, rfl⟩ | ⟨hterminal, rfl⟩⟩ := hcase
  · refine ⟨rfl, ⟨row, hrow, howner, hopen⟩, fun id' hid => ?_, fun _ _ => rfl⟩
    obtain rfl := List.mem_singleton.mp hid
    simp [hrow, moveHold, hinvoking, hterminal]
  · refine ⟨rfl, ⟨row, hrow, howner, hopen⟩, hmodify _ ?_⟩
    simp [moveHold, hinvoking]
  · have hinvoking : updated.state ≠ .invoking := by
      intro h
      rw [h] at hterminal
      cases hterminal
    refine ⟨rfl, ⟨row, hrow, howner, hopen⟩, hmodify _ ?_⟩
    simp [moveHold, hinvoking, hterminal]

/-- The whole loop moves every hold the update binds, each once. -/
theorem transitionHolds_follow (hnodup : ids.Nodup)
    (h : ids.foldlM (transitionHold current updated) s = .ok s') :
    s' = { s with reservations := s'.reservations } ∧
      (∀ id ∈ ids, ∃ row, s.reservations.find? id = some row ∧
        row.executionId = current.attemptId ∧
        (updated.state = .reserved ∨ updated.state = .invoking → row.Open updated.updatedAt)) ∧
      HoldsFollow current updated ids s.reservations s'.reservations := by
  induction ids generalizing s with
  | nil =>
    rw [List.foldlM_nil, pure_ok] at h
    subst h
    exact ⟨rfl, fun _ h => absurd h List.not_mem_nil, fun _ h => absurd h List.not_mem_nil,
      fun _ _ => rfl⟩
  | cons id ids ih =>
    rw [List.foldlM_cons, bind_ok] at h
    obtain ⟨t, ht, h⟩ := h
    rw [List.nodup_cons] at hnodup
    obtain ⟨htables, hhead, hfollow⟩ := transitionHold_follow ht
    obtain ⟨htables', htail, hfollow'⟩ := ih hnodup.2 h
    have hsame : ∀ id' ∈ ids, t.reservations.find? id' = s.reservations.find? id' := by
      intro id' hid
      refine hfollow.others id' fun heq => hnodup.1 ?_
      rwa [← List.mem_singleton.mp heq]
    refine ⟨?_, ?_, ?_, ?_⟩
    · rw [htables', htables]
    · intro id' hid
      rcases List.mem_cons.mp hid with rfl | hid
      · exact hhead
      · rw [← hsame id' hid]
        exact htail id' hid
    · intro id' hid
      rcases List.mem_cons.mp hid with rfl | hid
      · rw [hfollow'.others id' hnodup.1]
        exact hfollow.moved id' (List.mem_singleton_self id')
      · rw [hfollow'.moved id' hid, hsame id' hid]
    · intro id' hid
      rw [List.mem_cons, not_or] at hid
      rw [hfollow'.others id' hid.2]
      exact hfollow.others id' fun heq => hid.1 (List.mem_singleton.mp heq)

theorem transitionHolds_of_terminal (hterminal : updated.state.terminal) (hnodup : ids.Nodup)
    (hids : ∀ id ∈ ids, ∃ row, s.reservations.find? id = some row ∧
      row.executionId = current.attemptId ∧ (row.status = .reserved ∨ row.status = .claimed)) :
    ∃ s', ids.foldlM (transitionHold current updated) s = .ok s' := by
  induction ids generalizing s with
  | nil => exact ⟨s, rfl⟩
  | cons id ids ih =>
    rw [List.nodup_cons] at hnodup
    obtain ⟨row, hrow, howner, hstatus⟩ := hids id List.mem_cons_self
    have hstep : transitionHold current updated s id =
        .ok (s.setHold id (CapacityReservation.release updated.updatedAt)) := by
      have hstate : ¬ (updated.state = .reserved ∨ updated.state = .invoking) := by
        rintro (h | h) <;> rw [h] at hterminal <;> cases hterminal
      have hopen : ¬ (row.status ≠ .reserved ∧ row.status ≠ .claimed) :=
        not_and_or.mpr (hstatus.imp not_not.mpr not_not.mpr)
      simp only [transitionHold, bind_ok, require_ok, raiseIf_ok, exists_const,
        Option.filter_eq_some_iff, decide_eq_true_eq]
      refine ⟨row, ⟨hrow, howner⟩, fun h => hstate h.1, ?_⟩
      rw [if_neg fun h => hstate (.inr h), if_pos hterminal]
      simp only [bind_ok, raiseIf_ok, exists_const, pure_ok]
      exact ⟨hopen, trivial⟩
    have hrest : ∀ id' ∈ ids, ∃ row,
        (s.setHold id (CapacityReservation.release updated.updatedAt)).reservations.find? id' =
            some row ∧
          row.executionId = current.attemptId ∧
          (row.status = .reserved ∨ row.status = .claimed) := by
      intro id' hid
      have hne : id' ≠ id := by
        rintro rfl
        exact hnodup.1 hid
      rw [AttemptStore.setHold_reservations, Table.find?_modify_ne hne]
      exact hids id' (List.mem_cons_of_mem id hid)
    rw [List.foldlM_cons, hstep]
    exact ih hnodup.2 hrest

end Holds

/-! ## Transactions -/

section Transactions

variable {contentDigest : AssessmentValue → String} {s s' : AttemptStore} {op : AttemptOp}

theorem AttemptOp.exec_change (h : op.exec contentDigest s = .ok ((), s')) :
    AttemptChange contentDigest s op s' := by
  cases op with
  | reserveCapacity reservation knownAvailable now =>
    obtain ⟨r, h⟩ := AttemptM.drop_ok.mp h
    obtain rfl | ⟨-, -, hfree, rfl⟩ := reserveCapacity_ok h
    · exact .stay _
    · exact .held reservation knownAvailable now hfree
  | claimCapacity reservationId claimToken expectedVersion now =>
    obtain ⟨r, h⟩ := AttemptM.drop_ok.mp h
    obtain rfl | ⟨row, f, -, -, rfl⟩ := claimCapacityReservation_ok h
    · exact .stay _
    · exact .holdClaimed reservationId claimToken expectedVersion now f
  | releaseCapacity reservationId expectedVersion now =>
    obtain ⟨r, h⟩ := AttemptM.drop_ok.mp h
    obtain rfl | ⟨row, f, -, -, rfl⟩ := releaseCapacityReservation_ok h
    · exact .stay _
    · exact .holdReleased reservationId expectedVersion now f
  | create attempt now =>
    obtain ⟨a, h⟩ := AttemptM.drop_ok.mp h
    obtain ⟨rfl, -⟩ | ⟨hfree, hscope, -, rfl⟩ := createExecutionAttempt_ok h
    · exact .stay _
    · exact .created attempt now hfree hscope
  | claim attemptId ownerId claimedAt leaseExpiresAt =>
    obtain ⟨updated, h⟩ := AttemptM.drop_ok.mp h
    obtain rfl | ⟨current, hcurrent, hstate, hfields, hsave⟩ := claimExecutionAttempt_ok h
    · exact .stay _
    · obtain ⟨hfree, rfl⟩ := saveAttemptUpdateLocked_ok hsave
      have hkey := Table.key_of_find? hcurrent
      have hclaimed : updated.state = .claimed := by rw [hfields]; rfl
      have hid : updated.attemptId = attemptId := by
        rw [hfields]
        exact hkey
      have hbindings : updated.capacityReservationIds = current.capacityReservationIds := by
        rw [hfields]
        rfl
      refine .moved _ current updated s.reservations _ (fun _ _ => nofun)
        { found := by rw [hid, hcurrent]
          legal := by rw [hclaimed, hstate]; decide
          authority := by rw [hfields]; rfl
          owner := .inr hstate
          bindings := .inl hbindings
          owned := fun hbinds => by rw [hbinds.1] at hstate; cases hstate
          follow := ⟨fun id _ => ?_, fun _ _ => rfl⟩ } hfree
      have hkeep : moveHold current updated = fun row => row := by
        funext row
        simp [moveHold, hclaimed, ExecutionAttemptState.terminal]
      rw [hkeep, Option.map_id']
  | transition call =>
    obtain ⟨updated, h⟩ := AttemptM.drop_ok.mp h
    obtain ⟨current, s₁, hcurrent, hlegal, hfields, hholds, hsave⟩ :=
      transitionExecutionAttempt_ok h
    obtain ⟨hbindings, hloop⟩ := transitionAttemptCapacityLocked_ok hholds
    obtain ⟨htables, hheld, hfollow⟩ := transitionHolds_follow updated.capacity_nodup hloop
    obtain ⟨hfree, rfl⟩ := saveAttemptUpdateLocked_ok hsave
    have hkey := Table.key_of_find? hcurrent
    have hid : updated.attemptId = call.attemptId := by
      rw [hfields]
      exact hkey
    rw [htables] at hfree ⊢
    refine .moved _ current updated s₁.reservations call.reason (fun _ _ => nofun)
      { found := by rw [hid, hcurrent]
        legal := by rw [hfields]; exact hlegal
        authority := by rw [hfields]; rfl
        owner := .inl (by rw [hfields]; rfl)
        bindings := hbindings
        owned := fun hbinds id hid => ?_
        follow := hfollow } hfree
    obtain ⟨row, hrow, howner, hopen⟩ := hheld id hid
    refine ⟨row, hrow, ?_, (hopen (.inl hbinds.2.1)).1⟩
    rw [howner, hfields]
    rfl
  | put kind identity value =>
    rw [exec, AttemptM.onDefinitions_ok] at h
    obtain ⟨d, h, rfl⟩ := h
    obtain ⟨⟨digest, d'⟩, hput, rfl⟩ := map_ok.mp h
    obtain ⟨rfl, hsame, rfl⟩ := Definitions.put_ok hput
    exact .put kind identity value hsame
  | review digest revoke now =>
    rw [exec, AttemptM.onDefinitions_ok] at h
    obtain ⟨d, h, rfl⟩ := h
    simp only [Definitions.review, bind_ok, raiseIf_ok, exists_const, pure_ok] at h
    obtain ⟨-, rfl⟩ := h
    exact .review digest revoke now

end Transactions

end AeepRouter

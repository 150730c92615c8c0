import AeepRouter.Attempt.Machine
import AeepRouter.Lib.Clock

/-!
# Capacity is never oversold

The holds counted against a resource are those that are claimed, and those that are reserved and not
expired. The sum is checked only when a hold is made; every later move of a hold, whichever code
makes it, keeps the sum or lowers it, and a hold that is out of the sum never comes back.
-/

namespace AeepRouter

open Lib

/-- The instant a transaction judges holds by. -/
def AttemptOp.time : AttemptOp → Option Int
  | reserveCapacity _ _ now | claimCapacity _ _ _ now | releaseCapacity _ _ now => some now
  | transition call => some call.updatedAt
  | create .. | claim .. | put .. | review .. => none

/-- The transaction runs at an instant. -/
def AttemptOp.Dated (now : Int) (op : AttemptOp) : Prop := ∀ t ∈ op.time, t = now

instance (now : Int) (op : AttemptOp) : Decidable (op.Dated now) := by
  unfold AttemptOp.Dated
  infer_instance

/-- Reservations of a resource and unit are made against one known capacity. -/
def AttemptOp.Offers (resourceId unit : String) (available : ℚ) : AttemptOp → Prop
  | reserveCapacity reservation knownAvailable _ =>
    reservation.resourceId = resourceId → reservation.unit = unit → knownAvailable = some available
  | _ => True

instance (resourceId unit : String) (available : ℚ) (op : AttemptOp) :
    Decidable (op.Offers resourceId unit available) := by
  cases op <;> unfold AttemptOp.Offers <;> infer_instance

section Moves

variable {t t' : HoldTable} {row : CapacityReservation} {f : HoldRewrite} {now at' later : Int}
  {reservationId resourceId unit : String}

theorem CapacityReservation.Live.of_later (hle : now ≤ later) (h : row.Live later) : row.Live now :=
  h.imp_left fun h => ⟨h.1, lt_of_le_of_lt hle h.2⟩

theorem CapacityReservation.Open.live (hle : now ≤ at') (h : row.Open at') : row.Live now :=
  .inl ⟨h.1, lt_of_le_of_lt hle h.2⟩

theorem CapacityReservation.not_live_release (now at' : Int) (row : CapacityReservation) :
    ¬ (CapacityReservation.release at' row).Live now := by
  rintro (⟨h, -⟩ | h) <;> cases h

/-- A hold moved at an instant that is not before now. -/
inductive HoldStep (now : Int) (t : HoldTable) : HoldTable → Prop where
  | moved (reservationId : String) (row : CapacityReservation) (f : HoldRewrite) (at' : Int) :
      now ≤ at' → t.find? reservationId = some row → HoldMove at' row f →
      HoldStep now t (t.modify reservationId f)

/-- A sequence of moves. -/
abbrev HoldSteps (now : Int) : HoldTable → HoldTable → Prop := Relation.ReflTransGen (HoldStep now)

/-- A move never adds to what is counted. -/
theorem HoldStep.occupied_le (h : HoldStep now t t') (resourceId unit : String) :
    (occupied t' resourceId unit now).sum ≤ (occupied t resourceId unit now).sum := by
  obtain ⟨reservationId, row, f, at', hle, hrow, hmove⟩ := h
  unfold occupied
  rw [Table.sum_select, Table.sum_select]
  set w : CapacityReservation → ℚ := fun row =>
    if row.resourceId = resourceId ∧ row.unit = unit ∧ row.Live now then row.maximumQuantity else 0
  have hw : w (f row) ≤ w row := by
    cases hmove with
    | claim token hopen =>
      have hlive : (CapacityReservation.claim token at' row).Live now := .inr rfl
      have hrow : row.Live now := hopen.live hle
      show (if row.resourceId = resourceId ∧ row.unit = unit ∧ _ then row.maximumQuantity else 0) ≤
        if row.resourceId = resourceId ∧ row.unit = unit ∧ _ then row.maximumQuantity else 0
      simp only [hlive, hrow, le_refl]
    | release _ =>
      have h0 : w (CapacityReservation.release at' row) = 0 :=
        if_neg fun h => row.not_live_release now at' h.2.2
      rw [h0]
      show 0 ≤ if _ then row.maximumQuantity else 0
      split
      · exact row.nonneg
      · exact le_rfl
  have htrade := Table.sumBy_modify hrow f w
  linarith

/-- A hold that is not counted is not counted after a move. -/
theorem HoldStep.dead (h : HoldStep now t t')
    (hdead : ∃ row, t.find? reservationId = some row ∧ ¬ row.Live now) :
    ∃ row, t'.find? reservationId = some row ∧ ¬ row.Live now := by
  obtain ⟨row, hrow, hdead⟩ := hdead
  obtain ⟨moved, row', f, at', hle, hrow', hmove⟩ := h
  by_cases hid : reservationId = moved
  · subst hid
    obtain rfl : row = row' := Option.some.inj (hrow.symm.trans hrow')
    refine ⟨f row, Table.find?_modify_self hrow, ?_⟩
    cases hmove with
    | claim token hopen => exact absurd (hopen.live hle) hdead
    | release _ => exact row.not_live_release now at'
  · exact ⟨row, (Table.find?_modify_ne hid).trans hrow, hdead⟩

end Moves

/-! ## Transactions -/

section Transactions

variable {s s' : AttemptStore} {current updated : ExecutionAttempt} {now : Int}

theorem transitionAttemptCapacityLocked_steps (hle : now ≤ updated.updatedAt)
    (h : transitionAttemptCapacityLocked current updated s = .ok s') :
    HoldSteps now s.reservations s'.reservations := by
  obtain ⟨-, h⟩ := transitionAttemptCapacityLocked_ok h
  refine foldlM_invariant (P := fun t => HoldSteps now s.reservations t.reservations) ?_ .refl h
  intro t id t' ht hstep
  obtain ⟨row, hrow, -, -, ⟨rfl, -⟩ | ⟨f, hmove, rfl, -⟩⟩ := transitionHold_ok hstep
  · exact ht
  · exact ht.tail ⟨id, row, f, _, hle, hrow, hmove⟩

/-- What a transaction does to the holds: it makes one that fits, or moves some. -/
theorem AttemptOp.exec_holds {contentDigest : AssessmentValue → String} {op : AttemptOp}
    (hdated : op.Dated now) (h : op.exec contentDigest s = .ok ((), s')) :
    (∃ reservation knownAvailable, op = .reserveCapacity reservation knownAvailable now ∧
      now < reservation.expiresAt ∧
      (∀ available ∈ knownAvailable,
        (occupied s.reservations reservation.resourceId reservation.unit now).sum +
          reservation.maximumQuantity ≤ available) ∧
      s.reservations.find? reservation.reservationId = none ∧
      s'.reservations = s.reservations.insert reservation.opened) ∨
    HoldSteps now s.reservations s'.reservations := by
  cases op with
  | reserveCapacity reservation knownAvailable at' =>
    obtain rfl : at' = now := hdated at' rfl
    obtain ⟨r, h⟩ := AttemptM.drop_ok.mp h
    obtain rfl | ⟨hexpires, hfits, hfree, rfl⟩ := reserveCapacity_ok h
    · exact .inr .refl
    · exact .inl ⟨reservation, knownAvailable, rfl, hexpires, hfits, hfree, rfl⟩
  | claimCapacity reservationId claimToken expectedVersion at' =>
    obtain rfl : at' = now := hdated at' rfl
    obtain ⟨r, h⟩ := AttemptM.drop_ok.mp h
    obtain rfl | ⟨row, f, hrow, hmove, rfl⟩ := claimCapacityReservation_ok h
    · exact .inr .refl
    · exact .inr (.single ⟨reservationId, row, f, at', le_rfl, hrow, hmove⟩)
  | releaseCapacity reservationId expectedVersion at' =>
    obtain rfl : at' = now := hdated at' rfl
    obtain ⟨r, h⟩ := AttemptM.drop_ok.mp h
    obtain rfl | ⟨row, f, hrow, hmove, rfl⟩ := releaseCapacityReservation_ok h
    · exact .inr .refl
    · exact .inr (.single ⟨reservationId, row, f, at', le_rfl, hrow, hmove⟩)
  | create attempt at' =>
    obtain ⟨a, h⟩ := AttemptM.drop_ok.mp h
    obtain ⟨rfl, -⟩ | ⟨-, -, -, rfl⟩ := createExecutionAttempt_ok h <;> exact .inr .refl
  | claim attemptId ownerId claimedAt leaseExpiresAt =>
    obtain ⟨a, h⟩ := AttemptM.drop_ok.mp h
    obtain rfl | ⟨current, -, -, -, hsave⟩ := claimExecutionAttempt_ok h
    · exact .inr .refl
    · obtain ⟨-, rfl⟩ := saveAttemptUpdateLocked_ok hsave
      exact .inr .refl
  | transition call =>
    obtain rfl : call.updatedAt = now := hdated _ rfl
    obtain ⟨a, h⟩ := AttemptM.drop_ok.mp h
    obtain ⟨current, s₁, -, -, hfields, hholds, hsave⟩ := transitionExecutionAttempt_ok h
    have hle : call.updatedAt ≤ a.updatedAt := by
      rw [hfields]
      exact le_max_right _ _
    have hsteps := transitionAttemptCapacityLocked_steps hle hholds
    obtain ⟨-, rfl⟩ := saveAttemptUpdateLocked_ok hsave
    exact .inr hsteps
  | put kind identity value =>
    rw [exec, AttemptM.onDefinitions_ok] at h
    obtain ⟨d, -, rfl⟩ := h
    exact .inr .refl
  | review digest revoke at' =>
    rw [exec, AttemptM.onDefinitions_ok] at h
    obtain ⟨d, -, rfl⟩ := h
    exact .inr .refl

end Transactions

/-! ## Runs -/

section Runs

variable {contentDigest : AssessmentValue → String} {s : AttemptStore} {op : AttemptOp}
  {resourceId unit reservationId : String} {available : ℚ} {now later : Int}

theorem HoldSteps.occupied_le {t t' : HoldTable} (h : HoldSteps now t t')
    (resourceId unit : String) :
    (occupied t' resourceId unit now).sum ≤ (occupied t resourceId unit now).sum := by
  induction h with
  | refl => exact le_rfl
  | tail _ hstep ih => exact (hstep.occupied_le resourceId unit).trans ih

theorem occupied_insert_le {t : HoldTable} {reservation : CapacityReservation}
    (hfree : t.find? reservation.reservationId = none)
    (ht : (occupied t resourceId unit now).sum ≤ available)
    (hfits : reservation.resourceId = resourceId → reservation.unit = unit →
      (occupied t resourceId unit now).sum + reservation.maximumQuantity ≤ available) :
    (occupied (t.insert reservation.opened) resourceId unit now).sum ≤ available := by
  unfold occupied at *
  rw [Table.select_insert (x := reservation.opened) hfree, List.sum_append]
  split
  · next hcounted =>
    rw [List.sum_singleton]
    exact hfits hcounted.1 hcounted.2.1
  · rw [List.sum_nil, add_zero]
    exact ht

/-- What is counted against a resource and unit is within the capacity. -/
def AttemptStore.Within (resourceId unit : String) (available : ℚ) (now : Int) (s : AttemptStore) :
    Prop :=
  (occupied s.reservations resourceId unit now).sum ≤ available

/-- Every transaction that runs now keeps the sum within the capacity. -/
theorem AttemptStore.apply_within (hdated : op.Dated now)
    (hoffers : op.Offers resourceId unit available) (hs : AttemptStore.Within resourceId unit available now s) :
    AttemptStore.Within resourceId unit available now (s.apply contentDigest op) := by
  refine AttemptStore.apply_induction contentDigest
    (P := AttemptStore.Within resourceId unit available now) hs fun s' h => ?_
  unfold AttemptStore.Within
  obtain ⟨reservation, known, rfl, -, hfits, hfree, hrows⟩ | hsteps := op.exec_holds hdated h
  · rw [hrows]
    refine occupied_insert_le hfree hs fun hresource hunit => ?_
    have hknown := hfits available (hoffers hresource hunit)
    rwa [hresource, hunit] at hknown
  · exact (hsteps.occupied_le resourceId unit).trans hs

/-- Time alone lowers the sum. -/
theorem occupied_le_of_later {t : HoldTable} (hle : now ≤ later) (resourceId unit : String) :
    (occupied t resourceId unit later).sum ≤ (occupied t resourceId unit now).sum :=
  Table.sum_select_le (fun _ _ h => ⟨h.1, h.2.1, h.2.2.of_later hle⟩) fun row _ => row.nonneg

/-- A hold that exists and is not counted. -/
def HoldTable.Dead (t : HoldTable) (reservationId : String) (now : Int) : Prop :=
  ∃ row, t.find? reservationId = some row ∧ ¬ row.Live now

theorem HoldTable.Dead.of_later {t : HoldTable} (hle : now ≤ later) (h : t.Dead reservationId now) :
    t.Dead reservationId later := by
  obtain ⟨row, hrow, hdead⟩ := h
  exact ⟨row, hrow, fun hlive => hdead (hlive.of_later hle)⟩

theorem HoldSteps.dead {t t' : HoldTable} (h : HoldSteps now t t') (ht : t.Dead reservationId now) :
    t'.Dead reservationId now := by
  induction h with
  | refl => exact ht
  | tail _ hstep ih => exact hstep.dead ih

/-- No transaction that runs now brings a hold back. -/
theorem AttemptStore.apply_dead (hdated : op.Dated now) (hs : s.reservations.Dead reservationId now) :
    (s.apply contentDigest op).reservations.Dead reservationId now := by
  refine AttemptStore.apply_induction contentDigest
    (P := fun s => s.reservations.Dead reservationId now) hs fun s' h => ?_
  obtain ⟨reservation, known, -, -, -, hfree, hrows⟩ | hsteps := op.exec_holds hdated h
  · obtain ⟨row, hrow, hdead⟩ := hs
    have hne : reservationId ≠ reservation.opened.reservationId := by
      rintro rfl
      cases hrow.symm.trans hfree
    refine ⟨row, ?_, hdead⟩
    rw [hrows, Table.find?_insert (x := reservation.opened) hfree, if_neg hne, hrow]
  · exact hsteps.dead hs

/-- Under a clock that does not go back, the holds of a resource and unit that are claimed, or
reserved and not expired, never add up to more than the capacity reservations are made against; and
a hold that has expired unclaimed is never counted or claimed again. -/
theorem capacity_within_available (contentDigest : AssessmentValue → String)
    (resourceId unit : String) (available : ℚ) (havailable : 0 ≤ available) (start : Int)
    (events : List (TimedEvent AttemptOp))
    (hadm : Admissible (Timed.step (AttemptStore.apply contentDigest))
      (Timed.Meets fun now _ op => op.Dated now ∧ op.Offers resourceId unit available)
      ⟨start, .empty⟩ events) :
    let c := run (Timed.step (AttemptStore.apply contentDigest)) ⟨start, .empty⟩ events
    (occupied c.state.reservations resourceId unit c.now).sum ≤ available ∧
      ∀ before after, events = before ++ after →
        let b := run (Timed.step (AttemptStore.apply contentDigest)) ⟨start, .empty⟩ before
        ∀ row ∈ b.state.reservations, row.status ≠ .claimed → row.expiresAt ≤ b.now →
          ∃ row', c.state.reservations.find? row.reservationId = some row' ∧
            row'.status ≠ .claimed ∧ ¬ row'.Live c.now := by
  constructor
  · refine Timed.run_invariant (AttemptStore.Within resourceId unit available) ?_ ?_ hadm
      havailable
    · intro now later s hle hs
      exact (occupied_le_of_later hle resourceId unit).trans hs
    · intro now s op hs hop
      exact AttemptStore.apply_within hop.1 hop.2 hs
  · rintro before after rfl b row hrow hstatus hexpired
    obtain ⟨-, hafter⟩ := admissible_append.mp hadm
    have hdead : b.state.reservations.Dead row.reservationId b.now := by
      refine ⟨row, Table.find?_of_mem hrow, ?_⟩
      rintro (⟨-, hlive⟩ | hclaimed)
      · exact absurd hexpired (not_le.mpr hlive)
      · exact hstatus hclaimed
    rw [run_append]
    obtain ⟨row', hrow', hdead'⟩ := Timed.run_invariant
      (fun now (s : AttemptStore) => s.reservations.Dead row.reservationId now)
      (fun now later s hle hs => hs.of_later hle)
      (fun now s op hs hop => AttemptStore.apply_dead hop.1 hs) hafter hdead
    exact ⟨row', hrow', fun h => hdead' (.inr h), hdead'⟩

def turnHold (name executionId : String) (expiresAt : Int) : CapacityReservation where
  reservationId := name
  resourceId := "pool"
  executionId := executionId
  maximumQuantity := 1
  unit := "turn"
  expiresAt := expiresAt
  status := .reserved
  idempotencyKey := name
  claimToken := none
  version := 0
  createdAt := 0
  updatedAt := 0
  nonneg := by norm_num

/-- A hold that expires, and a second one made and claimed in its place. -/
def turnHolds : List (TimedEvent AttemptOp) :=
  [.act (.reserveCapacity (turnHold "first" "attempt" 10) (some 1) 0), .elapse 10,
    .act (.reserveCapacity (turnHold "second" "attempt" 20) (some 1) 10),
    .act (.claimCapacity "second" "worker" 0 10), .act (.claimCapacity "first" "other" 0 10),
    .elapse 20]

theorem capacity_within_available_of_holds :
    let c := run (Timed.step (AttemptStore.apply fun _ => "")) ⟨0, .empty⟩ turnHolds
    (occupied c.state.reservations "pool" "turn" c.now).sum ≤ 1 ∧
      ∃ row, c.state.reservations.find? "first" = some row ∧ row.status ≠ .claimed ∧
        ¬ row.Live c.now := by
  obtain ⟨hsum, hdead⟩ := capacity_within_available (fun _ => "") "pool" "turn" 1 (by norm_num) 0
    turnHolds (by decide +kernel)
  exact ⟨hsum, hdead (turnHolds.take 2) (turnHolds.drop 2) rfl (turnHold "first" "attempt" 10)
    (by decide +kernel) (by decide) (by decide +kernel)⟩

end Runs

end AeepRouter

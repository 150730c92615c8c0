import AeepRouter.Attempt.Records

/-!
# Reserving, claiming and releasing capacity

`reserve_capacity` counts the live holds of a resource and unit against what is known to be
available; `claim_capacity_reservation` and `release_capacity_reservation` move one hold. An
`_ok` lemma says what a successful call found and did.
-/

namespace AeepRouter

open Lib

/-- A transaction on the attempt tables: an error, which rolls it back, or a result and the next
store. -/
abbrev AttemptM (α : Type) := AttemptStore → Result (α × AttemptStore)

/-- The quantities counted against a resource and unit at an instant. -/
def occupied (holds : HoldTable) (resourceId unit : String) (now : Int) : List ℚ :=
  holds.select (fun row => row.resourceId = resourceId ∧ row.unit = unit ∧ row.Live now)
    (·.maximumQuantity)

namespace AttemptStore

def setHold (s : AttemptStore) (reservationId : String) (f : HoldRewrite) :
    AttemptStore :=
  { s with reservations := s.reservations.modify reservationId f }

@[simp] theorem setHold_attempts (s : AttemptStore) (reservationId : String) (f : HoldRewrite) :
    (s.setHold reservationId f).attempts = s.attempts := rfl

@[simp] theorem setHold_transitions (s : AttemptStore) (reservationId : String) (f : HoldRewrite) :
    (s.setHold reservationId f).transitions = s.transitions := rfl

@[simp] theorem setHold_definitions (s : AttemptStore) (reservationId : String) (f : HoldRewrite) :
    (s.setHold reservationId f).definitions = s.definitions := rfl

@[simp] theorem setHold_reservations (s : AttemptStore) (reservationId : String) (f : HoldRewrite) :
    (s.setHold reservationId f).reservations = s.reservations.modify reservationId f := rfl

/-- Another hold has the claim token: `claim_token` is unique where it is set. -/
def TokenTaken (s : AttemptStore) (reservationId : String) (token : Option String) : Prop :=
  token.isSome ∧ ∃ row ∈ s.reservations.rows, row.reservationId ≠ reservationId ∧
    row.claimToken = token

instance (s : AttemptStore) (reservationId : String) (token : Option String) :
    Decidable (s.TokenTaken reservationId token) := by
  unfold TokenTaken
  infer_instance

/-- The hold made under an idempotency key, which is unique. -/
def holdOfKey? (s : AttemptStore) (idempotencyKey : String) : Option CapacityReservation :=
  s.reservations.rows.find? fun row => row.idempotencyKey = idempotencyKey

end AttemptStore

/-- `reserve_capacity`; `knownAvailable` is finite, as any other decimal is refused like a negative
one. -/
def reserveCapacity (reservation : CapacityReservation) (knownAvailable : Option ℚ) (now : Int) :
    AttemptM CapacityReservation := fun s => do
  refuseIf (reservation.expiresAt ≤ now) "capacity reservation is already expired"
  refuseIf (∃ available ∈ knownAvailable, available < 0)
    "known capacity must be finite and non-negative"
  refuseIf (reservation.maximumQuantity ≠ 0 ∧ knownAvailable = none)
    "unknown capacity cannot be reserved"
  match s.holdOfKey? reservation.idempotencyKey with
  | some stored =>
    refuseIf (stored.binding ≠ reservation.binding)
      "capacity reservation idempotency key was reused with different data"
    pure (stored, s)
  | none =>
    let held := (occupied s.reservations reservation.resourceId reservation.unit now).sum
    refuseIf (∃ available ∈ knownAvailable, available < held + reservation.maximumQuantity)
      "capacity reservation exceeds known available capacity"
    raiseIf (s.reservations.find? reservation.reservationId).isSome .integrity
    pure (reservation, { s with reservations := s.reservations.insert reservation.opened })

/-- `claim_capacity_reservation`. A hold found expired is marked so, and the exception raised next
rolls the mark back. -/
def claimCapacityReservation (reservationId claimToken : String) (expectedVersion now : Int) :
    AttemptM CapacityReservation := fun s => do
  let stored ← demand (s.reservations.find? reservationId) "capacity reservation does not exist"
  if stored.status = .claimed then
    refuseIf (stored.claimToken ≠ some claimToken)
      "capacity reservation is claimed by another worker"
    pure (stored, s)
  else
    refuseIf (stored.expiresAt ≤ now) "capacity reservation expired before claim"
    refuseIf (stored.status ≠ .reserved) ("cannot claim " ++ stored.status.text ++ " capacity")
    refuseIf ((stored.version : Int) ≠ expectedVersion)
      "capacity reservation compare-and-set failed"
    raiseIf (s.TokenTaken reservationId (some claimToken)) .integrity
    pure (CapacityReservation.claim (some claimToken) now stored,
      s.setHold reservationId (CapacityReservation.claim (some claimToken) now))

def releaseCapacityReservation (reservationId : String) (expectedVersion now : Int) :
    AttemptM CapacityReservation := fun s => do
  let stored ← demand (s.reservations.find? reservationId) "capacity reservation does not exist"
  if stored.status = .released then
    pure (stored, s)
  else
    refuseIf (stored.status ≠ .reserved ∧ stored.status ≠ .claimed)
      ("cannot release " ++ stored.status.text ++ " capacity")
    refuseIf ((stored.version : Int) ≠ expectedVersion)
      "capacity reservation compare-and-set failed"
    pure (CapacityReservation.release now stored, s.setHold reservationId (CapacityReservation.release now))

/-! ## What a successful call did -/

section Inversion

variable {s s' : AttemptStore} {now : Int}

def CapacityReservation.Open (hold : CapacityReservation) (now : Int) : Prop :=
  hold.status = .reserved ∧ now < hold.expiresAt

instance (hold : CapacityReservation) (now : Int) : Decidable (hold.Open now) := by
  unfold CapacityReservation.Open
  infer_instance

/-- The two ways a hold moves: an open one is claimed, a live or expired one is released. -/
inductive HoldMove (now : Int) (row : CapacityReservation) : HoldRewrite → Prop where
  | claim (token : Option String) : row.Open now →
      HoldMove now row (CapacityReservation.claim token now)
  | release : row.status = .reserved ∨ row.status = .claimed →
      HoldMove now row (CapacityReservation.release now)

theorem reserveCapacity_ok {reservation r : CapacityReservation} {knownAvailable : Option ℚ}
    (h : reserveCapacity reservation knownAvailable now s = .ok (r, s')) :
    s' = s ∨ now < reservation.expiresAt ∧
      (∀ available ∈ knownAvailable,
        (occupied s.reservations reservation.resourceId reservation.unit now).sum + reservation.maximumQuantity ≤
          available) ∧
      s.reservations.find? reservation.reservationId = none ∧
      s' = { s with reservations := s.reservations.insert reservation.opened } := by
  unfold reserveCapacity at h
  simp only [bind_ok, raiseIf_ok, exists_const] at h
  obtain ⟨hexpires, -, -, h⟩ := h
  split at h
  · simp only [bind_ok, raiseIf_ok, exists_const, pure_ok, Prod.mk.injEq] at h
    exact .inl h.2.2.symm
  · simp only [bind_ok, raiseIf_ok, exists_const, pure_ok, Prod.mk.injEq, not_exists, not_and,
      not_lt, Option.not_isSome_iff_eq_none] at h
    obtain ⟨hfits, hfree, -, rfl⟩ := h
    exact .inr ⟨not_le.mp hexpires, hfits, hfree, rfl⟩

theorem claimCapacityReservation_ok {reservationId claimToken : String} {expectedVersion : Int}
    {r : CapacityReservation}
    (h : claimCapacityReservation reservationId claimToken expectedVersion now s = .ok (r, s')) :
    s' = s ∨ ∃ row f, s.reservations.find? reservationId = some row ∧ HoldMove now row f ∧
      s' = s.setHold reservationId f := by
  simp only [claimCapacityReservation, bind_ok, require_ok] at h
  obtain ⟨row, hrow, h⟩ := h
  split at h
  · simp only [bind_ok, raiseIf_ok, exists_const, pure_ok, Prod.mk.injEq] at h
    exact .inl h.2.2.symm
  · simp only [bind_ok, raiseIf_ok, exists_const, pure_ok, Prod.mk.injEq, ne_eq, not_not,
      not_le] at h
    obtain ⟨hexpires, hstatus, -, -, -, rfl⟩ := h
    exact .inr ⟨row, _, hrow, .claim _ ⟨hstatus, hexpires⟩, rfl⟩

theorem releaseCapacityReservation_ok {reservationId : String} {expectedVersion : Int}
    {r : CapacityReservation}
    (h : releaseCapacityReservation reservationId expectedVersion now s = .ok (r, s')) :
    s' = s ∨ ∃ row f, s.reservations.find? reservationId = some row ∧ HoldMove now row f ∧
      s' = s.setHold reservationId f := by
  simp only [releaseCapacityReservation, bind_ok, require_ok] at h
  obtain ⟨row, hrow, h⟩ := h
  split at h
  · simp only [pure_ok, Prod.mk.injEq] at h
    exact .inl h.2.symm
  · simp only [bind_ok, raiseIf_ok, exists_const, pure_ok, Prod.mk.injEq] at h
    obtain ⟨hstatus, -, -, rfl⟩ := h
    refine .inr ⟨row, _, hrow, .release ?_, rfl⟩
    by_contra hno
    exact hstatus (not_or.mp hno)

end Inversion

end AeepRouter

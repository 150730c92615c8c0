import AeepRouter.Attempt.Capacity

/-!
# Creating, claiming and moving execution attempts

`create_execution_attempt` admits an attempt under its task scope, `claim_execution_attempt` gives it
an owner, and `transition_execution_attempt` moves it along `_TRANSITIONS`, claiming its holds when
it is invoked and releasing them when it ends.
-/

namespace AeepRouter

open Lib

/-- The fields a retry of a creation must repeat. -/
structure AttemptAuthority where
  taskScopeDigest : Option String
  decisionId : String
  preparedId : Option String
  actionDigest : String
  executorId : String
  executorFingerprint : String
  sideEffect : SideEffect
  idempotent : Bool
  deriving DecidableEq, Repr

def AttemptFields.authority (a : AttemptFields) : AttemptAuthority where
  taskScopeDigest := a.taskScopeDigest
  decisionId := a.decisionId
  preparedId := a.preparedId
  actionDigest := a.actionDigest
  executorId := a.executorId
  executorFingerprint := a.executorFingerprint
  sideEffect := a.sideEffect
  idempotent := a.idempotent

namespace AttemptStore

def scopeStates (s : AttemptStore) (digest : String) : List ExecutionAttemptState :=
  s.attempts.select (fun a => a.taskScopeDigest = some digest) (·.state)

/-- The checks a new attempt passes under its task scope, at the instant the clock reads. -/
def requireTaskScope (s : AttemptStore) (attempt : ExecutionAttempt) (now : Int) : Result Unit :=
  match attempt.taskScopeDigest with
  | none => pure ()
  | some digest => do
    let record ← demand (s.definitions.approved? "task_scope" digest)
      "task scope is paused or unavailable"
    match record.value with
    | .taskScope scope =>
      refuseIf (scope.expiresAt ≤ now) "task scope expired"
      refuseIf (scope.executorFingerprints.lookup attempt.executorId ≠
            some attempt.executorFingerprint ∨
          scope.approvalCeiling.rank < attempt.sideEffect.rank)
        "attempt exceeds its exact task authority"
      refuseIf (scope.maxAttempts ≤ (s.scopeStates digest).length ∨
          ∃ state ∈ s.scopeStates digest, ¬ state.terminal)
        "task scope allowance exhausted or an earlier attempt needs completion/recovery"
    | _ => .error (.value "Field required")

def setAttempt (s : AttemptStore) (updated : ExecutionAttempt) : AttemptStore :=
  { s with
    attempts := s.attempts.modify updated.attemptId
      ⟨fun row => if updated.attemptId = row.attemptId then updated else row, fun row => by
        split
        · assumption
        · rfl⟩ }

end AttemptStore

def createExecutionAttempt (attempt : ExecutionAttempt) (now : Int) : AttemptM ExecutionAttempt :=
  fun s =>
    match s.attempts.find? attempt.attemptId with
    | some stored => do
      refuseIf (stored.authority ≠ attempt.authority)
        "execution attempt ID was reused with different authority"
      pure (stored, s)
    | none => do
      s.requireTaskScope attempt now
      pure (attempt, { s with attempts := s.attempts.insert attempt })

def truncateReason (text : String) : String := .ofList (text.toList.take 2000)

def ExecutionAttempt.link (current updated : ExecutionAttempt) (reason : Option String) :
    AttemptTransition where
  attemptId := current.attemptId
  fromState := current.state
  toState := updated.state
  version := updated.version
  occurredAt := updated.updatedAt
  reason := reason.map truncateReason

def saveAttemptUpdateLocked (current updated : ExecutionAttempt) (reason : Option String)
    (s : AttemptStore) : Result AttemptStore := do
  refuseIf (¬ ∃ row ∈ s.attempts.rows, row.attemptId = current.attemptId ∧
      row.state = current.state ∧ row.version = current.version)
    "execution-attempt compare-and-set failed"
  let link := current.link updated reason
  -- the primary key stands for `UNIQUE (attempt_id, version)` too
  raiseIf (s.transitions.find? link.transitionId).isSome .integrity
  pure { s.setAttempt updated with transitions := s.transitions.insert link }

def ExecutionAttempt.claimedBy (current : ExecutionAttempt) (ownerId : String)
    (claimedAt leaseExpiresAt : Int) : AttemptFields :=
  { current.toAttemptFields with
    state := .claimed
    ownerId := some ownerId
    leaseExpiresAt := some leaseExpiresAt
    heartbeatAt := some claimedAt
    version := 1
    updatedAt := max current.updatedAt claimedAt }

def claimExecutionAttempt (attemptId ownerId : String) (claimedAt leaseExpiresAt : Int) :
    AttemptM ExecutionAttempt := fun s => do
  refuseIf (leaseExpiresAt ≤ claimedAt) "execution-attempt lease must expire after claim"
  let current ← demand (s.attempts.find? attemptId) "execution attempt does not exist"
  if current.state = .claimed ∧ current.ownerId = some ownerId then
    pure (current, s)
  else
    refuseIf (current.state ≠ .created ∨ current.version ≠ 0) "execution attempt is already claimed"
    let updated ← ExecutionAttempt.modelValidate (current.claimedBy ownerId claimedAt leaseExpiresAt)
    let s' ← saveAttemptUpdateLocked current updated (some "claimed") s
    pure (updated, s')

/-- The arguments of `transition_execution_attempt`. -/
structure AttemptCall where
  attemptId : String
  expectedState : ExecutionAttemptState
  expectedVersion : Int
  targetState : ExecutionAttemptState
  updatedAt : Int
  reason : Option String
  cashReservationIds : Option (List String)
  capacityReservationIds : Option (List String)
  invocationStartDigest : Option String
  externalAttemptDigest : Option String
  externalThreadDigest : Option String
  externalTurnDigest : Option String
  terminalReceiptIds : Option (List String)
  deriving DecidableEq, Repr

/-- The fields of an attempt after a transition; wall clocks can move backwards. -/
def AttemptCall.changes (call : AttemptCall) (current : ExecutionAttempt) : AttemptFields :=
  { current.toAttemptFields with
    state := call.targetState
    version := current.version + 1
    updatedAt := max current.updatedAt call.updatedAt
    heartbeatAt := some call.updatedAt
    cashReservationIds := call.cashReservationIds.getD current.cashReservationIds
    capacityReservationIds := call.capacityReservationIds.getD current.capacityReservationIds
    invocationStartDigest := call.invocationStartDigest.or current.invocationStartDigest
    externalAttemptDigest := call.externalAttemptDigest.or current.externalAttemptDigest
    externalThreadDigest := call.externalThreadDigest.or current.externalThreadDigest
    externalTurnDigest := call.externalTurnDigest.or current.externalTurnDigest
    terminalReceiptIds := call.terminalReceiptIds.getD current.terminalReceiptIds
    recoveryReason := (call.reason.map truncateReason).or current.recoveryReason }

/-- The body of the loop of `_transition_attempt_capacity_locked`. -/
def transitionHold (current updated : ExecutionAttempt) (s : AttemptStore)
    (reservationId : String) : Result AttemptStore := do
  let hold ← demand
    ((s.reservations.find? reservationId).filter (·.executionId = current.attemptId))
    "capacity reservation does not belong to execution attempt"
  refuseIf ((updated.state = .reserved ∨ updated.state = .invoking) ∧
      (hold.status ≠ .reserved ∨ hold.expiresAt ≤ updated.updatedAt))
    "capacity reservation is not available for invocation"
  if updated.state = .invoking then
    raiseIf (s.TokenTaken reservationId current.ownerId) .integrity
    pure (s.setHold reservationId (CapacityReservation.claim current.ownerId updated.updatedAt))
  else if updated.state.terminal then
    refuseIf (hold.status ≠ .reserved ∧ hold.status ≠ .claimed)
      "execution-attempt capacity was already finalized"
    pure (s.setHold reservationId (CapacityReservation.release updated.updatedAt))
  else
    pure s

/-- The only change of bindings allowed: the first ones, as the attempt is reserved. -/
def ExecutionAttempt.Binds (current updated : ExecutionAttempt) : Prop :=
  current.state = .claimed ∧ updated.state = .reserved ∧ current.capacityReservationIds = []

instance (current updated : ExecutionAttempt) : Decidable (current.Binds updated) := by
  unfold ExecutionAttempt.Binds
  infer_instance

def transitionAttemptCapacityLocked (current updated : ExecutionAttempt) (s : AttemptStore) :
    Result AttemptStore := do
  refuseIf (updated.capacityReservationIds ≠ current.capacityReservationIds ∧
      ¬ current.Binds updated)
    "execution-attempt capacity bindings are immutable"
  updated.capacityReservationIds.foldlM (transitionHold current updated) s

def transitionExecutionAttempt (call : AttemptCall) : AttemptM ExecutionAttempt := fun s => do
  let current ← demand (s.attempts.find? call.attemptId) "execution attempt does not exist"
  refuseIf (current.state ≠ call.expectedState ∨ (current.version : Int) ≠ call.expectedVersion)
    "execution-attempt compare-and-set failed"
  refuseIf (call.targetState ∉ current.state.transitions)
    ("illegal execution-attempt transition: " ++ current.state.text ++ " -> " ++
      call.targetState.text)
  let updated ← ExecutionAttempt.modelValidate (call.changes current)
  let s₁ ← transitionAttemptCapacityLocked current updated s
  let s' ← saveAttemptUpdateLocked current updated call.reason s₁
  pure (updated, s')

/-! ## What a successful call did -/

section Inversion

variable {s s' : AttemptStore} {current updated attempt a : ExecutionAttempt} {now : Int}

structure AttemptStore.Admits (s : AttemptStore) (digest : String) (scope : TaskScope)
    (attempt : ExecutionAttempt) (now : Int) : Prop where
  reviewed : s.definitions.reviewed digest
  record : ∃ record, s.definitions.ofDigest? "task_scope" digest = some record ∧
    record.value = .taskScope scope
  unexpired : now < scope.expiresAt
  fingerprint : scope.executorFingerprints.lookup attempt.executorId =
    some attempt.executorFingerprint
  ceiling : attempt.sideEffect.rank ≤ scope.approvalCeiling.rank
  allowance : (s.scopeStates digest).length < scope.maxAttempts
  settled : ∀ state ∈ s.scopeStates digest, state.terminal

theorem AttemptStore.requireTaskScope_ok (h : s.requireTaskScope attempt now = .ok ())
    {digest : String} (hdigest : attempt.taskScopeDigest = some digest) :
    ∃ scope, s.Admits digest scope attempt now := by
  unfold requireTaskScope at h
  rw [hdigest] at h
  simp only [bind_ok, require_ok] at h
  obtain ⟨record, hrecord, h⟩ := h
  split at h
  · next scope hvalue =>
    unfold Definitions.approved? at hrecord
    split at hrecord
    · next hreviewed =>
      simp only [bind_ok, raiseIf_ok, exists_const, ne_eq, not_or, not_le, not_lt, not_not,
        not_exists, not_and] at h
      obtain ⟨hexpires, ⟨hfingerprint, hceiling⟩, hcount, hsettled⟩ := h
      exact ⟨scope, hreviewed, ⟨record, hrecord, hvalue⟩, hexpires, hfingerprint, hceiling, hcount,
        hsettled⟩
    · cases hrecord
  · cases h

theorem createExecutionAttempt_ok (h : createExecutionAttempt attempt now s = .ok (a, s')) :
    (s' = s ∧ s.attempts.find? attempt.attemptId = some a) ∨
      s.attempts.find? attempt.attemptId = none ∧ s.requireTaskScope attempt now = .ok () ∧
        a = attempt ∧ s' = { s with attempts := s.attempts.insert attempt } := by
  unfold createExecutionAttempt at h
  split at h
  · next stored hstored =>
    simp only [bind_ok, raiseIf_ok, exists_const, pure_ok, Prod.mk.injEq] at h
    obtain ⟨-, rfl, rfl⟩ := h
    exact .inl ⟨rfl, hstored⟩
  · next hfree =>
    simp only [bind_ok, pure_ok, Prod.mk.injEq] at h
    obtain ⟨⟨⟩, hscope, rfl, rfl⟩ := h
    exact .inr ⟨hfree, hscope, rfl, rfl⟩

theorem saveAttemptUpdateLocked_ok {reason : Option String}
    (h : saveAttemptUpdateLocked current updated reason s = .ok s') :
    s.transitions.find? (current.link updated reason).transitionId = none ∧
      s' = { s.setAttempt updated with
        transitions := s.transitions.insert (current.link updated reason) } := by
  simp only [saveAttemptUpdateLocked, bind_ok, raiseIf_ok, exists_const, pure_ok,
    Option.not_isSome_iff_eq_none] at h
  exact ⟨h.2.1, h.2.2.symm⟩

theorem claimExecutionAttempt_ok {attemptId ownerId : String} {claimedAt leaseExpiresAt : Int}
    (h : claimExecutionAttempt attemptId ownerId claimedAt leaseExpiresAt s = .ok (a, s')) :
    s' = s ∨ ∃ current, s.attempts.find? attemptId = some current ∧ current.state = .created ∧
      a.toAttemptFields = current.claimedBy ownerId claimedAt leaseExpiresAt ∧
      saveAttemptUpdateLocked current a (some "claimed") s = .ok s' := by
  simp only [claimExecutionAttempt, bind_ok, raiseIf_ok, exists_const, require_ok] at h
  obtain ⟨-, current, hcurrent, h⟩ := h
  split at h
  · simp only [pure_ok, Prod.mk.injEq] at h
    exact .inl h.2.symm
  · simp only [bind_ok, raiseIf_ok, exists_const, pure_ok, Prod.mk.injEq, ne_eq, not_or,
      not_not] at h
    obtain ⟨⟨hstate, -⟩, updated, hvalid, t, hsave, rfl, rfl⟩ := h
    exact .inr ⟨current, hcurrent, hstate, ExecutionAttempt.modelValidate_ok.mp hvalid, hsave⟩

theorem transitionExecutionAttempt_ok {call : AttemptCall}
    (h : transitionExecutionAttempt call s = .ok (a, s')) :
    ∃ current s₁, s.attempts.find? call.attemptId = some current ∧
      call.targetState ∈ current.state.transitions ∧
      a.toAttemptFields = call.changes current ∧
      transitionAttemptCapacityLocked current a s = .ok s₁ ∧
      saveAttemptUpdateLocked current a call.reason s₁ = .ok s' := by
  simp only [transitionExecutionAttempt, bind_ok, raiseIf_ok, exists_const, require_ok, pure_ok,
    Prod.mk.injEq, not_not] at h
  obtain ⟨current, hcurrent, -, hlegal, updated, hvalid, s₁, hholds, t, hsave, rfl, rfl⟩ := h
  exact ⟨current, s₁, hcurrent, hlegal, ExecutionAttempt.modelValidate_ok.mp hvalid, hholds, hsave⟩

theorem transitionHold_ok {reservationId : String}
    (h : transitionHold current updated s reservationId = .ok s') :
    ∃ row, s.reservations.find? reservationId = some row ∧ row.executionId = current.attemptId ∧
      (updated.state = .reserved ∨ updated.state = .invoking → row.Open updated.updatedAt) ∧
      (s' = s ∧ updated.state ≠ .invoking ∧ ¬ updated.state.terminal ∨
        ∃ f, HoldMove updated.updatedAt row f ∧ s' = s.setHold reservationId f ∧
          (updated.state = .invoking ∧
              f = CapacityReservation.claim current.ownerId updated.updatedAt ∨
            updated.state.terminal ∧ f = CapacityReservation.release updated.updatedAt)) := by
  simp only [transitionHold, bind_ok, require_ok, raiseIf_ok, exists_const, Option.filter_eq_some_iff,
    decide_eq_true_eq, not_and, not_or, ne_eq, not_not, not_le] at h
  obtain ⟨row, ⟨hrow, howner⟩, hopen, h⟩ := h
  refine ⟨row, hrow, howner, hopen, ?_⟩
  split at h
  · next hinvoking =>
    simp only [bind_ok, raiseIf_ok, exists_const, pure_ok] at h
    exact .inr ⟨_, .claim _ (hopen (.inr hinvoking)), h.2.symm, .inl ⟨hinvoking, rfl⟩⟩
  · next hinvoking =>
    split at h
    · next hterminal =>
      simp only [bind_ok, raiseIf_ok, exists_const, pure_ok] at h
      refine .inr ⟨_, .release ?_, h.2.symm, .inr ⟨hterminal, rfl⟩⟩
      by_contra hno
      exact h.1 (not_or.mp hno)
    · next hterminal =>
      rw [pure_ok] at h
      exact .inl ⟨h.symm, hinvoking, hterminal⟩

theorem transitionAttemptCapacityLocked_ok
    (h : transitionAttemptCapacityLocked current updated s = .ok s') :
    (updated.capacityReservationIds = current.capacityReservationIds ∨ current.Binds updated) ∧
      updated.capacityReservationIds.foldlM (transitionHold current updated) s = .ok s' := by
  simp only [transitionAttemptCapacityLocked, bind_ok, raiseIf_ok, exists_const, ne_eq] at h
  exact ⟨by tauto, h.2⟩

end Inversion

end AeepRouter

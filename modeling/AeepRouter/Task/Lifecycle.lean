import AeepRouter.Base
import AeepRouter.Lib.Retention

/-!
# Task activations

Sessions of a project activate tasks and change the state of activations, one step at a time and in
any order; a session can crash between two steps. The records, reviews and lifecycle events of the
store, the overlays and the host configuration outlive it (`Disk`); the write lock of the store and
the lock of the host configuration do not. The digest of an activation stands for the activation.
-/

namespace AeepRouter.Task

open Lib

/-! ## Records -/

structure TaskActivation where
  activationId : String
  scopeDigest : String
  manifestDigest : String
  manifestFileDigest : Option String
  manifestPath : String
  capabilityProfileDigest : Option String
  hostBinding : Bool
  deriving DecidableEq, Repr

inductive LifecycleOperation where
  | activate
  | pause
  | stop
  | resume
  | rollback
  | uninstall
  | replace
  deriving DecidableEq, Repr

/-- The operations of `change_state`. -/
inductive Change where
  | pause
  | stop
  | resume
  | rollback
  | uninstall
  deriving DecidableEq, Repr

def Change.operation : Change → LifecycleOperation
  | pause => .pause
  | stop => .stop
  | resume => .resume
  | rollback => .rollback
  | uninstall => .uninstall

/-- A lifecycle event, with the activation its transaction revoked for another, which the event itself
does not name. -/
structure LifecycleEvent where
  activation : TaskActivation
  operation : LifecycleOperation
  replaced : Option TaskActivation
  deriving DecidableEq, Repr

structure Review where
  activation : TaskActivation
  revoked : Bool
  deriving DecidableEq, Repr

structure TaskCodexBinding where
  activationId : String
  block : String
  deriving DecidableEq, Repr

/-- A file of `.aeep/task-profiles`, which spells an activation once it is written. -/
structure Overlay where
  activationId : String
  contents : Option TaskActivation
  deriving DecidableEq, Repr

inductive EntryState where
  | absent
  | applied
  | conflict
  deriving DecidableEq, Repr

/-- The manifest, the scopes and the profiles of a project, and the text of its host configuration:
none of them changes. -/
structure Project where
  manifestPath : String
  manifestDigest : String
  manifestFileDigest : Option String
  /-- The digest of a stored scope. -/
  scope : String → Result String
  scopeReady : String → Result Unit
  /-- `require_profile`, with whether the host of the profile is `codex-project`. -/
  profile : String → String → Result Bool
  entryState : TaskCodexBinding → Option String → EntryState
  /-- The block of an activation in a host configuration, and the configuration with it. -/
  installed : TaskActivation → Option String → Result (String × String)
  /-- A host configuration without a block. -/
  removed : TaskCodexBinding → String → Result (Option String)

/-- What outlives a crash. -/
structure Disk where
  records : Table TaskActivation (·.activationId)
  bindings : Table TaskCodexBinding (·.activationId)
  reviews : Table Review (·.activation)
  lifecycle : List LifecycleEvent
  overlays : Table Overlay (·.activationId)
  config : Option String
  deriving DecidableEq

variable (project : Project)

/-! ## Checks -/

/-- `_read(_path(record)) == _applied(record)`. -/
def Disk.overlayApplied (d : Disk) (record : TaskActivation) : Prop :=
  d.overlays.find? record.activationId = some ⟨record.activationId, some record⟩

instance (d : Disk) (record : TaskActivation) : Decidable (d.overlayApplied record) :=
  inferInstanceAs (Decidable (_ = _))

def configurationMatches (record : TaskActivation) : Prop :=
  project.manifestDigest = record.manifestDigest ∧
    project.manifestFileDigest = record.manifestFileDigest

instance (record : TaskActivation) : Decidable (configurationMatches project record) :=
  inferInstanceAs (Decidable (_ ∧ _))

/-- Whether the host entry of an activation, if it has one, is as it was installed. -/
def Disk.entryApplied (d : Disk) (record : TaskActivation) : Prop :=
  ∀ binding ∈ d.bindings.find? record.activationId, project.entryState binding d.config = .applied

instance (d : Disk) (record : TaskActivation) : Decidable (d.entryApplied project record) :=
  inferInstanceAs (Decidable (∀ binding ∈ _, _))

def Disk.record (d : Disk) (identity : String) : Result TaskActivation := do
  let record ← demand (d.records.find? identity) "unknown assessment task_activation"
  refuseIf (record.manifestPath ≠ project.manifestPath)
    "task activation belongs to another project manifest"
  pure record

def checkProfile (scopeDigest : String) (hostBinding : Bool) : Option String → Result Unit
  | none => pure ()
  | some digest => do
    let host ← project.profile digest scopeDigest
    refuseIf (hostBinding ≠ host) "task activation host binding differs from its reviewed profile"

def requireActivation (d : Disk) (identity : String) : Result TaskActivation := do
  let record ← d.record project identity
  refuseIf (d.reviews.find? record ≠ some ⟨record, false⟩) "task activation is paused or incomplete"
  refuseIf (¬ d.overlayApplied record) "task overlay changed or is absent; inspect before resuming"
  refuseIf (¬ d.entryApplied project record) "project Codex MCP entry changed or is absent"
  refuseIf (¬ configurationMatches project record)
    "task manifest changed; activate its reviewed configuration again"
  checkProfile project record.scopeDigest record.hostBinding record.capabilityProfileDigest
  pure record

/-! ## Sessions -/

inductive ActivateStage where
  | put
  | lockHost
  | bind
  | writeHost (before : Option String) (after : String)
  | begin
  | create
  | write
  | commit
  deriving DecidableEq

/-- What a change of state does next. -/
inductive ChangeStage where
  | check
  | transact
  | lockHost
  | compare
  | writeHost (before : String) (after : Option String)
  | unlink
  deriving DecidableEq

inductive Work where
  | activate (record : TaskActivation) (previous : Option TaskActivation) (stage : ActivateStage)
  | change (record : TaskActivation) (operation : Change) (stage : ChangeStage)
  deriving DecidableEq

structure Session where
  sessionId : ℕ
  work : Work
  deriving DecidableEq

/-- The sessions of a project, with the holders of the two locks. -/
structure System where
  disk : Disk
  writer : Option ℕ
  hostLock : Option ℕ
  sessions : Table Session (·.sessionId)
  deriving DecidableEq

def System.empty : System := ⟨⟨∅, ∅, ∅, [], ∅, none⟩, none, none, ∅⟩

/-- What a step comes to: it waits for a lock, it raises, or it leaves the system with work to do or
without. -/
inductive Progress where
  | blocked
  | raised
  | next (work : Option Work) (s : System)

variable (s : System) (me : ℕ)

/-- The end of a session: its locks are released, and its transaction is rolled back. -/
def System.leave : System :=
  { s with
    writer := if s.writer = some me then none else s.writer
    hostLock := if s.hostLock = some me then none else s.hostLock
    sessions := s.sessions.erase me }

/-- `with _codex_lock`. -/
def lockHost (work : Work) : Progress :=
  if s.hostLock ≠ none then .blocked else .next (some work) { s with hostLock := some me }

/-- `_replace_codex_bytes`, and the end of `_codex_lock`. -/
def writeHost (before after : Option String) (work : Work) : Progress :=
  if s.disk.config ≠ before then .raised
  else .next (some work) { s with
    disk := { s.disk with config := after }
    hostLock := none }

def immutable : Err := .configuration "assessment record identity is immutable"

/-! ## Activation -/

def activated (record : TaskActivation) (previous : Option TaskActivation) : LifecycleEvent :=
  ⟨record, if previous.isSome then .replace else .activate, previous⟩

/-- `UPDATE assessment_reviews SET revoked=1`. -/
def revoke (previous : Option TaskActivation) : Table.Rewrite Review.activation where
  toFun row := if some row.activation = previous then { row with revoked := true } else row
  keeps row := by split <;> rfl

/-- The transaction of `activate`, which raises when the record has a review. -/
def Disk.commitActivation (d : Disk) (record : TaskActivation) (previous : Option TaskActivation) :
    Option Disk :=
  if (d.reviews.find? record).isSome then none
  else some { d with
    reviews := (d.reviews.rewrite (revoke previous)).insert ⟨record, false⟩
    lifecycle := d.lifecycle ++ [activated record previous] }

def startActivation (activationId scopeId : String) (replace profile : Option String)
    (hostBinding : Bool) : Result Work := do
  let scopeDigest ← project.scope scopeId
  checkProfile project scopeDigest hostBinding profile
  project.scopeReady scopeDigest
  let previous ← replace.mapM (s.disk.record project)
  refuseIf (∃ old ∈ previous, ¬ s.disk.overlayApplied old)
    "previous task overlay changed; replacement requires conflict resolution"
  pure (.activate ⟨activationId, scopeDigest, project.manifestDigest, project.manifestFileDigest,
    project.manifestPath, profile, hostBinding⟩ previous .put)

def stepActivate (record : TaskActivation) (previous : Option TaskActivation) :
    ActivateStage → Progress
  | .put =>
    if s.writer ≠ none then .blocked
    else match s.disk.records.retain id immutable record with
      | .error _ => .raised
      | .ok records =>
        .next (some (.activate record previous
            (if record.hostBinding ∧ record.manifestFileDigest.isSome then .lockHost else .begin)))
          { s with disk := { s.disk with records := records } }
  | .lockHost => lockHost s me (.activate record previous .bind)
  | .bind =>
    if s.writer ≠ none then .blocked
    else match project.installed record s.disk.config with
      | .error _ => .raised
      | .ok (block, after) =>
        match s.disk.bindings.retain id immutable ⟨record.activationId, block⟩ with
        | .error _ => .raised
        | .ok bindings =>
          .next (some (.activate record previous (.writeHost s.disk.config after)))
            { s with disk := { s.disk with bindings := bindings } }
  | .writeHost before after => writeHost s before (some after) (.activate record previous .begin)
  | .begin =>
    if s.writer ≠ none then .blocked
    else if ∃ old ∈ previous, ¬ s.disk.overlayApplied old then .raised
    else .next (some (.activate record previous .create)) { s with writer := some me }
  | .create =>
    if (s.disk.overlays.find? record.activationId).isSome then .raised
    else .next (some (.activate record previous .write)) { s with
      disk := { s.disk with overlays := s.disk.overlays.insert ⟨record.activationId, none⟩ } }
  | .write =>
    .next (some (.activate record previous .commit)) { s with
      disk := { s.disk with overlays := s.disk.overlays.assign ⟨record.activationId, some record⟩ } }
  | .commit =>
    match s.disk.commitActivation record previous with
    | none => .raised
    | some disk => .next none { s with
        disk := disk
        writer := none }

/-! ## Changes of state -/

/-- The transaction of `change_state`. -/
def Disk.commitChange (d : Disk) (record : TaskActivation) (operation : Change) : Disk :=
  { d with
    reviews := d.reviews.assign ⟨record, operation ≠ .resume⟩
    lifecycle := d.lifecycle ++ [⟨record, operation.operation, none⟩] }

def Disk.checkResume (d : Disk) (record : TaskActivation) : Result Unit := do
  let _ ← record.capabilityProfileDigest.mapM (project.profile · record.scopeDigest)
  project.scopeReady record.scopeDigest
  refuseIf (¬ configurationMatches project record ∨ ¬ d.overlayApplied record)
    "task configuration changed or is absent; resume rejected"
  refuseIf (¬ d.entryApplied project record)
    "project Codex MCP entry changed or is absent; resume rejected"

def stepChange (record : TaskActivation) (operation : Change) : ChangeStage → Progress
  | .check =>
    match s.disk.checkResume project record with
    | .error _ => .raised
    | .ok () => .next (some (.change record operation .transact)) s
  | .transact =>
    if s.writer ≠ none then .blocked
    else .next
      (if operation = .rollback ∨ operation = .uninstall then some (.change record operation .lockHost)
        else none)
      { s with disk := s.disk.commitChange record operation }
  | .lockHost =>
    if (s.disk.bindings.find? record.activationId).isNone then
      .next (some (.change record operation .unlink)) s
    else lockHost s me (.change record operation .compare)
  | .compare =>
    match s.disk.bindings.find? record.activationId, s.disk.config with
    | some binding, some current =>
      match project.entryState binding (some current) with
      | .conflict => .raised
      | .absent => .next (some (.change record operation .unlink)) { s with hostLock := none }
      | .applied =>
        match project.removed binding current with
        | .error _ => .raised
        | .ok after => .next (some (.change record operation (.writeHost current after))) s
    | _, _ => .next (some (.change record operation .unlink)) { s with hostLock := none }
  | .writeHost before after =>
    writeHost s (some before) after (.change record operation .unlink)
  | .unlink =>
    if (s.disk.overlays.find? record.activationId).isNone then .next none s
    else if ¬ s.disk.overlayApplied record then .raised
    else .next none { s with
      disk := { s.disk with overlays := s.disk.overlays.erase record.activationId } }

/-! ## Steps -/

inductive Input where
  | activate (me : ℕ) (activationId scopeId : String) (replace profile : Option String)
      (hostBinding : Bool)
  | change (me : ℕ) (identity : String) (operation : Change)
  | advance (me : ℕ)
  | crash (me : ℕ)
  deriving DecidableEq

/-- Begins a session, unless another has its number. -/
def System.enter (work : Result Work) : System :=
  match work, s.sessions.find? me with
  | .ok work, none => { s with sessions := s.sessions.insert ⟨me, work⟩ }
  | _, _ => s

def Work.step : Work → Progress
  | .activate record previous stage => stepActivate project s me record previous stage
  | .change record operation stage => stepChange project s me record operation stage

/-- The system after a step of one of its sessions. -/
def System.progress : Progress → System
  | .blocked => s
  | .raised => s.leave me
  | .next none s' => s'.leave me
  | .next (some work) s' => { s' with sessions := s'.sessions.put ⟨me, work⟩ }

def step (s : System) : Input → System
  | .activate me activationId scopeId replace profile hostBinding =>
    s.enter me (startActivation project s activationId scopeId replace profile hostBinding)
  | .change me identity operation =>
    s.enter me ((s.disk.record project identity).map fun record =>
      .change record operation (if operation = .resume then .check else .transact))
  | .advance me =>
    match s.sessions.find? me with
    | none => s
    | some session => s.progress me (session.work.step project s me)
  | .crash me => s.leave me

end AeepRouter.Task

import AeepRouter.Lib.Process
import AeepRouter.Router.Charges
import AeepRouter.Store.Machine
import AeepRouter.Attempt.Machine

/-!
# The router and its stores

A call of the router is a `Process` over the `World`: the durable store and attempt tables, and what
is kept of the receipts. Every step asks the `Env` of the call whether it proceeds, raises or takes
the process down; the environment also answers for the clock, the drawn ids and the capacity a hold
asks for.

What has no effect on decisions, attempts and keys (policy and scoring checks, observations,
approvals, spans) is a step that may raise. `journal` and `raised` record what a run did.
-/

namespace AeepRouter.Router

open Lib

/-! ## Exceptions -/

/-- What a step of a call raises. -/
inductive Fault where
  | error (e : Err)
  | noRoute (message : String)
  /-- Any other subclass of `Exception`. -/
  | other (type : String)
  | cancelled
  | exit (type : String)
  deriving DecidableEq, Repr

namespace Fault

def isException : Fault → Bool
  | cancelled | exit _ => false
  | _ => true

/-- `except (Exception, asyncio.CancelledError)`. -/
def isHandled : Fault → Bool
  | exit _ => false
  | _ => true

end Fault

/-- A part of a call, by the handlers around it. -/
inductive Site where
  | preparing
  | invoking
  | accounting
  deriving DecidableEq, Repr

/-! ## The router -/

/-- A registered executor, as its invocation reads it. -/
structure ExecutorSpec where
  id : String
  fingerprint : String
  sideEffect : SideEffect
  idempotent : Bool
  safeToAutoExecute : Bool
  isHosted : Bool
  isManagedHost : Bool
  deriving DecidableEq, Repr

/-- The configuration of a router. -/
structure Settings where
  crypto : Crypto
  taskScopeDigest : Option String
  workerId : String
  /-- `deterministic_digest` of the attempt, fingerprint and decision an invocation starts with. -/
  invocationDigest : String → String → String → String

/-! ## The environment of a call -/

/-- What a step meets. -/
inductive Fate where
  | proceeds
  | raises (fault : Fault)
  | crashes
  deriving DecidableEq, Repr

/-- What a call meets at each of its steps. -/
structure Env where
  fate : ℕ → Fate
  now : ℕ → Int
  newId : ℕ → String
  /-- The hold `_reserve_attempt_capacity` asks for, and the capacity it knows of. -/
  capacity : ℕ → Option (CapacityReservation × Option ℚ)

/-- A step that raised, and the tables it left. -/
structure Raised where
  fault : Fault
  site : Site
  store : Store
  attempts : AttemptStore

/-! ## The world -/

structure World where
  settings : Settings
  env : Env
  tick : ℕ
  store : Store
  attempts : AttemptStore
  /-- The fields of a receipt that a charge depends on, by the id of its row. -/
  receipts : List (String × LocalReceipt)
  /-- The transactions committed, with the store each found. -/
  journal : List (Store × StoreOp)
  raised : List Raised

/-- A router just set up. -/
def World.start (settings : Settings) (env : Env) : World where
  settings := settings
  env := env
  tick := 0
  store := .empty
  attempts := .empty
  receipts := []
  journal := []
  raised := []

abbrev RouterM (α : Type) := Process Fault World α

section Steps

variable {α : Type} (site : Site)

def World.next (w : World) : World := { w with tick := w.tick + 1 }

/-- Raises, and records where. -/
def raiseAt (fault : Fault) : RouterM α := fun w =>
  (.raised fault, { w with raised := w.raised ++ [⟨fault, site, w.store, w.attempts⟩] })

/-- One step, which may raise or crash. -/
def proceed : RouterM Unit := fun w =>
  match w.env.fate w.tick with
  | .proceeds => (.returned (), w.next)
  | .raises fault => raiseAt site fault w.next
  | .crashes => (.crashed, w.next)

/-- Reads the environment. -/
def draw (f : Env → ℕ → α) : RouterM α := fun w => (.returned (f w.env w.tick), w.next)

def economicNow : RouterM Int := draw Env.now

def newId : RouterM String := draw Env.newId

def look (f : World → α) : RouterM α := do
  proceed site
  let w ← Process.get
  pure (f w)

def check : Result α → RouterM α
  | .ok a => pure a
  | .error e => raiseAt site (.error e)

/-- Fails with a `ConfigurationError` when the condition holds. -/
def refuse (p : Prop) [Decidable p] (message : String) : RouterM Unit :=
  check site (refuseIf p message)

/-! ## Transactions -/

/-- A transaction of the payment store with its typed result. -/
structure Transaction (α : Type) where
  op : StoreOp
  run : Crypto → StoreM α
  runs : ∀ crypto s, op.exec crypto s = ((run crypto).wrap fun _ => ()) s

def transact (t : Transaction α) : RouterM α := do
  proceed site
  fun w =>
    match t.run w.settings.crypto w.store with
    | .ok (a, s) => (.returned a, { w with store := s, journal := w.journal ++ [(w.store, t.op)] })
    | .error e => raiseAt site (.error e) w

structure AttemptTransaction (α : Type) where
  op : AttemptOp
  run : AttemptM α
  runs : ∀ contentDigest s, op.exec contentDigest s = run.drop s

def attemptTransact (t : AttemptTransaction α) : RouterM α := do
  proceed site
  fun w =>
    match t.run w.attempts with
    | .ok (a, s) => (.returned a, { w with attempts := s })
    | .error e => raiseAt site (.error e) w

end Steps

/-! ## Evidence -/

section Evidence

variable (site : Site)

deriving instance DecidableEq for RawExecution
deriving instance DecidableEq for LocalReceipt

/-- Writes evidence tables, beside the columns the store's own tables keep. -/
def Transaction.writeEvidence (evidence : Evidence) : Transaction Unit where
  op := .writeEvidence evidence
  run _ := fun s => .ok ((), { s with evidence := evidence })
  runs _ _ := rfl

/-- `INSERT OR REPLACE` of a receipt. -/
def putReceipt (evidence : Evidence) (receipt : ExecutionReceipt) : Evidence :=
  { evidence with
    receipts := (evidence.receipts.erase receipt.receiptId).insert receipt }

/-- Whether a receipt is the result of a completed action, which makes it immutable. -/
def isFinalReceipt (s : Store) (receiptId : String) : Bool :=
  s.actionBindings.rows.any fun binding =>
    (s.idempotency.find? binding.idempotencyKey).any fun record =>
      record.state = .complete ∧ record.receiptIds = [receiptId]

def saveReceipt (receipt : ExecutionReceipt) (details : LocalReceipt) : RouterM Unit := do
  -- the executor fingerprint and the cohort of the receipt are bound or found again
  proceed site
  let w ← Process.get
  refuse site (∃ existing ∈ w.store.evidence.receipts.find? receipt.receiptId,
      (existing ≠ receipt ∨ w.receipts.lookup receipt.receiptId ≠ some details) ∧
        isFinalReceipt w.store receipt.receiptId)
    "completed action receipt is immutable"
  transact site (.writeEvidence (putReceipt w.store.evidence receipt))
  Process.update fun w => { w with receipts := (receipt.receiptId, details) :: w.receipts }

def observeReceipt (details : LocalReceipt) : RouterM Unit :=
  if details.status ∈ [.delegated, .hostSelected, .unknown] then pure () else proceed site

end Evidence

end AeepRouter.Router

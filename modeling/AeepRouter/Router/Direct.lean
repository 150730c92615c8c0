import AeepRouter.Capacity.Quota
import AeepRouter.Router.Decisions

/-!
# Executing a routed action

`execute` takes the feasible candidates of a route decision in the order of their ranks. It checks a
candidate again, opens an attempt, invokes the executor and falls back to the next candidate where the
policy lets it; a quota that changed makes it route again, once. A call with an idempotency key does
this under a claim of the key.

A call works at its `Desk`: the world it shares with other calls, which may change between two of its
steps, the invocations it made (`turns`) and what it did to its key (`marks`).
-/

namespace AeepRouter.Router

open Lib

/-! ## Decisions -/

/-- A registered executor, as `execute` reads it. -/
structure RegisteredSpec extends ExecutorSpec where
  enabled : Bool
  capability : String
  hasOutputSchema : Bool
  validators : List Bool

/-- The fields of a `CandidateScore` that `execute` reads. -/
structure CandidateScore where
  executorId : String
  feasible : Bool
  rank : Option ℕ
  subscriptionQuota : Option Capacity.SubscriptionQuota

structure FallbackConfig where
  enabled : Bool
  maxAttempts : ℕ
  retryTimeouts : Bool
  retryValidationFailures : Bool
  allowNonIdempotent : Bool
  positive : 1 ≤ maxAttempts
  bounded : maxAttempts ≤ 10

structure ActionRequest where
  actionId : String
  capability : String
  idempotencyKey : Option String
  /-- `input.get("__aeep_redacted__") is True`. -/
  redacted : Bool
  /-- The digest of the capability and the input. -/
  requestHash : String

/-- What routing an action comes to. -/
structure Routing where
  decisionId : String
  selectedExecutorId : Option String
  candidates : List CandidateScore
  fallback : FallbackConfig
  explanation : String

structure RouteDecision extends Routing where
  action : ActionRequest

def Routing.decision (routing : Routing) (action : ActionRequest) : RouteDecision :=
  { routing with action := action }

def candidateOrder (decision : RouteDecision) : List CandidateScore :=
  let rank (item : CandidateScore) : ℕ := if item.rank.getD 0 = 0 then 10 ^ 9 else item.rank.getD 0
  (decision.candidates.filter fun item => item.feasible ∧ item.rank.isSome).insertionSort
    fun a b => rank a ≤ rank b

/-- `max_attempts` of a call; `fixed` is whether the decision is in `_fixed_dispatches`. -/
def maxAttempts (fixed : Bool) (decision : RouteDecision) : ℕ :=
  if fixed then 1
  else min (candidateOrder decision).length
    (if decision.fallback.enabled then decision.fallback.maxAttempts else 1)

/-- `_quota_materially_changed`; aware times are equal when their instants are. -/
def quotaMateriallyChanged : (before after : Option Capacity.SubscriptionQuota) → Bool
  | none, none => false
  | none, some _ => true
  | some _, none => true
  | some before, some after =>
    before.state ≠ after.state ∨ before.confidence ≠ after.confidence ∨ before.unit ≠ after.unit ∨
      before.allowanceUnits ≠ after.allowanceUnits ∨
      before.remainingUnits ≠ after.remainingUnits ∨ before.usedPercent ≠ after.usedPercent ∨
      before.resetAt.map (·.instant) ≠ after.resetAt.map (·.instant) ∨
      before.windowDurationSeconds ≠ after.windowDurationSeconds ∨
      before.windowCount ≠ after.windowCount

def canFallback (fallback : FallbackConfig) (idempotent : Bool) (status : ExecutionStatus)
    (outputValid : Option Bool) : Bool :=
  if ¬ idempotent ∧ ¬ fallback.allowNonIdempotent then false
  else if status = .timeout then fallback.retryTimeouts
  else if status = .success ∧ outputValid = some false then fallback.retryValidationFailures
  else status ∈ [.failed, .rejected, .unknown]

/-! ## What the executor returned -/

structure Returned where
  status : ExecutionStatus
  errorType : Option String
  errorMessage : Option String
  schemaFits : Bool
  /-- What the validators of the executor say. -/
  validatorResults : List (Option Bool)
  startedAt : Int
  endedAt : Int
  cash : CashReport.View

def Returned.outputValid (raw : Returned) (spec : RegisteredSpec) : Option Bool :=
  if raw.status = .success ∧ spec.hasOutputSchema then some raw.schemaFits else none

def Returned.taskValid (raw : Returned) (spec : RegisteredSpec) : Option Bool :=
  if raw.status = .success ∧ raw.outputValid spec ≠ some false then
    if spec.validators ≠ [] then
      some ((spec.validators.zip raw.validatorResults).all fun (required, valid) =>
        required → valid = some true)
    else raw.outputValid spec
  else none

/-- The fields of the receipt that later steps read. -/
def Returned.execution (raw : Returned) (spec : RegisteredSpec) : RawExecution where
  status := raw.status
  outputValid := raw.outputValid spec
  taskValid := raw.taskValid spec
  cash := raw.cash
  capability := spec.capability
  executorId := spec.id
  startedAt := raw.startedAt
  endedAt := raw.endedAt

/-- `success` at the end of a turn. -/
def Returned.succeeded (raw : Returned) (spec : RegisteredSpec) : Bool :=
  raw.status = .success ∧ raw.outputValid spec ≠ some false ∧ raw.taskValid spec ≠ some false

/-- The schema of an MCP tool has drifted. -/
def Returned.drifted (raw : Returned) : Bool :=
  raw.errorType = some "ProtocolError" ∧
    (raw.errorMessage.any fun message => textContains "schema drift" message)

/-! ## The desk of a call -/

structure Ended where
  raw : Returned
  state : ExecutionAttemptState
  receiptId : String

/-- An invocation of an executor. -/
structure Turn where
  decision : RouteDecision
  /-- The decision is one of `execute` itself, after the quota had changed. -/
  rerouted : Bool
  attempt : ℕ
  candidate : CandidateScore
  spec : RegisteredSpec
  attemptId : String
  ended : Option Ended

/-- What a call does to the record of its key, and its invocations. -/
inductive KeyMark where
  | claimed (found : Option IdempotencyReport)
  | executing
  | invoked (attemptId : String)
  | indeterminate
  | abandoned
  | completed (decisionId status : String) (receiptIds : List String)
  deriving DecidableEq, Repr

/-- What a call did, with the store it found and the one it left. -/
structure Stamp where
  mark : KeyMark
  found : Store
  left : Store

/-- What a call meets at each of its steps, beside the `Env` of the world. -/
structure DirectEnv where
  others : ℕ → World → World
  /-- `route`, `route_with_discovery`. -/
  route : ℕ → Routing
  /-- The decision has the digest it was validated with. -/
  validated : ℕ → Bool
  /-- `registry.get`. -/
  registry : ℕ → String → Option RegisteredSpec
  /-- `_subscription_quota`, after a snapshot. -/
  quota : ℕ → Option Capacity.SubscriptionQuota
  requiresPrepared : ℕ → Bool
  /-- `rejection_reasons` under the current policy. -/
  reasons : ℕ → List String
  returned : ℕ → Returned

structure Desk where
  world : World
  env : DirectEnv
  tick : ℕ
  turns : List Turn
  marks : List Stamp

/-- The desk of a call that begins. -/
def Desk.start (world : World) (env : DirectEnv) : Desk := ⟨world, env, 0, [], []⟩

abbrev DirectM (α : Type) := Process Fault Desk α

/-- The arguments of `execute` beside the decision. -/
structure DirectCall where
  approvedSideEffect : SideEffect
  allowUnsafeExecutor : Bool
  dryRun : Bool
  fixed : Bool

/-- The part of an `ExecutionOutcome` that the call decides. -/
structure DirectOutcome where
  ok : Bool
  status : ExecutionStatus
  decisionId : String
  receiptIds : List String

section Steps

variable {α : Type}

/-- A step on the world, which the others may have changed before it. -/
def onWorld (m : RouterM α) : DirectM α := fun d =>
  let (ending, world) := m (d.env.others d.tick d.world)
  (ending, { d with world := world, tick := d.tick + 1 })

/-- A step that may raise and has no effect that is modelled. -/
def attend : DirectM Unit := onWorld (proceed .preparing)

def drawDirect (f : DirectEnv → ℕ → α) : DirectM α := fun d =>
  (.returned (f d.env d.tick), { d with tick := d.tick + 1 })

def complain (p : Prop) [Decidable p] (fault : Fault) : DirectM Unit :=
  if p then Process.raise fault else pure ()

def keyTransact (t : Transaction α) (mark : α → KeyMark) : DirectM α := fun d =>
  let found := d.env.others d.tick d.world
  match transact .preparing t found with
  | (.returned a, world) =>
    (.returned a, { d with
      world := world
      tick := d.tick + 1
      marks := d.marks ++ [⟨mark a, found.store, world.store⟩] })
  | (.raised fault, world) => (.raised fault, { d with world := world, tick := d.tick + 1 })
  | (.crashed, world) => (.crashed, { d with world := world, tick := d.tick + 1 })

/-- The executor is invoked. -/
def openTurn (turn : Turn) : DirectM Unit :=
  Process.update fun d =>
    { d with
      turns := d.turns ++ [turn]
      marks := d.marks ++ [⟨.invoked turn.attemptId, d.world.store, d.world.store⟩] }

/-- The last invocation has its receipt. -/
def endTurn (ended : Ended) : DirectM Unit :=
  Process.update fun d =>
    { d with
      turns := d.turns.dropLast ++ d.turns.getLast?.toList.map fun turn =>
        { turn with ended := some ended } }

end Steps

/-! ## Claims of keys -/

namespace Transaction

def claimIdempotency (key requestHash : String) : Transaction (Option IdempotencyReport) :=
  .onAction (.claim key requestHash) (AeepRouter.claimIdempotency key requestHash) .report rfl

def abandonIdempotency (key : String) : Transaction Unit :=
  .onAction (.abandon key) (AeepRouter.abandonIdempotency key) (fun _ => .done) rfl

end Transaction

def claimKey (key requestHash : String) : DirectM (Option IdempotencyReport) :=
  keyTransact (.claimIdempotency key requestHash) .claimed

def executeKey (key : String) : DirectM Unit :=
  keyTransact (.markIdempotencyExecuting key) fun _ => .executing

/-- The handler of a keyed call. -/
def giveUpKey {α : Type} (key : String) (fault : Fault) : DirectM α := do
  keyTransact (.markIdempotencyIndeterminate key) fun _ => .indeterminate
  keyTransact (.abandonIdempotency key) fun _ => .abandoned
  Process.raise fault

def completeKeyWith (key : String) (outcome : DirectOutcome) : DirectM Unit :=
  keyTransact (.completeIdempotency key outcome.decisionId outcome.status.text outcome.receiptIds)
    fun _ => .completed outcome.decisionId outcome.status.text outcome.receiptIds

/-! ## One turn -/

section Turns

variable (call : DirectCall) (decision : RouteDecision) (rerouted claimed : Bool) (attempt : ℕ)
  (candidate : CandidateScore)

def checkCandidate (spec : RegisteredSpec) : DirectM Unit := do
  complain (spec.enabled = false ∨ spec.capability ≠ decision.action.capability)
    (.noRoute ("route '" ++ spec.id ++ "' is no longer active for '" ++ decision.action.capability ++
      "'; reroute"))
  -- the input fits the schema; the policy, the estimate and the economics of the route
  attend
  let requires ← drawDirect DirectEnv.requiresPrepared
  complain requires
    (.error (.configuration ("executor '" ++ spec.id ++ "' requires prepared economic execution; " ++
      "use prepare_route() followed by execute_prepared()")))
  let reasons ← drawDirect DirectEnv.reasons
  complain (reasons ≠ [])
    (.noRoute ("route '" ++ spec.id ++ "' no longer satisfies current policy: " ++
      "; ".intercalate reasons ++ "; reroute"))
  complain (call.approvedSideEffect.rank < spec.sideEffect.rank ∧ ¬ spec.isHosted)
    (.error (.approvalRequired ("executor '" ++ spec.id ++ "' requires '" ++ spec.sideEffect.text ++
      "' approval; approved level is '" ++ call.approvedSideEffect.text ++ "'")))
  complain (¬ spec.safeToAutoExecute ∧ ¬ spec.isHosted ∧ ¬ call.allowUnsafeExecutor)
    (.error (.approvalRequired ("executor '" ++ spec.id ++ "' is not marked safe_to_auto_execute; " ++
      "pass explicit unsafe-executor approval after reviewing its configuration")))
  -- the record of the approval
  attend

def createDirectAttempt (spec : RegisteredSpec) : RouterM ExecutionAttempt := do
  let now ← economicNow
  let prior ← look .preparing (executionAttemptForDecision ·.attempts decision.decisionId)
  refuse .preparing (∃ attempt ∈ prior, attempt.state = .indeterminate ∨ attempt.state = .disputed)
    "decision has an unresolved external invocation; blind retry denied"
  let attemptId ← newId
  let w ← Process.get
  let attempt ← check .preparing (ExecutionAttempt.modelValidate
    { newAttempt decision.decisionId decision.action.requestHash spec.toExecutorSpec attemptId
        w.settings.taskScopeDigest now with preparedId := none })
  let storeNow ← economicNow
  let created ← attemptTransact .preparing (.create attempt storeNow)
  attemptTransact .preparing (.claim created.attemptId w.settings.workerId now (now + hour))

def advanceOrFail (current : ExecutionAttempt) (target : ExecutionAttemptState) (reason : String)
    (updates : AttemptUpdates) (capacitySpec : Option ExecutorSpec) : DirectM ExecutionAttempt :=
  (onWorld (advanceAttempt .preparing current target reason updates capacitySpec)).guarded
    Fault.isException fun fault => do
      let _ ← onWorld (advanceAttempt .preparing current .failed
        "capacity admission failed before invocation" {} none)
      Process.raise fault

def enterTurn (spec : RegisteredSpec) : DirectM ExecutionAttempt := do
  let created ← onWorld (createDirectAttempt decision spec)
  let reserved ← advanceOrFail created .reserved "local reservation boundary" {}
    (some spec.toExecutorSpec)
  let w ← onWorld Process.get
  advanceOrFail reserved .invoking "external invocation boundary entered"
    { invocationStartDigest := some
        (w.settings.invocationDigest reserved.attemptId reserved.executorFingerprint "") } none

/-- The block around the invocation. -/
def invokeTurn (spec : RegisteredSpec) (invoking : ExecutionAttempt) : DirectM Returned :=
  Process.guarded Fault.isHandled
    (do
      -- the route is active
      attend
      openTurn ⟨decision, rerouted, attempt, candidate, spec, invoking.attemptId, none⟩
      attend
      drawDirect DirectEnv.returned)
    fun fault => do
      let _ ← onWorld (advanceAttempt .preparing invoking .indeterminate
        "executor raised after invocation boundary" {} none)
      Process.raise fault

def settleTurn (spec : RegisteredSpec) (invoking : ExecutionAttempt) (raw : Returned) :
    DirectM Ended := do
  let validating ← onWorld (advanceAttempt .invoking invoking .validating
    "executor returned; validating locally" {} none)
  -- the validators
  attend
  let execution := raw.execution spec
  let receiptId ← onWorld newId
  let settling ← onWorld (advanceAttempt .accounting validating .settling
    "validation completed; finalizing local accounting" {} none)
  let receipt : ExecutionReceipt :=
    { receiptId := receiptId
      decisionId := decision.decisionId
      actionId := decision.action.actionId
      executorId := spec.id
      status := raw.status.text
      metadata := [("attempt_id", .string invoking.attemptId)] }
  onWorld (saveReceipt .accounting receipt execution.receipt)
  onWorld (observeReceipt .accounting execution.receipt)
  let state := terminalAttemptState execution.receipt spec.toExecutorSpec settling
  let _ ← onWorld (advanceAttempt .accounting settling state "terminal receipt persisted"
    { terminalReceiptIds := some [receiptId] } none)
  let ended : Ended := ⟨raw, state, receiptId⟩
  endTurn ended
  pure ended

/-- The key is marked before the first invocation, where it is not empty: `and idempotency_key`. -/
def executeFirst : DirectM Unit :=
  match decision.action.idempotencyKey with
  | none => pure ()
  | some key => if claimed ∧ key ≠ "" ∧ attempt = 1 then executeKey key else pure ()

def takeTurn (spec : RegisteredSpec) : DirectM Ended := do
  checkCandidate call decision spec
  let invoking ← enterTurn decision spec
  executeFirst decision claimed attempt
  let raw ← invokeTurn decision rerouted attempt candidate spec invoking
  settleTurn decision spec invoking raw

/-! ## The loop -/

def outcomeOf (ok : Bool) (status : ExecutionStatus) (receiptIds : List String) : DirectOutcome :=
  ⟨ok, status, decision.decisionId, receiptIds⟩

/-- What a turn comes to: the outcome of the call, or its last status. -/
def Ended.outcome (ended : Ended) (spec : RegisteredSpec) (receiptIds : List String) :
    Option DirectOutcome :=
  if ended.raw.drifted then some (outcomeOf decision false .failed receiptIds)
  else if ended.raw.status ∈ [.delegated, .hostSelected] then
    some (outcomeOf decision true ended.raw.status receiptIds)
  else if ended.raw.succeeded spec then some (outcomeOf decision true .success receiptIds)
  else none

def Ended.finalStatus (ended : Ended) (spec : RegisteredSpec) : ExecutionStatus :=
  if ended.raw.status = .success ∧
      (ended.raw.taskValid spec = some false ∨ ended.raw.outputValid spec = some false) then .failed
  else ended.raw.status

/-- Whether the loop goes on after a turn that decided nothing. -/
def Ended.fallsBack (ended : Ended) (spec : RegisteredSpec) : Bool :=
  ended.state ≠ .indeterminate ∧ canFallback decision.fallback spec.idempotent ended.raw.status
    (if ended.raw.outputValid spec = some false ∨ ended.raw.taskValid spec = some false then
      some false else ended.raw.taskValid spec)

/-- Whether the quota of a managed host is another one than the candidate was ranked with. -/
def quotaChanged (spec : RegisteredSpec) : DirectM Bool :=
  if spec.isManagedHost then do
    attend
    let after ← drawDirect DirectEnv.quota
    pure (quotaMateriallyChanged candidate.subscriptionQuota after)
  else pure false

/-- `suspend_candidate`, where the schema of the tool has drifted. -/
def suspendDrifted (ended : Ended) : DirectM Unit :=
  if ended.raw.drifted then attend else pure ()

def rerouteIf (changed : Bool) (reroute : Option (DirectM DirectOutcome))
    (goOn : DirectM DirectOutcome) : DirectM DirectOutcome :=
  match changed, reroute with
  | true, some again => again
  | _, _ => goOn

/-- The end of a round of the loop. -/
def conclude (ended : Ended) (spec : RegisteredSpec) (receiptIds : List String)
    (goOn : DirectM DirectOutcome) : DirectM DirectOutcome :=
  match ended.outcome decision spec receiptIds with
  | some outcome => pure outcome
  | none =>
    if ended.fallsBack decision spec then goOn
    else pure (outcomeOf decision false (ended.finalStatus spec) receiptIds)

/-- The turns of `execute` from an attempt on, with the receipts before; `reroute` is what it does
when the quota has changed, if it may. -/
def attempts (reroute : Option (DirectM DirectOutcome)) :
    List CandidateScore → ℕ → List String → Option (Ended × RegisteredSpec) → DirectM DirectOutcome
  | [], _, receiptIds, last =>
    pure (outcomeOf decision false ((last.map fun l => l.1.finalStatus l.2).getD .failed) receiptIds)
  | candidate :: candidates, attempt, receiptIds, _ => do
    let registered ← drawDirect fun env tick => env.registry tick candidate.executorId
    match registered with
    | none =>
      Process.raise (.error (.configuration ("unknown executor '" ++ candidate.executorId ++ "'")))
    | some spec => do
      -- `_require_active_spec`
      attend
      let changed ← quotaChanged candidate spec
      rerouteIf changed reroute do
        let ended ← takeTurn call decision rerouted claimed attempt candidate spec
        suspendDrifted ended
        conclude decision ended spec (receiptIds ++ [ended.receiptId])
          (attempts reroute candidates (attempt + 1) (receiptIds ++ [ended.receiptId])
            (some (ended, spec)))

end Turns

/-! ## The call -/

def redactedInput : Fault :=
  .error (.configuration ("persisted decisions have redacted inputs and cannot be executed; " ++
    "reroute using the original ActionRequest"))

def routeAction (action : ActionRequest) : DirectM RouteDecision := do
  attend
  let routing ← drawDirect DirectEnv.route
  pure (routing.decision action)

/-- A decision that is not the one that was validated is routed again. -/
def revalidate (fixed : Bool) (decision : RouteDecision) : DirectM RouteDecision := do
  let validated ← drawDirect DirectEnv.validated
  if validated then pure decision
  else do
    complain fixed (.error (.configuration "fixed dispatch identity changed"))
    complain decision.action.redacted redactedInput
    routeAction decision.action

def begin (fixed : Bool) (decision : RouteDecision) : DirectM RouteDecision := do
  attend
  let decision ← revalidate fixed decision
  complain decision.action.redacted redactedInput
  complain (candidateOrder decision = [] ∨ decision.selectedExecutorId = none)
    (.noRoute decision.explanation)
  pure decision

variable (call : DirectCall)

def executeTurns (fixed rerouted claimed : Bool) (reroute : Option (DirectM DirectOutcome))
    (decision : RouteDecision) : DirectM DirectOutcome :=
  attempts call decision rerouted claimed reroute
    ((candidateOrder decision).take (maxAttempts fixed decision)) 1 [] none

/-- `execute` of the action, routed again; the new decision is not a fixed one. -/
def executeAgain (claimed : Bool) (action : ActionRequest) : DirectM DirectOutcome := do
  let routed ← routeAction action
  let decision ← begin false routed
  executeTurns call false true claimed none decision

/-- The part of `execute` below the claim of its key. -/
def executeOnce (claimed : Bool) (decision : RouteDecision) : DirectM DirectOutcome :=
  executeTurns call call.fixed false claimed (some (executeAgain call claimed decision.action))
    decision

def statusOf (text : String) : Option ExecutionStatus :=
  [.success, .failed, .timeout, .rejected, .hostSelected, .delegated, .unknown].find? fun status =>
    ExecutionStatus.text status = text

/-- What a call answers whose key has a record. -/
def replay (decision : RouteDecision) (report : IdempotencyReport) : DirectM DirectOutcome := do
  complain (report.state ≠ .complete)
    (.error (.configuration ("idempotent action '" ++ decision.action.idempotencyKey.getD "" ++
      "' is already in progress")))
  let w ← onWorld Process.get
  match report.status.bind statusOf with
  | none => Process.raise (.error (.value "not a valid ExecutionStatus"))
  | some status =>
    pure (outcomeOf decision (status ∈ [.success, .delegated, .hostSelected]) status
      (report.receiptIds.filter fun id => (w.store.evidence.receipts.find? id).isSome))

/-- The call that `execute` makes of itself under the claim of a key. -/
def executeClaimed (decision : RouteDecision) : DirectM DirectOutcome := do
  let decision ← begin call.fixed decision
  executeOnce call true decision

def executeKeyed (key : String) (decision : RouteDecision) : DirectM DirectOutcome := do
  let found ← claimKey key decision.action.requestHash
  match found with
  | some report => replay decision report
  | none => do
    let outcome ← (executeClaimed call decision).guarded Fault.isException (giveUpKey key)
    completeKeyWith key outcome
    pure outcome

def execute (decision : RouteDecision) : DirectM DirectOutcome := do
  let decision ← begin call.fixed decision
  if call.dryRun then pure (outcomeOf decision true .unknown [])
  else
    match decision.action.idempotencyKey with
    | none => executeOnce call false decision
    | some key => executeKeyed call key decision

def executeAction (action : ActionRequest) : DirectM DirectOutcome := do
  let routed ← routeAction action
  execute call routed

end AeepRouter.Router

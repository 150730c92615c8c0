import AeepRouter.Economic.Accounting
import AeepRouter.Lib.Binary
import AeepRouter.Workflow.Sessions

/-!
# The cash budget of a workflow

How the rounds of a workflow are admitted: the offline path routes every ready step within what is
left of the budget, the economic path prepares the steps of the wave and adds up their maxima. An
`Offer` has the answers of routing, preparation, quotas and executors in one round; `Offer.round`
is the round the code makes of them.

`fundedLoop` is the loop of `execute_workflow` with the cash every wave was begun under, and a
`Spending` a session with it (`fundedLoop_eq_loop`, `Spending.resume_session`). The reservations of
quotas are one answer.
-/

namespace AeepRouter.Workflow

open Lib Stack

/-! ## Accounting -/

/-- What a workflow is paid under: its `max_cash_usd`, the settlement currency, and
`receipt.accounting.cash`. -/
structure Terms where
  maxCashUsd : Option ℚ
  settlementCurrency : String
  accounting : Receipt → CashAccounting

def Terms.aggregateCash (terms : Terms) (receipts : List Receipt) : CashAccounting :=
  let items := (independentReceipts receipts).map terms.accounting
  let components := items.flatMap (·.components)
  if items = [] then ⟨.unavailable, components⟩
  else if items.any (·.status = .conflict) then ⟨.conflict, components⟩
  else if items.any (·.status ≠ .complete) then
    ⟨if components = [] then .unavailable else .partialEvidence, components⟩
  else ⟨.complete, components⟩

/-- The accounted cash of some receipts; nothing was spent where there are none. -/
def Terms.accountedCash (terms : Terms) (currency : String) (receipts : List Receipt) : Option ℚ :=
  if receipts = [] then some 0 else (terms.aggregateCash receipts).actualCashCost currency

/-! ## Limits -/

/-- `float(value)`. -/
def float (q : ℚ) : ℚ := Binary.round 53 q

def strictestMax : Option ℚ → Option ℚ → Option ℚ
  | none, b => b
  | some a, none => some a
  | some a, some b => some (min a b)

/-- `rejection_reasons` finds no fault with a cash upper bound under a limit. -/
def withinLimit : Option ℚ → Option ℚ → Bool
  | none, _ => true
  | some _, none => false
  | some limit, some upper => float upper ≤ limit

/-! ## Offers -/

/-- A route to an executor, feasible but for its cash. -/
structure Route where
  upperBound : Option ℚ
  exclusive : Bool
  nonneg : ∀ upper ∈ upperBound, 0 ≤ upper

/-- What a workflow reads of a `PreparedRouteDecision`. -/
structure Prepared where
  feasible : Bool
  maximum : Option CurrencyAmount
  authorizationKind : Option String
  authorizationId : Option String
  expected : CashAccounting
  contextAvailable : Bool

/-- Why a prepared step cannot be part of a wave. -/
def Prepared.invalid (currency : String) (prepared : Prepared) : Option String :=
  if ¬ prepared.feasible then some "no prepared route is feasible"
  else
    match prepared.maximum with
    | none => some "prepared cash maximum is unknown"
    | some maximum =>
      if maximum.currency ≠ currency then some "prepared cash currency is inconsistent"
      else if 0 < maximum.amount ∧
          (prepared.authorizationKind = none ∨ prepared.authorizationId = none) then
        some "nonzero cash maximum lacks immutable authorization"
      else if maximum.amount = 0 ∧ prepared.authorizationKind = none ∧
          prepared.expected.actualCashCost currency ≠ some 0 then
        some "unknown cash cannot be treated as confirmed free"
      else if ¬ prepared.contextAvailable then some "prepared workflow context is unavailable"
      else none

/-- What is answered in one round. -/
structure Offer where
  /-- The strictest `max_cost_usd` of the constraints of a step. -/
  maxCost : WorkflowStep → Option ℚ
  /-- `route_with_discovery`: the routes, best first, and why there is none. -/
  routes : WorkflowStep → Json → Result (List Route × String)
  /-- A route of the step could be consequential, delegated or exclusive. -/
  consequential : WorkflowStep → Json → Bool
  /-- `prepare_route` under a limit, or the type of its exception. -/
  prepare : WorkflowStep → Json → Option ℚ → Except String Prepared
  /-- The first pool whose quota a wave exceeds. -/
  exceeded : List WorkflowStep → Option String
  call : WorkflowStep → Json → StepCall

/-- What ends a workflow before a wave is run. -/
inductive Ending where
  | raised (error : Err)
  | refused (error : String)

def Ending.admission : Ending → Admission
  | raised error => .raised error
  | refused error => .refused error

def refuseSome : Option String → Except Ending Unit
  | none => .ok ()
  | some error => .error (.refused error)

def raising {α : Type} : Result α → Except Ending α
  | .ok a => .ok a
  | .error error => .error (.raised error)

section Admission

variable (terms : Terms) (workflow : WorkflowRequest) (p : Progress) (o : Offer)

/-- The input of a step, once it is known to resolve. -/
def inputOf (step : WorkflowStep) : Json :=
  match resolve workflow p step with
  | .ok input => input
  | .error _ => step.action.input

/-! ### Offline -/

/-- What is left of the budget. -/
def Terms.remaining : Except Ending (Option ℚ) :=
  match terms.maxCashUsd with
  | none => .ok none
  | some budget =>
    match terms.accountedCash "USD" p.receipts with
    | none => .error (.refused "workflow cash is unavailable under a finite budget")
    | some spent => .ok (some (max 0 (float (dec (budget - spent)))))

/-- The route the offline path selects for a step. -/
def Offer.routed (step : WorkflowStep) : Except Ending Route := do
  let remaining ← terms.remaining p
  let input ← raising (resolve workflow p step)
  let answer ← raising (o.routes step input)
  require (answer.1.find? fun route =>
    withinLimit (strictestMax (o.maxCost step) remaining) route.upperBound) (.refused answer.2)

def Offer.runsAlone (step : WorkflowStep) : Bool :=
  match o.routed terms workflow p step with
  | .ok route => route.exclusive
  | .error _ => false

def Offer.admitOffline : Except Ending (WorkflowStep → Bool) := do
  let _ ← (ready workflow p).mapM (o.routed terms workflow p)
  refuseSome ((o.exceeded (waveOf (o.runsAlone terms workflow p) (ready workflow p))).map fun pool =>
    "parallel subscription reservation exceeds '" ++ pool ++ "'")
  pure (o.runsAlone terms workflow p)

/-! ### Economic -/

def Terms.remainingCash : Option ℚ :=
  terms.maxCashUsd.map fun budget =>
    dec (budget - (terms.accountedCash terms.settlementCurrency p.receipts).getD 0)

def Offer.prepared (step : WorkflowStep) : Except String Prepared :=
  o.prepare step (inputOf workflow p step)
    (strictestMax (o.maxCost step) ((terms.remainingCash p).map float))

/-- `maximum_cash_authorization.amount`. -/
def Offer.maximum (step : WorkflowStep) : ℚ :=
  match o.prepared terms workflow p step with
  | .ok prepared => prepared.maximum.elim 0 (·.amount)
  | .error _ => 0

def Offer.preparedWave : List WorkflowStep :=
  waveOf (fun step => o.consequential step (inputOf workflow p step)) (ready workflow p)

/-- The first step of the wave whose preparation raised. -/
def Offer.preparationError : Option String :=
  (o.preparedWave workflow p).findSome? fun step =>
    match o.prepared terms workflow p step with
    | .ok _ => none
    | .error type => some ("step " ++ step.stepId ++ " preparation failed: " ++ type)

/-- The first prepared step that cannot be part of the wave. -/
def Offer.invalidStep : Option String :=
  (o.preparedWave workflow p).findSome? fun step =>
    match o.prepared terms workflow p step with
    | .ok prepared => (prepared.invalid terms.settlementCurrency).map fun reason =>
      "step " ++ step.stepId ++ " failed: " ++ reason
    | .error _ => none

def Offer.admitEconomic : Except Ending (WorkflowStep → Bool) := do
  let accounted := terms.accountedCash terms.settlementCurrency p.receipts
  raiseIf (terms.maxCashUsd ≠ none ∧ terms.settlementCurrency ≠ "USD")
    (.refused "USD workflow budget cannot authorize another currency")
  raiseIf (terms.maxCashUsd ≠ none ∧ accounted = none)
    (.refused "workflow cash is unavailable under a finite budget")
  raiseIf (∃ left ∈ terms.remainingCash p, left < 0)
    (.refused "workflow cash budget is already exhausted")
  let _ ← raising ((ready workflow p).mapM (resolve workflow p))
  refuseSome (o.preparationError terms workflow p)
  refuseSome (o.invalidStep terms workflow p)
  raiseIf (∃ budget ∈ terms.maxCashUsd, budget < dec (accounted.getD 0 +
      decSum ((o.preparedWave workflow p).map (o.maximum terms workflow p))))
    (.refused "prepared workflow cash maxima exceed the workflow budget")
  refuseSome ((o.exceeded (o.preparedWave workflow p)).map fun pool =>
    "parallel subscription reservation exceeds '" ++ pool ++ "'")
  pure fun step => o.consequential step (inputOf workflow p step)

/-! ### Rounds -/

def Offer.admittance (economic : Bool) : Except Ending (WorkflowStep → Bool) :=
  if economic then o.admitEconomic terms workflow p else o.admitOffline terms workflow p

def Offer.round (economic : Bool) : Round where
  admission :=
    match o.admittance terms workflow p economic with
    | .ok exclusive => .admitted exclusive
    | .error ending => ending.admission
  call := o.call

/-- The cash upper bound, or the prepared maximum, with which a step was selected. -/
def Offer.bound (economic : Bool) (step : WorkflowStep) : ℚ :=
  if economic then o.maximum terms workflow p step
  else
    match o.routed terms workflow p step with
    | .ok route => route.upperBound.getD 0
    | .error _ => 0

end Admission

/-! ## Funded waves -/

/-- A step that was started, with the bound it was selected with, and the receipt of its outcome
from outside. -/
structure Executed where
  bound : ℚ
  member : Member
  terminal : Option Receipt := none

def Executed.made (e : Executed) : List Receipt := e.member.call.made ++ e.terminal.toList

/-- A wave with the receipts that were accounted for when it began. -/
structure Funding where
  economic : Bool
  receipts : List Receipt
  executed : List Executed

def Funding.wave (f : Funding) : Wave := ⟨f.economic, f.executed.map (·.member)⟩

/-- The bounds of the steps of a wave. -/
def Funding.bounds (f : Funding) : List ℚ := f.executed.map (·.bound)

section Loop

variable (terms : Terms) (economic : Bool) (workflow : WorkflowRequest)

def Offer.funding (o : Offer) (p : Progress) (wave : Wave) : Funding where
  economic := wave.economic
  receipts := p.receipts
  executed := wave.members.map fun m =>
    ⟨(workflow.steps.find? (·.stepId = m.stepId)).elim 0 (o.bound terms workflow p economic), m,
      none⟩

def fundedLoop : List Offer → Progress → List Funding × Result WorkflowOutcome
  | [], p => ([], (opening workflow p).getD (.error .fault))
  | o :: offers, p =>
    match opening workflow p with
    | some result => ([], result)
    | none =>
      match (o.round terms workflow p economic).run economic workflow p with
      | .error result => ([], result)
      | .ok wave =>
        match wave.merge p with
        | .halt p' verdict =>
          ([o.funding terms economic workflow p wave], workflowResult workflow p' verdict)
        | .proceed p' =>
          let rest := fundedLoop offers p'
          (o.funding terms economic workflow p wave :: rest.1, rest.2)

/-- The rounds of a call, each made of the progress it begins at. -/
def roundsOf : List Offer → Progress → List Round
  | [], _ => []
  | o :: offers, p =>
    o.round terms workflow p economic ::
      match (o.round terms workflow p economic).run economic workflow p with
      | .error _ => []
      | .ok wave =>
        match wave.merge p with
        | .halt _ _ => []
        | .proceed p' => roundsOf offers p'

@[simp] theorem Offer.funding_wave (o : Offer) (p : Progress) (wave : Wave) :
    (o.funding terms economic workflow p wave).wave = wave := by
  simp [funding, Funding.wave, Function.comp_def]

theorem fundedLoop_eq_loop (offers : List Offer) (p : Progress) :
    loop economic workflow (roundsOf terms economic workflow offers p) p =
      ((fundedLoop terms economic workflow offers p).1.map (·.wave),
        (fundedLoop terms economic workflow offers p).2) := by
  induction offers generalizing p with
  | nil => rfl
  | cons o offers ih =>
    rw [roundsOf, loop, fundedLoop]
    cases opening workflow p with
    | some result => rfl
    | none =>
      cases hrun : (o.round terms workflow p economic).run economic workflow p with
      | error result => rfl
      | ok wave =>
        cases hmerge : wave.merge p with
        | halt p' verdict => simp [hmerge]
        | proceed p' => simp [hmerge, ih p']

/-- `execute_workflow`. -/
def fundedWorkflow (preflight : Result Unit) (offers : List Offer) (initial : Progress) :
    List Funding × Result WorkflowOutcome :=
  match preflight with
  | .error error => ([], .error error)
  | .ok () => fundedLoop terms economic workflow offers initial

theorem fundedWorkflow_eq (preflight : Result Unit) (offers : List Offer) (initial : Progress) :
    executeWorkflow economic workflow
        ⟨preflight, roundsOf terms economic workflow offers initial⟩ initial =
      ((fundedWorkflow terms economic workflow preflight offers initial).1.map (·.wave),
        (fundedWorkflow terms economic workflow preflight offers initial).2) := by
  unfold executeWorkflow fundedWorkflow
  cases preflight with
  | error error => rfl
  | ok u => exact fundedLoop_eq_loop terms economic workflow offers initial

end Loop

/-! ## Sessions -/

/-- A session with its waves as they were funded and the steps that were started, the latest
first. -/
structure Spending where
  session : Session := {}
  fundings : List Funding := []
  executed : List Executed := []

/-- A resumption, with what is answered in its rounds. -/
structure FundedResumption where
  stepId : String
  output : Json
  admitted : Result Unit
  terminal : Receipt
  preflight : Result Unit
  offers : List Offer

def FundedResumption.resumption (r : FundedResumption) (rounds : List Round) : Resumption :=
  ⟨r.stepId, r.output, r.admitted, r.terminal, ⟨r.preflight, rounds⟩⟩

def FundedResumption.initial (r : FundedResumption) (prior : WorkflowOutcome) : Progress :=
  ⟨prior.stepOutputs.insert r.stepId r.output, prior.receipts ++ [r.terminal]⟩

/-- The outcome from outside belongs to the last start of its step. -/
def report (stepId : String) (terminal : Receipt) : List Executed → List Executed
  | [] => []
  | e :: rest =>
    if e.member.stepId = stepId then { e with terminal := some terminal } :: rest
    else e :: report stepId terminal rest

namespace Spending

variable (terms : Terms) (economic : Bool) (workflow : WorkflowRequest)

/-- The steps a call started, the latest first. -/
def startedBy (fundings : List Funding) : List Executed :=
  (fundings.flatMap (·.executed)).reverse

def conclude (s : Spending) (call : List Funding × Result WorkflowOutcome) : Spending where
  session := s.session.conclude (call.1.map (·.wave), call.2)
  fundings := s.fundings ++ call.1
  executed := startedBy call.1 ++ s.executed

def start (preflight : Result Unit) (offers : List Offer) : Spending :=
  conclude {} (fundedWorkflow terms economic workflow preflight offers ⟨∅, []⟩)

/-- `resume_workflow`, with the last waiting outcome. -/
def resume (s : Spending) (r : FundedResumption) : Spending :=
  match s.session.waiting with
  | none => s
  | some prior =>
    match (r.resumption []).check workflow s.session prior with
    | .error _ => { s with session := { s.session with last := none } }
    | .ok decisionId =>
      conclude
        { s with
          session := { s.session with
            reported := decisionId :: s.session.reported
            log := s.session.log ++ [.reported r.terminal] }
          executed := report r.stepId r.terminal s.executed }
        (fundedWorkflow terms economic workflow r.preflight r.offers (r.initial prior))

def roundsOf (s : Spending) (r : FundedResumption) : List Round :=
  s.session.waiting.elim [] fun prior =>
    Workflow.roundsOf terms economic workflow r.offers (r.initial prior)

def spending (enabled requirePrepared : Bool) (preflight : Result Unit) (offers : List Offer)
    (resumptions : List FundedResumption) : Spending :=
  run (resume terms enabled workflow)
    (start terms (enabled || requirePrepared) workflow preflight offers) resumptions

theorem start_session (preflight : Result Unit) (offers : List Offer) :
    (start terms economic workflow preflight offers).session =
      Session.start economic workflow
        ⟨preflight, Workflow.roundsOf terms economic workflow offers ⟨∅, []⟩⟩ := by
  rw [Session.start, fundedWorkflow_eq]
  rfl

theorem resume_session (s : Spending) (r : FundedResumption) :
    (s.resume terms economic workflow r).session =
      s.session.resume economic workflow
        (r.resumption (s.roundsOf terms economic workflow r)) := by
  obtain ⟨session, fundings, executed⟩ := s
  obtain ⟨checkpoint, waiting, last, reported, log⟩ := session
  cases waiting with
  | none => rfl
  | some prior =>
    have hcheck (rounds : List Round) (t : Session) : (r.resumption rounds).check workflow t prior =
        (r.resumption []).check workflow t prior := rfl
    simp only [resume, Session.resume, roundsOf, Option.elim_some, hcheck]
    cases (r.resumption []).check workflow _ prior with
    | error error => rfl
    | ok decisionId =>
      simp only [conclude, ← fundedWorkflow_eq]
      rfl

end Spending

end AeepRouter.Workflow

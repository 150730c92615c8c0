import AeepRouter.Economic.Pricing
import AeepRouter.Benchmark.Records

/-!
# The cash ceiling of a campaign

`preflight` prices a suite before its first trial: the cash upper bounds of the executors of every
route, times a number of trials for each route, must fit into the ceiling of the suite. What the
router knows of an executor is given (`RouterView`), and so are the executors of a route; the routes
that are frozen for the held-out cases are left out.
-/

namespace AeepRouter.Benchmark

open Lib

structure BenchmarkRoute where
  routeId : String
  provider : Option String
  model : Option String
  actualRateSnapshotId : Option String
  counterfactualRateSnapshotId : Option String
  subscriptionRateSnapshotId : Option String
  deriving DecidableEq, Repr

structure PinnedSnapshot extends RateCardSnapshot where
  provider : String
  model : String
  deriving DecidableEq

/-- A suite with its routes and the fields that bound its cash. -/
structure PricedSuite extends BenchmarkSuite where
  benchmarkRoutes : List BenchmarkRoute
  pricingSnapshots : List PinnedSnapshot
  acknowledgeCashRisk : Bool
  maxTotalCashUsd : Option ℚ
  allowZeroSubscriptionWeight : Bool
  routes_eq : routes = benchmarkRoutes.map (·.routeId)
  cases_ne : cases ≠ []

/-- An executor of a route, by the fields the preflight reads. -/
structure RouteExecutor where
  id : String
  enabled : Bool
  sideEffect : SideEffect
  idempotent : Bool
  upperBoundUsd : Option ℚ
  resourcePool : Option String
  behaviorFingerprint : String
  /-- `capabilities().features`. -/
  features : List (String × String)
  nonneg : ∀ upper, upperBoundUsd = some upper → 0 ≤ upper

/-- The stored candidate of an executor, with its qualification report. -/
structure CandidateView where
  active : Bool
  behaviorFingerprint : String
  /-- Whether the report passed, and its fingerprint. -/
  report : Option (Bool × String)
  deriving DecidableEq

/-- What the preflight learns from the router. -/
structure RouterView where
  /-- `_benchmark_route_specs`. -/
  specs : BenchmarkRoute → Result (List RouteExecutor)
  candidate : String → Option CandidateView
  trialFingerprint : String → Option String
  subscriptionWeight : BenchmarkCase → ℚ

/-! ## Checks of a route -/

def TrialCondition.feature : TrialCondition → Option String
  | freshWorker => some "fresh_worker"
  | reusedWorker => some "reused_worker"
  | processCold | routerWarm | routerFresh => none

def requireFeature (feature : String) (spec : RouteExecutor) : Result Unit :=
  refuseIf (spec.features.lookup feature ≠ some "supported")
    ("executor capabilities unavailable: " ++ feature)

def requireFeatures (router : RouterView) (route : BenchmarkRoute) (condition : TrialCondition) :
    Result Unit :=
  match condition.feature with
  | none => pure ()
  | some feature => do
    let specs ← router.specs route
    specs.forM (requireFeature feature)

/-- `snapshots.get`: of two snapshots with one id the later counts. -/
def PricedSuite.snapshot (suite : PricedSuite) (id : String) : Option PinnedSnapshot :=
  suite.pricingSnapshots.reverse.find? (·.snapshotId = id)

def BenchmarkRoute.snapshotIds (route : BenchmarkRoute) : List String :=
  [route.actualRateSnapshotId, route.counterfactualRateSnapshotId,
    route.subscriptionRateSnapshotId].filterMap id

def requireSnapshots (suite : PricedSuite) (route : BenchmarkRoute) : Result Unit := do
  let found := route.snapshotIds.filterMap suite.snapshot
  refuseIf (found.length < route.snapshotIds.length)
    ("benchmark route '" ++ route.routeId ++ "' references an unknown rate snapshot")
  refuseIf (found.any fun snapshot =>
      (route.provider.isSome && route.provider ≠ some snapshot.provider) ||
        (route.model.isSome && route.model ≠ some snapshot.model))
    ("benchmark route '" ++ route.routeId ++ "' rate snapshot does not match provider/model")

def RouterView.exactlyActivated (router : RouterView) (spec : RouteExecutor) : Bool :=
  match router.candidate spec.id with
  | none => true
  | some candidate =>
    router.trialFingerprint spec.id = some spec.behaviorFingerprint ||
      (candidate.active && candidate.report = some (true, candidate.behaviorFingerprint) &&
        spec.behaviorFingerprint = candidate.behaviorFingerprint)

def requireExecutor (router : RouterView) (spec : RouteExecutor) : Result Unit := do
  refuseIf (spec.enabled = false) ("benchmark route '" ++ spec.id ++ "' is not active")
  refuseIf (router.exactlyActivated spec = false)
    ("benchmark route '" ++ spec.id ++ "' lacks exact activation evidence")
  refuseIf (SideEffect.read.rank < spec.sideEffect.rank ∨ spec.idempotent = false)
    "v1 benchmark routes must be read-only and idempotent"

/-- Whether the route is billed at a rate above zero. -/
def PricedSuite.pricedApi (suite : PricedSuite) (route : BenchmarkRoute) : Bool :=
  match route.actualRateSnapshotId.bind suite.snapshot with
  | none => false
  | some snapshot => snapshot.rates.any fun rate =>
    0 < rate.rateAmount ∧ rate.rateType ≠ .subscriptionUnit

/-! ## The planned cash -/

structure Exposure where
  plannedUpper : ℚ
  risky : Bool
  deriving DecidableEq, Repr

/-- `multiplier`: the trials of a route, and one set-up when a router is kept. -/
def BenchmarkSuite.multiplier (suite : BenchmarkSuite) : ℕ :=
  suite.repetitions * suite.cases.length * suite.conditions.length +
    if .routerWarm ∈ suite.conditions ∨ .reusedWorker ∈ suite.conditions then 1 else 0

def addExecutor (router : RouterView) (suite : PricedSuite) (route : BenchmarkRoute)
    (exposure : Exposure) (spec : RouteExecutor) : Result Exposure := do
  requireExecutor router spec
  refuseIf (suite.pricedApi route ∧ spec.upperBoundUsd.getD 0 ≤ 0)
    ("paid API benchmark route '" ++ spec.id ++ "' requires a positive cash upper bound")
  refuseIf (spec.upperBoundUsd = none ∧ suite.maxTotalCashUsd.isSome)
    ("benchmark route '" ++ spec.id ++ "' has no enforceable cash upper bound")
  pure {
    plannedUpper := match spec.upperBoundUsd with
      | none => exposure.plannedUpper
      | some upper => dec (exposure.plannedUpper + dec (upper * suite.multiplier))
    risky := exposure.risky || suite.pricedApi route ||
      match spec.upperBoundUsd with
      | none => true
      | some upper => 0 < upper }

def addRoute (router : RouterView) (suite : PricedSuite) (exposure : Exposure)
    (route : BenchmarkRoute) : Result Exposure := do
  suite.conditions.forM (requireFeatures router route)
  requireSnapshots suite route
  let specs ← router.specs route
  specs.foldlM (addExecutor router suite route) exposure

/-- Whether an executor of the suite draws on a subscription. -/
def subscribes (router : RouterView) (suite : PricedSuite) : Bool :=
  suite.benchmarkRoutes.any fun route =>
    ((router.specs route).toOption.getD []).any (·.resourcePool.isSome)

def preflight (router : RouterView) (suite : PricedSuite) : Result Unit := do
  let exposure ← suite.benchmarkRoutes.foldlM (addRoute router suite) ⟨0, false⟩
  refuseIf (exposure.risky ∧ (suite.acknowledgeCashRisk = false ∨ suite.maxTotalCashUsd = none))
    "paid or unknown-cash campaigns require acknowledgement and a total cash ceiling"
  refuseIf (∃ ceiling ∈ suite.maxTotalCashUsd, ceiling < exposure.plannedUpper)
    "planned benchmark cash upper bound exceeds campaign ceiling"
  refuseIf (subscribes router suite ∧ suite.allowZeroSubscriptionWeight = false ∧
      suite.cases.any (router.subscriptionWeight · = 0))
    "proof campaigns with subscription routes require a non-zero subscription weight"

end AeepRouter.Benchmark

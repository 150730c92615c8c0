import AeepRouter.Policy.Constraints

/-!
# Feasibility of an executor

`rejectionReasons` lists why an executor may not take a request. What it asks of the constraints is
`Accepts`, which only looser constraints can keep (`Accepts.mono`), so an executor that is feasible
under merged constraints is feasible under each of them.
-/

namespace AeepRouter.Policy

open Stack

/-! ## Executors and estimates -/

inductive Locality where
  | inProcess
  | localHost
  | lan
  | internet
  deriving DecidableEq, Repr

structure ExecutorSpec where
  id : String
  kind : ExecutorKind
  sideEffect : SideEffect
  locality : Locality
  requiresNetwork : Bool
  dataResidency : List String
  resourcePool : Option String
  /-- `bool(config.get("accepts_restricted_data", False))`. -/
  acceptsRestrictedData : Bool

structure SubscriptionUsage where
  resourcePool : String
  unit : String
  consumed : Option ℚ≥0

structure RouteEstimate where
  resources : ResourceVector
  upperBoundUsd : Option ℚ≥0
  subscriptionUsage : List SubscriptionUsage
  successProbability : ℚ≥0
  qualityScore : ℚ≥0
  riskScore : ℚ≥0

inductive QuotaState where
  | abundant
  | normal
  | tight
  | critical
  | exhausted
  | unknown
  deriving DecidableEq, Repr

def QuotaState.pressure : QuotaState → WithTop ℚ≥0
  | abundant => (1 / (10 : ℕ) : ℚ≥0)
  | normal => (1 / (2 : ℕ) : ℚ≥0)
  | tight => ((2 : ℕ) : ℚ≥0)
  | critical => ((8 : ℕ) : ℚ≥0)
  | exhausted => ⊤
  | unknown => (1 : ℚ≥0)

structure SubscriptionQuota where
  state : QuotaState
  unit : String
  remainingUnits : Option ℚ≥0

structure ComputeAvailability where
  availableMemoryMb : Option ℚ≥0 := none
  availableGpuMs : Option ℚ≥0 := none
  contextTokensRemaining : Option ℕ := none
  monetaryBudgetRemainingUsd : Option ℚ≥0 := none

structure ActionContext where
  dataSensitivity : DataSensitivity := .internalData
  compute : ComputeAvailability := {}

/-- What Python does with floats: `float(decimal)`, `f"{x:g}"` and `f"{x:.3f}"`; and `repr`. -/
structure Floats where
  ofDecimal : ℚ≥0 → ℚ≥0
  general : ℚ≥0 → String
  fixed : ℚ≥0 → String
  repr : Option String → String

def ExecutorSpec.isLocal (spec : ExecutorSpec) : Bool :=
  spec.locality ∈ [.inProcess, .localHost]

def ExecutorSpec.isRemote (spec : ExecutorSpec) : Bool :=
  spec.locality ∈ [.lan, .internet]

def kindValue : ExecutorKind → String
  | .command => "command"
  | .python => "python"
  | .http => "http"
  | .mcp => "mcp"
  | .host => "host"
  | .managedHost => "host_managed"
  | .delegate => "delegate"

def sideEffectValue : SideEffect → String
  | .none => "none"
  | .read => "read"
  | .write => "write"
  | .destructive => "destructive"
  | .financial => "financial"

/-! ## Reasons -/

def reasonIf (c : Prop) [Decidable c] (text : String) : List String := if c then [text] else []

@[simp] theorem reasonIf_eq_nil {c : Prop} [Decidable c] {text : String} :
    reasonIf c text = [] ↔ ¬ c := by
  simp [reasonIf]

section Reasons

variable (f : Floats) (spec : ExecutorSpec) (estimate : RouteEstimate)

def cashUpperBound : Option ℚ≥0 := estimate.upperBoundUsd.map f.ofDecimal

def subscriptionUnits : ℚ≥0 :=
  match spec.resourcePool with
  | none | some "" => estimate.resources.subscriptionUnits
  | some pool =>
    match estimate.subscriptionUsage.filter
      (fun item => item.resourcePool = pool ∧ item.consumed.isSome) with
    | [entry] => f.ofDecimal (entry.consumed.getD 0)
    | _ => estimate.resources.subscriptionUnits

def totalTokens : ℕ :=
  estimate.resources.contextTokens + estimate.resources.inputTokens + estimate.resources.outputTokens

/-- A row of `checks`. -/
def overMaximum (maximum : Option ℚ≥0) (actual : ℚ≥0) (label : String) : List String :=
  match maximum with
  | none => []
  | some maximum =>
    reasonIf (maximum < actual)
      ("estimated " ++ label ++ " " ++ f.general actual ++ " exceeds maximum " ++ f.general maximum)

/-- Cash under a limit, which it may not be if its upper bound is unknown. -/
def overCash (limit upper : Option ℚ≥0) (unavailable : String) (exceeds : ℚ≥0 → ℚ≥0 → String) :
    List String :=
  match limit, upper with
  | none, _ => []
  | some _, none => [unavailable]
  | some limit, some upper => reasonIf (limit < upper) (exceeds upper limit)

def residencyReasons (allowed : Option (List String)) : List String :=
  match allowed with
  | none => []
  | some allowed =>
    if ¬ spec.isRemote then []
    else if spec.dataResidency = [] then ["remote executor has unknown data residency"]
    else reasonIf (∀ region ∈ spec.dataResidency, region ∉ allowed)
      "executor data residency is outside allowed regions"

def constraintReasons (c : ActionConstraints) : List String :=
  let r := estimate.resources
  overMaximum f c.maxLatencyMs r.latencyMs "latency" ++
  overMaximum f c.maxCpuMs r.cpuMs "CPU" ++
  overMaximum f c.maxMemoryMbSeconds r.memoryMbSeconds "memory-time" ++
  overMaximum f c.maxPeakMemoryMb r.peakMemoryMb "peak memory" ++
  overMaximum f c.maxGpuMs r.gpuMs "GPU" ++
  overMaximum f (c.maxNetworkBytes.map Nat.cast) r.networkBytes "network" ++
  overMaximum f (c.maxContextTokens.map Nat.cast) (totalTokens estimate)
    "total model/context tokens" ++
  overCash c.maxCostUsd (cashUpperBound f estimate)
    "estimated cash upper bound is unavailable under a finite cost limit"
    (fun upper limit =>
      "estimated cost " ++ f.general upper ++ " exceeds maximum " ++ f.general limit) ++
  reasonIf (estimate.successProbability < c.minSuccessProbability)
    ("success probability " ++ f.fixed estimate.successProbability ++ " is below " ++
      f.fixed c.minSuccessProbability) ++
  reasonIf (estimate.qualityScore < c.minQualityScore)
    ("quality " ++ f.fixed estimate.qualityScore ++ " is below " ++ f.fixed c.minQualityScore) ++
  reasonIf (c.maxRiskScore < estimate.riskScore)
    ("risk " ++ f.fixed estimate.riskScore ++ " exceeds " ++ f.fixed c.maxRiskScore) ++
  reasonIf (c.maxSideEffect.rank < spec.sideEffect.rank)
    ("side effect " ++ sideEffectValue spec.sideEffect ++ " exceeds allowed " ++
      sideEffectValue c.maxSideEffect) ++
  reasonIf (¬ c.allowNetwork ∧ spec.requiresNetwork) "network access is disabled" ++
  reasonIf (c.requireLocal ∧ ¬ spec.isLocal) "policy requires a local executor" ++
  reasonIf (∃ kinds ∈ c.allowedExecutorKinds, spec.kind ∉ kinds)
    ("executor kind " ++ kindValue spec.kind ++ " is not allowed") ++
  reasonIf (∃ ids ∈ c.allowedExecutorIds, spec.id ∉ ids) "executor is not in the allowed id set" ++
  reasonIf (spec.id ∈ c.deniedExecutorIds) "executor is denied by id" ++
  residencyReasons spec c.allowedDataResidency

def availabilityReasons (context : ActionContext) (quota : Option SubscriptionQuota) : List String :=
  let available := context.compute
  let resource := "subscription resource " ++ f.repr spec.resourcePool
  reasonIf (context.dataSensitivity = .restricted ∧ spec.isRemote ∧ ¬ spec.acceptsRestrictedData)
    "restricted data cannot be sent to this remote executor" ++
  reasonIf (∃ q ∈ quota, q.state.pressure = ⊤) (resource ++ " is exhausted") ++
  reasonIf (∃ q ∈ quota, ∃ remaining ∈ q.remainingUnits,
      f.ofDecimal remaining < subscriptionUnits f spec estimate)
    (resource ++ " has insufficient units") ++
  reasonIf (∃ q ∈ quota, ∃ item ∈ estimate.subscriptionUsage,
      some item.resourcePool = spec.resourcePool ∧ item.unit ≠ q.unit)
    (resource ++ " unit does not match quota") ++
  reasonIf (∃ remaining ∈ available.contextTokensRemaining, remaining < totalTokens estimate)
    "estimated context usage exceeds remaining context budget" ++
  overCash available.monetaryBudgetRemainingUsd (cashUpperBound f estimate)
    "estimated cash upper bound is unavailable under remaining budget"
    (fun _ _ => "estimated cost exceeds remaining monetary budget") ++
  reasonIf (∃ memory ∈ available.availableMemoryMb, memory < estimate.resources.peakMemoryMb)
    "estimated peak memory exceeds currently available memory" ++
  reasonIf (∃ gpu ∈ available.availableGpuMs, gpu < estimate.resources.gpuMs)
    "estimated GPU usage exceeds currently available GPU capacity"

def rejectionReasons (c : ActionConstraints) (context : ActionContext)
    (quota : Option SubscriptionQuota) : List String :=
  constraintReasons f spec estimate c ++ availabilityReasons f spec estimate context quota

/-! ## What the constraints ask -/

@[simp] theorem overMaximum_eq_nil {maximum : Option ℚ≥0} {actual : ℚ≥0} {label : String} :
    overMaximum f maximum actual label = [] ↔ Under maximum actual := by
  cases maximum <;> simp [overMaximum, Under]

/-- Cash is known under a limit, and within it. -/
def Covered (limit upper : Option ℚ≥0) : Prop := ∀ l ∈ limit, ∃ u ∈ upper, u ≤ l

@[simp] theorem overCash_eq_nil {limit upper : Option ℚ≥0} {unavailable : String}
    {exceeds : ℚ≥0 → ℚ≥0 → String} :
    overCash limit upper unavailable exceeds = [] ↔ Covered limit upper := by
  cases limit <;> cases upper <;> simp [overCash, Covered]

/-- A remote executor keeps data in one of the regions, where these are limited. -/
def Resides (allowed : Option (List String)) : Prop :=
  ∀ regions ∈ allowed, spec.isRemote → ∃ region ∈ spec.dataResidency, region ∈ regions

@[simp] theorem residencyReasons_eq_nil {allowed : Option (List String)} :
    residencyReasons spec allowed = [] ↔ Resides spec allowed := by
  cases allowed with
  | none => simp [residencyReasons, Resides]
  | some regions =>
    simp only [residencyReasons, Resides, Option.mem_def, Option.some.injEq, forall_eq']
    by_cases hremote : spec.isRemote
    · by_cases hnone : spec.dataResidency = []
      · simp [hremote, hnone]
      · simp [hremote, hnone]
    · simp [hremote]

theorem under_of_within {α : Type} [Preorder α] {a b : Option α} {actual : α} (h : Within a b)
    (hunder : Under a actual) : Under b actual := fun y hy =>
  have ⟨x, hx, hle⟩ := h y hy
  (hunder x hx).trans hle

/-- What the constraints ask of an executor and its estimate. -/
@[mk_iff] structure Accepts (c : ActionConstraints) : Prop where
  latency : Under c.maxLatencyMs estimate.resources.latencyMs
  cpu : Under c.maxCpuMs estimate.resources.cpuMs
  memory : Under c.maxMemoryMbSeconds estimate.resources.memoryMbSeconds
  peakMemory : Under c.maxPeakMemoryMb estimate.resources.peakMemoryMb
  gpu : Under c.maxGpuMs estimate.resources.gpuMs
  network : Under c.maxNetworkBytes estimate.resources.networkBytes
  tokens : Under c.maxContextTokens (totalTokens estimate)
  cost : Covered c.maxCostUsd (cashUpperBound f estimate)
  success : c.minSuccessProbability ≤ estimate.successProbability
  quality : c.minQualityScore ≤ estimate.qualityScore
  risk : estimate.riskScore ≤ c.maxRiskScore
  sideEffect : spec.sideEffect.rank ≤ c.maxSideEffect.rank
  networkAccess : spec.requiresNetwork → c.allowNetwork
  locality : c.requireLocal → spec.isLocal
  kind : ∀ kinds ∈ c.allowedExecutorKinds, spec.kind ∈ kinds
  allowed : ∀ ids ∈ c.allowedExecutorIds, spec.id ∈ ids
  denied : spec.id ∉ c.deniedExecutorIds
  residency : Resides spec c.allowedDataResidency

theorem under_map_cast {maximum : Option ℕ} {actual : ℕ} :
    Under (maximum.map Nat.cast) (actual : ℚ≥0) ↔ Under maximum actual := by
  cases maximum <;> simp [Under]

theorem constraintReasons_eq_nil {c : ActionConstraints} :
    constraintReasons f spec estimate c = [] ↔ Accepts f spec estimate c := by
  rw [accepts_iff]
  simp only [constraintReasons, List.append_eq_nil_iff, overMaximum_eq_nil, under_map_cast,
    overCash_eq_nil, reasonIf_eq_nil, residencyReasons_eq_nil, not_lt, not_and, not_not, not_exists,
    not_imp_not, and_assoc]

variable {f spec estimate}

theorem Accepts.mono {c c' : ActionConstraints} (h : Narrows c c')
    (haccepts : Accepts f spec estimate c) : Accepts f spec estimate c' where
  latency := under_of_within h.maxLatencyMs haccepts.latency
  cpu := under_of_within h.maxCpuMs haccepts.cpu
  memory := under_of_within h.maxMemoryMbSeconds haccepts.memory
  peakMemory := under_of_within h.maxPeakMemoryMb haccepts.peakMemory
  gpu := under_of_within h.maxGpuMs haccepts.gpu
  network := under_of_within h.maxNetworkBytes haccepts.network
  tokens := under_of_within h.maxContextTokens haccepts.tokens
  cost limit hlimit := by
    obtain ⟨limit', hlimit', hle⟩ := h.maxCostUsd limit hlimit
    obtain ⟨upper, hupper, hunder⟩ := haccepts.cost limit' hlimit'
    exact ⟨upper, hupper, hunder.trans hle⟩
  success := h.minSuccessProbability.trans haccepts.success
  quality := h.minQualityScore.trans haccepts.quality
  risk := haccepts.risk.trans h.maxRiskScore
  sideEffect := haccepts.sideEffect.trans h.maxSideEffect
  networkAccess hnetwork := h.allowNetwork (haccepts.networkAccess hnetwork)
  locality hlocal := haccepts.locality (h.requireLocal hlocal)
  kind kinds hkinds := by
    obtain ⟨kinds', hkinds', hsub⟩ := h.allowedExecutorKinds kinds hkinds
    exact hsub (haccepts.kind kinds' hkinds')
  allowed ids hids := by
    obtain ⟨ids', hids', hsub⟩ := h.allowedExecutorIds ids hids
    exact hsub (haccepts.allowed ids' hids')
  denied hdenied := haccepts.denied (h.deniedExecutorIds hdenied)
  residency regions hregions hremote := by
    obtain ⟨regions', hregions', hsub⟩ := h.allowedDataResidency regions hregions
    obtain ⟨region, hregion, hallowed⟩ := haccepts.residency regions' hregions' hremote
    exact ⟨region, hregion, hsub hallowed⟩

theorem rejectionReasons_mono {c c' : ActionConstraints} (h : Narrows c c')
    {context : ActionContext} {quota : Option SubscriptionQuota}
    (hnone : rejectionReasons f spec estimate c context quota = []) :
    rejectionReasons f spec estimate c' context quota = [] := by
  rw [rejectionReasons, List.append_eq_nil_iff, constraintReasons_eq_nil] at hnone ⊢
  exact ⟨hnone.1.mono h, hnone.2⟩

end Reasons

/-- A request only narrows a policy. Merging is associative, commutative up to the order and the
repetitions of what its lists allow, and idempotent but for the denied identifiers, which it sorts. -/
theorem merge_only_narrows (policy request : ActionConstraints) :
    (∀ f spec estimate context quota,
      rejectionReasons f spec estimate (mergeConstraints policy request) context quota = [] →
        rejectionReasons f spec estimate policy context quota = [] ∧
        rejectionReasons f spec estimate request context quota = []) ∧
    (∀ other, mergeConstraints (mergeConstraints policy request) other =
      mergeConstraints policy (mergeConstraints request other)) ∧
    mergeConstraints policy policy =
      { policy with deniedExecutorIds := sortedSet policy.deniedExecutorIds } ∧
    SameButEntries (mergeConstraints policy request) (mergeConstraints request policy) :=
  ⟨fun _ _ _ _ _ hnone => ⟨rejectionReasons_mono (merge_narrows_left policy request) hnone,
      rejectionReasons_mono (merge_narrows_right policy request) hnone⟩,
    mergeConstraints_assoc policy request, mergeConstraints_self policy,
    mergeConstraints_comm policy request⟩

/-- Nothing is rounded and everything prints alike. -/
def exactFloats : Floats := ⟨id, fun _ => "", fun _ => "", fun _ => ""⟩

def localCommand : ExecutorSpec :=
  ⟨"search", .command, .read, .localHost, false, [], none, false⟩

/-- It takes nothing, costs nothing and is expected to succeed. -/
def freeEstimate : RouteEstimate := ⟨{}, some 0, [], 1, 1, 0⟩

theorem merge_only_narrows_local :
    rejectionReasons exactFloats localCommand freeEstimate { maxCostUsd := some 1 } {} none = [] ∧
    rejectionReasons exactFloats localCommand freeEstimate { requireLocal := true } {} none = [] :=
  (merge_only_narrows { maxCostUsd := some 1 } { requireLocal := true }).1 exactFloats localCommand
    freeEstimate {} none (by decide +kernel)

/-- Constraints merged with themselves sort their denied identifiers, and what is allowed twice is
allowed as often as the side that comes first says. -/
theorem merge_lists :
    mergeConstraints { deniedExecutorIds := ["b", "a"] } { deniedExecutorIds := ["b", "a"] } ≠
      { deniedExecutorIds := ["b", "a"] } ∧
    (mergeConstraints { deniedExecutorIds := ["b", "a"] }
        { deniedExecutorIds := ["b", "a"] }).deniedExecutorIds = ["a", "b"] ∧
    (mergeConstraints { allowedExecutorIds := some ["a", "a"] }
        { allowedExecutorIds := some ["a"] }).allowedExecutorIds = some ["a", "a"] ∧
    (mergeConstraints { allowedExecutorIds := some ["a"] }
        { allowedExecutorIds := some ["a", "a"] }).allowedExecutorIds = some ["a"] ∧
    ¬ ["a", "a"].Perm ["a"] := by
  decide +kernel

end AeepRouter.Policy

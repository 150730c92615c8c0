import AeepRouter.Router.DirectKeys
import AeepRouter.Router.Registry

/-!
# Routing

`route` scores the executors of a capability, ranks the feasible ones by their totals and selects the
first, or abstains and keeps the baseline of the policy where the gain is within its overhead.
Whatever it selects is no worse than the best by more than that (`route_decides`), and no candidate is
ranked before one that is better in everything (`ranked_by_merit`).

`execute` goes by the ranks. So it does not begin with the baseline that a decision retains, unless that
is the best as well (`executed_first`). The arithmetic on scores is taken to be exact.
-/

namespace AeepRouter.Router

open Lib Policy

/-! ## Policies -/

structure RoutingAbstentionConfig where
  enabled : Bool
  baselineExecutorId : Option String
  minimumScoreGain : ℚ≥0
  overheadP95Ms : ℚ≥0

structure RoutingPolicy extends PolicyConfig where
  name : String
  abstention : RoutingAbstentionConfig
  fallback : FallbackConfig

inductive RouteDisposition where
  | selected
  | bypassRouter
  deriving DecidableEq, Repr

inductive RouteBypassReason where
  | onlyOneFeasibleRoute
  | pinnedExecutor
  | optimizationValueBelowOverhead
  deriving DecidableEq, Repr

/-- `value.replace("_", " ")`. -/
def RouteBypassReason.text : RouteBypassReason → String
  | onlyOneFeasibleRoute => "only one feasible route"
  | pinnedExecutor => "pinned executor"
  | optimizationValueBelowOverhead => "optimization value below overhead"

/-! ## Candidates -/

/-- What `route` meets, beside the registry and the policy. -/
structure RouteEnv where
  floats : Floats
  logs : Logarithms
  /-- `f"{x:.6f}"` and `f"{x:.1%}"`. -/
  six : ℚ → String
  percent : ℚ≥0 → String
  /-- `validate_json` under the schema of an executor. -/
  validate : RoutedSpec → Result (Option String)
  /-- `_require_active_spec`, with the text of a `NoRouteError`. -/
  inactive : RoutedSpec → Result (Option String)
  /-- `spec.estimate`. -/
  estimate : RoutedSpec → CostedEstimate
  /-- `estimator.estimate`. -/
  coldEstimate : RoutedSpec → Result CostedEstimate
  /-- `_subscription_quota`. -/
  quota : RoutedSpec → Result (Option Capacity.SubscriptionQuota)
  /-- `_cache_adjusted_estimate`. -/
  cacheAdjusted : RoutedSpec → CostedEstimate → Result (CostedEstimate × Option CacheAffinityEstimate)

section Route

variable (env : RouteEnv) (registry : Registry) (policy : RoutingPolicy) (context : ScoringContext)
  (capability : String)

def unscored (spec : RoutedSpec) (error : String) (resourcePool : Option String)
    (quota : Option Capacity.SubscriptionQuota) : ScoredCandidate :=
  { executorId := spec.id
    feasible := false
    rejectionReasons := [error]
    estimate := env.estimate spec
    resourcePool := resourcePool
    subscriptionQuota := quota
    cacheAffinity := none
    score := none
    rank := none }

def scored (spec : RoutedSpec) (estimate : CostedEstimate) : Result ScoredCandidate := do
  let quota ← env.quota spec
  scoreCandidate env.floats env.logs spec.toExecutorSpec estimate policy.toPolicyConfig context quota

/-- A candidate that is feasible when it is cold is scored with what its cache may save. -/
def warmed (spec : RoutedSpec) (coldEstimate : CostedEstimate) (cold : ScoredCandidate) :
    Result ScoredCandidate :=
  if cold.feasible then do
    let (estimate, affinity) ← env.cacheAdjusted spec coldEstimate
    let candidate ← scored env policy context spec estimate
    pure { candidate with cacheAffinity := affinity }
  else pure cold

/-- The candidate of an executor that accepts the input. -/
def candidateOf (spec : RoutedSpec) : Result ScoredCandidate := do
  match ← env.inactive spec with
  | some error => pure (unscored env spec error none none)
  | none => do
    let coldEstimate ← env.coldEstimate spec
    let cold ← scored env policy context spec coldEstimate
    warmed env policy context spec coldEstimate cold

/-- The candidate of an executor that does not accept the input. -/
def misfitOf (error : String × String) : Result ScoredCandidate := do
  let spec ← registry.get error.1
  let quota ← env.quota spec
  pure (unscored env spec error.2 spec.resourcePool quota)

def candidatesOf : Result (List ScoredCandidate) := do
  let (compatible, errors) ← registry.compatible env.validate capability
  let candidates ← compatible.mapM (candidateOf env policy context)
  let misfits ← (sortOn Prod.fst errors).mapM (misfitOf env registry)
  pure (candidates ++ misfits)

end Route

/-! ## Ranks -/

/-- `item.score.total`. -/
def total (candidate : ScoredCandidate) : ℚ := (candidate.score.map (·.total)).getD 0

def rankKey (candidate : ScoredCandidate) : ℚ ×ₗ String := toLex (total candidate, candidate.executorId)

def isRanked (candidate : ScoredCandidate) : Bool := candidate.feasible && candidate.score.isSome

def feasibleOf (candidates : List ScoredCandidate) : List ScoredCandidate :=
  sortOn rankKey (candidates.filter isRanked)

/-- `enumerate(feasible, start=1)`. -/
def withRanks (feasible : List ScoredCandidate) : List ScoredCandidate :=
  (feasible.zipIdx 1).map fun (candidate, rank) => { candidate with rank := some rank }

def rejectedOf (candidates : List ScoredCandidate) : List ScoredCandidate :=
  sortOn (·.executorId) (candidates.filter fun item => !item.feasible)

/-! ## The choice -/

/-- What is chosen of the feasible candidates. -/
structure Choice where
  selectedExecutorId : Option String
  disposition : RouteDisposition
  baselineExecutorId : Option String
  bypassReason : Option RouteBypassReason
  expectedNetBenefit : Option ℚ

section Choose

variable (logs : Logarithms) (policy : RoutingPolicy) (feasible : List ScoredCandidate)

def overheadScore : ℚ :=
  policy.weights.normalized (·.latency) *
    logs.log1p (policy.abstention.overheadP95Ms / policy.references.latencyMs)

def candidateNamed (executorId : Option String) : Option ScoredCandidate :=
  feasible.find? fun item => some item.executorId = executorId

/-- The baseline, why the router is bypassed for it, and the net benefit of not doing so. -/
def abstain (best : ScoredCandidate) :
    Option ScoredCandidate × Option RouteBypassReason × Option ℚ :=
  let configured := candidateNamed feasible policy.abstention.baselineExecutorId
  if feasible.length = 1 then (some best, some .onlyOneFeasibleRoute, none)
  else
    match policy.constraints.allowedExecutorIds, configured with
    | some [allowed], _ =>
      let pinned := candidateNamed feasible (some allowed)
      (pinned, pinned.map fun _ => .pinnedExecutor, none)
    | _, some baseline =>
      let benefit := total baseline - total best - overheadScore logs policy
      (some baseline,
        if benefit ≤ policy.abstention.minimumScoreGain then some .optimizationValueBelowOverhead
        else none,
        some benefit)
    | _, none => (none, none, none)

def choose : Choice :=
  match feasible.head?, policy.abstention.enabled with
  | none, _ => ⟨none, .selected, none, none, none⟩
  | some best, false => ⟨some best.executorId, .selected, none, none, none⟩
  | some best, true =>
    match abstain logs policy feasible best with
    | (some baseline, some reason, benefit) =>
      ⟨some baseline.executorId, .bypassRouter, some baseline.executorId, some reason, benefit⟩
    | (baseline, reason, benefit) =>
      ⟨some best.executorId, .selected, baseline.map (·.executorId), reason, benefit⟩

end Choose

/-! ## The decision -/

/-- What `route` decides of a `RouteDecision`. -/
structure Routed extends Choice where
  candidates : List ScoredCandidate
  explanation : String

section Decide

variable (env : RouteEnv) (registry : Registry) (policy : RoutingPolicy) (capability : String)

def affinityText (winner : ScoredCandidate) : String :=
  match winner.cacheAffinity with
  | none => ""
  | some affinity =>
    " Cache affinity predicted " ++ env.percent affinity.warmProbability ++ " warm probability and " ++
      toString affinity.expectedReusableInputTokens ++ " reusable input tokens."

def explanationOf (candidates feasible rejected : List ScoredCandidate) (choice : Choice) : String :=
  if candidates = [] ∧ registry.find capability false = [] then
    "No enabled executor advertises capability '" ++ capability ++ "'."
  else
    match choice.selectedExecutorId, candidateNamed feasible choice.selectedExecutorId with
    | some selected, some winner =>
      (match choice.bypassReason with
        | some reason =>
          "Bypassed route optimization and retained '" ++ selected ++ "': " ++ reason.text ++
            ". Hard constraints still passed."
        | none =>
          "Selected '" ++ selected ++ "' from " ++ toString feasible.length ++
            " feasible route(s) under policy '" ++ policy.name ++ "'; lower score is better (winner " ++
            env.six (total winner) ++ ").") ++
        affinityText env winner
    | _, _ =>
      "No executor is feasible for '" ++ capability ++ "'; " ++ toString rejected.length ++
        " candidate(s) produced " ++
        toString (rejected.map fun item => item.rejectionReasons.length).sum ++
        " rejection reason(s)."

def decideOn (candidates : List ScoredCandidate) : Routed :=
  let feasible := feasibleOf candidates
  let rejected := rejectedOf candidates
  let choice := choose env.logs policy feasible
  { choice with
    candidates := withRanks feasible ++ rejected
    explanation := explanationOf env registry policy capability candidates feasible rejected choice }

def route (context : ScoringContext) : Result Routed := do
  let candidates ← candidatesOf env registry policy context capability
  pure (decideOn env registry policy capability candidates)

end Decide

/-- What `execute` reads of a candidate. -/
def Routed.candidate (item : ScoredCandidate) : CandidateScore :=
  ⟨item.executorId, item.feasible, item.rank, item.subscriptionQuota⟩

/-- What `execute` reads of a decision. -/
def Routed.routing (routed : Routed) (decisionId : String) (fallback : FallbackConfig) : Routing where
  decisionId := decisionId
  selectedExecutorId := routed.selectedExecutorId
  candidates := routed.candidates.map candidate
  fallback := fallback
  explanation := routed.explanation

/-! ## The candidates of a registry -/

section Candidates

variable {env : RouteEnv} {registry : Registry} {policy : RoutingPolicy} {context : ScoringContext}
  {capability : String} {spec : RoutedSpec} {candidate : ScoredCandidate}

/-- Every executor either accepts the input or has an error. -/
theorem admitted_perm {validate : RoutedSpec → Result (Option String)} (found : List RoutedSpec)
    {before after : List RoutedSpec × List (String × String)}
    (h : found.foldlM (Registry.admitInput validate) before = .ok after) :
    (after.1.map (·.id) ++ after.2.map Prod.fst).Perm
        (before.1.map (·.id) ++ before.2.map Prod.fst ++ found.map (·.id)) ∧
      ∀ spec ∈ after.1, spec ∈ before.1 ∨ spec ∈ found := by
  induction found generalizing before with
  | nil =>
    rw [List.foldlM_nil, pure_ok] at h
    exact h ▸ ⟨by simp, fun spec hspec => .inl hspec⟩
  | cons executor found ih =>
    simp only [List.foldlM_cons, bind_ok] at h
    obtain ⟨state, hstate, hrest⟩ := h
    obtain ⟨hperm, hmem⟩ := ih hrest
    unfold Registry.admitInput at hstate
    rw [bind_ok] at hstate
    obtain ⟨result, -, hstate⟩ := hstate
    cases result with
    | none =>
      obtain rfl := pure_ok.mp hstate
      refine ⟨hperm.trans ?_, fun spec hspec => ?_⟩
      · simp only [List.map_append, List.map_cons, List.map_nil, List.append_assoc,
          List.cons_append, List.nil_append]
        exact (List.perm_middle.symm).append_left _
      · rcases hmem spec hspec with hin | hin
        · refine (List.mem_append.mp hin).imp_right fun hlast => ?_
          rw [List.mem_singleton.mp hlast]
          exact .head _
        · exact .inr (.tail _ hin)
    | some error =>
      obtain rfl := pure_ok.mp hstate
      refine ⟨hperm.trans ?_, fun spec hspec => (hmem spec hspec).imp_right (.tail _)⟩
      simp only [List.map_append, List.map_cons, List.map_nil, List.append_assoc, List.cons_append,
        List.nil_append]
      exact .refl _

structure IsCandidate (env : RouteEnv) (policy : RoutingPolicy) (context : ScoringContext)
    (spec : RoutedSpec) (candidate : ScoredCandidate) : Prop where
  id : candidate.executorId = spec.id
  rank : candidate.rank = none
  scored : candidate.feasible = true → ∃ burden,
    rejectionReasons env.floats spec.toExecutorSpec candidate.estimate.toRouteEstimate
      policy.constraints context.toActionContext
      (candidate.subscriptionQuota.map (·.toSubscriptionQuota)) = [] ∧
    candidateBurden env.floats env.logs spec.toExecutorSpec candidate.estimate policy.toPolicyConfig
      candidate.subscriptionQuota = some burden ∧
    candidate.score = some (breakdownOf env.floats env.logs spec.toExecutorSpec candidate.estimate
      policy.toPolicyConfig context burden)
  rejected : candidate.feasible = false → candidate.rejectionReasons ≠ []

theorem isCandidate_unscored {error : String} {pool : Option String}
    {quota : Option Capacity.SubscriptionQuota} :
    IsCandidate env policy context spec (unscored env spec error pool quota) where
  id := rfl
  rank := rfl
  scored h := nomatch h
  rejected _ := List.cons_ne_nil _ _

theorem isCandidate_scored {estimate : CostedEstimate}
    (h : scored env policy context spec estimate = .ok candidate) :
    IsCandidate env policy context spec candidate := by
  simp only [scored, bind_ok] at h
  obtain ⟨quota, -, h⟩ := h
  unfold scoreCandidate at h
  dsimp only at h
  split at h
  · next hreasons =>
    cases h
    exact ⟨rfl, rfl, nofun, fun _ => hreasons⟩
  · next hreasons =>
    split at h
    · cases h
    · next burden hburden =>
      cases h
      exact ⟨rfl, rfl, fun _ => ⟨burden, not_not.mp hreasons, hburden, rfl⟩, nofun⟩

theorem isCandidate_of {candidate : ScoredCandidate}
    (h : candidateOf env policy context spec = .ok candidate) :
    IsCandidate env policy context spec candidate := by
  simp only [candidateOf, bind_ok] at h
  obtain ⟨inactive, -, h⟩ := h
  cases inactive with
  | some error => exact pure_ok.mp h ▸ isCandidate_unscored
  | none =>
    simp only [bind_ok] at h
    obtain ⟨coldEstimate, -, cold, hcold, h⟩ := h
    unfold warmed at h
    split at h
    · simp only [bind_ok] at h
      obtain ⟨⟨estimate, affinity⟩, -, warm, hwarm, h⟩ := h
      have hcandidate := isCandidate_scored hwarm
      exact pure_ok.mp h ▸
        ⟨hcandidate.id, hcandidate.rank, hcandidate.scored, hcandidate.rejected⟩
    · exact pure_ok.mp h ▸ isCandidate_scored hcold

theorem misfit_ok {error : String × String} (h : misfitOf env registry error = .ok candidate) :
    ∃ spec, registry.get spec.id = .ok spec ∧ spec.id = error.1 ∧
      ∃ quota, candidate = unscored env spec error.2 spec.resourcePool quota := by
  simp only [misfitOf, bind_ok] at h
  obtain ⟨spec, hspec, quota, -, h⟩ := h
  have hid : spec.id = error.1 := (Table.find?_eq_some.mp (Registry.get_ok.mp hspec)).2
  exact ⟨spec, hid ▸ hspec, hid, quota, (pure_ok.mp h).symm⟩

theorem misfit_id {error : String × String} (h : misfitOf env registry error = .ok candidate) :
    candidate.executorId = error.1 := by
  obtain ⟨spec, -, hid, quota, rfl⟩ := misfit_ok h
  exact hid

theorem map_id_of_made {α : Type} {make : α → Result ScoredCandidate} {name : α → String}
    (hmake : ∀ a c, make a = .ok c → c.executorId = name a) {as : List α}
    {made : List ScoredCandidate} (h : as.mapM make = .ok made) :
    made.map (·.executorId) = as.map name := by
  have hnames := (forall₂_of_mapM h).imp fun a c hc => (hmake a c hc).symm
  rw [← List.forall₂_eq_eq_eq, List.forall₂_map_left_iff, List.forall₂_map_right_iff]
  exact hnames.flip.imp fun _ _ heq => heq.symm

theorem exists_of_made {α : Type} {make : α → Result ScoredCandidate} {as : List α}
    {made : List ScoredCandidate} (h : as.mapM make = .ok made) (hmem : candidate ∈ made) :
    ∃ a ∈ as, make a = .ok candidate := by
  have hmade := forall₂_of_mapM h
  clear h
  induction hmade with
  | nil => cases hmem
  | cons hhead _ ih =>
    rcases List.mem_cons.mp hmem with rfl | hin
    · exact ⟨_, List.mem_cons_self, hhead⟩
    · obtain ⟨a, ha, hmake⟩ := ih hin
      exact ⟨a, List.mem_cons_of_mem _ ha, hmake⟩

theorem candidatesOf_ok (hregistry : registry.Coherent) {candidates : List ScoredCandidate}
    (h : candidatesOf env registry policy context capability = .ok candidates) :
    (candidates.map (·.executorId)).Perm ((registry.find capability false).map (·.id)) ∧
      ∀ candidate ∈ candidates, ∃ spec, registry.get spec.id = .ok spec ∧
        IsCandidate env policy context spec candidate := by
  simp only [candidatesOf, bind_ok] at h
  obtain ⟨⟨specs, errors⟩, hcompatible, accepted, haccepted, misfits, hmisfits, h⟩ := h
  obtain rfl := pure_ok.mp h
  obtain ⟨hperm, hmem⟩ := admitted_perm _ hcompatible
  refine ⟨?_, fun candidate hcandidate => ?_⟩
  · rw [List.map_append, map_id_of_made (fun _ _ hmade => (isCandidate_of hmade).id) haccepted,
      map_id_of_made (fun _ _ hmade => misfit_id hmade) hmisfits]
    refine (List.Perm.append_left _ (sortOn_perm.map Prod.fst)).trans ?_
    simpa using hperm
  · rcases List.mem_append.mp hcandidate with hin | hin
    · obtain ⟨spec, hspec, hmade⟩ := exists_of_made haccepted hin
      have hfound := (hmem spec hspec).resolve_left List.not_mem_nil
      exact ⟨spec, Registry.get_ok.mpr ((Registry.mem_find hregistry).mp hfound).1,
        isCandidate_of hmade⟩
    · obtain ⟨error, -, hmade⟩ := exists_of_made hmisfits hin
      obtain ⟨spec, hspec, -, quota, rfl⟩ := misfit_ok hmade
      exact ⟨spec, hspec, isCandidate_unscored⟩

end Candidates

/-! ## What is chosen -/

section Chosen

variable {logs : Logarithms} {policy : RoutingPolicy} {feasible : List ScoredCandidate}

/-- The winner of the feasible candidates, and why it won. -/
inductive Wins (logs : Logarithms) (policy : RoutingPolicy) (feasible : List ScoredCandidate)
    (choice : Choice) (best winner : ScoredCandidate) : Prop where
  | selected (disposition : choice.disposition = .selected) (reason : choice.bypassReason = none)
      (first : winner = best)
  | only (disposition : choice.disposition = .bypassRouter)
      (reason : choice.bypassReason = some .onlyOneFeasibleRoute) (first : winner = best)
      (one : feasible.length = 1)
  | retained (disposition : choice.disposition = .bypassRouter)
      (reason : choice.bypassReason = some .optimizationValueBelowOverhead)
      (baseline : policy.abstention.baselineExecutorId = some winner.executorId)
      (gain : total winner - total best ≤
        overheadScore logs policy + policy.abstention.minimumScoreGain)

theorem candidateNamed_some {executorId : Option String} {winner : ScoredCandidate}
    (h : candidateNamed feasible executorId = some winner) :
    winner ∈ feasible ∧ some winner.executorId = executorId :=
  ⟨List.mem_of_find?_eq_some h, by simpa using List.find?_some h⟩

theorem length_of_pinned {allowed : String} (hids : (feasible.map (·.executorId)).Nodup)
    (hallowed : ∀ candidate ∈ feasible, candidate.executorId ∈ [allowed]) : feasible.length ≤ 1 := by
  have hall : ∀ id ∈ feasible.map (·.executorId), id = allowed := by
    intro id hid
    obtain ⟨candidate, hcandidate, rfl⟩ := List.mem_map.mp hid
    exact List.mem_singleton.mp (hallowed candidate hcandidate)
  rw [List.eq_replicate_of_mem hall, List.nodup_replicate, List.length_map] at hids
  exact hids

theorem abstain_wins {best : ScoredCandidate} (hhead : feasible.head? = some best)
    (hids : (feasible.map (·.executorId)).Nodup)
    (hallowed : ∀ ids ∈ policy.constraints.allowedExecutorIds, ∀ candidate ∈ feasible,
      candidate.executorId ∈ ids) {baseline : Option ScoredCandidate}
    {reason : Option RouteBypassReason} {benefit : Option ℚ}
    (h : abstain logs policy feasible best = (baseline, reason, benefit)) :
    (reason = none ∨ ∃ winner ∈ feasible, baseline = some winner ∧
      (reason = some .onlyOneFeasibleRoute ∧ winner = best ∧ feasible.length = 1 ∨
        reason = some .optimizationValueBelowOverhead ∧
        policy.abstention.baselineExecutorId = some winner.executorId ∧
        total winner - total best ≤ overheadScore logs policy + policy.abstention.minimumScoreGain))
    := by
  unfold abstain at h
  dsimp only at h
  split at h
  · next hone =>
    cases h
    exact .inr ⟨best, List.mem_of_head? hhead, rfl, .inl ⟨rfl, rfl, hone⟩⟩
  · next hmany =>
    split at h
    · next _ _ allowed hpinned =>
      have hle := length_of_pinned hids (hallowed _ hpinned)
      cases feasible with
      | nil => cases hhead
      | cons _ _ => exact absurd (le_antisymm hle (by simp)) hmany
    · next winner hconfigured _ =>
      obtain ⟨hmem, hname⟩ := candidateNamed_some hconfigured
      cases h
      by_cases hgain : total winner - total best - overheadScore logs policy ≤
          policy.abstention.minimumScoreGain
      · exact .inr ⟨winner, hmem, rfl, .inr ⟨if_pos hgain, hname.symm, by linarith⟩⟩
      · exact .inl (if_neg hgain)
    · cases h
      exact .inl rfl

variable (logs) in
theorem choose_wins {best : ScoredCandidate} (hhead : feasible.head? = some best)
    (hids : (feasible.map (·.executorId)).Nodup)
    (hallowed : ∀ ids ∈ policy.constraints.allowedExecutorIds, ∀ candidate ∈ feasible,
      candidate.executorId ∈ ids) :
    ∃ winner ∈ feasible, (choose logs policy feasible).selectedExecutorId = some winner.executorId ∧
      Wins logs policy feasible (choose logs policy feasible) best winner := by
  have hbest : best ∈ feasible := List.mem_of_head? hhead
  unfold choose
  rw [hhead]
  cases policy.abstention.enabled with
  | false => exact ⟨best, hbest, rfl, .selected rfl rfl rfl⟩
  | true =>
    dsimp only
    split
    · next baseline reason benefit habstain =>
      rcases abstain_wins hhead hids hallowed habstain with hnone | ⟨winner, hwinner, heq, hwhy⟩
      · cases hnone
      · obtain rfl := Option.some.inj heq
        refine ⟨baseline, hwinner, rfl, ?_⟩
        rcases hwhy with ⟨hreason, hfirst, hone⟩ | ⟨hreason, hbaseline, hgain⟩
        · exact .only rfl hreason hfirst hone
        · exact .retained rfl hreason hbaseline hgain
    · next baseline reason benefit hnot habstain =>
      refine ⟨best, hbest, rfl, .selected rfl ?_ rfl⟩
      rcases abstain_wins hhead hids hallowed habstain with hnone | ⟨winner, -, heq, hwhy⟩
      · exact hnone
      · rcases hwhy with ⟨hreason, -⟩ | ⟨hreason, -⟩
        · exact (hnot winner _ heq hreason).elim
        · exact (hnot winner _ heq hreason).elim

end Chosen

/-! ## The decision -/

section Ranks

variable {feasible : List ScoredCandidate}

theorem getElem?_withRanks (i : ℕ) : (withRanks feasible)[i]? =
    feasible[i]?.map fun candidate => { candidate with rank := some (i + 1) } := by
  rw [withRanks, List.getElem?_map, List.getElem?_zipIdx]
  cases feasible[i]? with
  | none => rfl
  | some candidate => simp [Nat.add_comm]

theorem map_withRanks {β : Type} {g : ScoredCandidate → β}
    (hg : ∀ candidate rank, g { candidate with rank := rank } = g candidate) :
    (withRanks feasible).map g = feasible.map g := by
  apply List.ext_getElem?
  intro i
  rw [List.getElem?_map, List.getElem?_map, getElem?_withRanks]
  cases feasible[i]? with
  | none => rfl
  | some candidate => exact congrArg some (hg candidate _)

theorem mem_withRanks {candidate : ScoredCandidate} (h : candidate ∈ withRanks feasible) :
    ∃ i, ∃ unranked ∈ feasible, feasible[i]? = some unranked ∧
      candidate = { unranked with rank := some (i + 1) } := by
  obtain ⟨i, hi⟩ := List.mem_iff_getElem?.mp h
  rw [getElem?_withRanks] at hi
  obtain ⟨unranked, hunranked, rfl⟩ := Option.map_eq_some_iff.mp hi
  exact ⟨i, unranked, List.mem_of_getElem? hunranked, hunranked, rfl⟩

end Ranks

/-- A decision on the executors of a capability: the feasible candidates in the order of their ranks,
and the others, which have their reasons. -/
structure Decided (env : RouteEnv) (registry : Registry) (policy : RoutingPolicy)
    (context : ScoringContext) (capability : String) (routed : Routed)
    (ranked rejected : List ScoredCandidate) : Prop where
  split : routed.candidates = ranked ++ rejected
  complete : (routed.candidates.map (·.executorId)).Perm
    ((registry.find capability false).map (·.id))
  increasing : Increasing rankKey ranked
  ranks : ∀ i candidate, ranked[i]? = some candidate → candidate.rank = some (i + 1)
  feasible : ∀ candidate ∈ ranked, candidate.feasible = true ∧ ∃ spec burden,
    registry.get candidate.executorId = .ok spec ∧
    rejectionReasons env.floats spec.toExecutorSpec candidate.estimate.toRouteEstimate
      policy.constraints context.toActionContext
      (candidate.subscriptionQuota.map (·.toSubscriptionQuota)) = [] ∧
    candidateBurden env.floats env.logs spec.toExecutorSpec candidate.estimate policy.toPolicyConfig
      candidate.subscriptionQuota = some burden ∧
    candidate.score = some (breakdownOf env.floats env.logs spec.toExecutorSpec candidate.estimate
      policy.toPolicyConfig context burden)
  rejected : Increasing (·.executorId) rejected ∧ ∀ candidate ∈ rejected,
    candidate.feasible = false ∧ candidate.rank = none ∧ candidate.rejectionReasons ≠ []
  none : ranked = [] → routed.selectedExecutorId = none ∧ routed.bypassReason = none
  won : ∀ best, ranked.head? = some best → ∃ winner ∈ ranked,
    routed.selectedExecutorId = some winner.executorId ∧
    Wins env.logs policy ranked routed.toChoice best winner

section Decide

variable {env : RouteEnv} {registry : Registry} {policy : RoutingPolicy} {context : ScoringContext}
  {capability : String} {routed : Routed}

theorem won_withRanks {logs : Logarithms} {feasible : List ScoredCandidate}
    (hids : (feasible.map (·.executorId)).Nodup)
    (hallowed : ∀ ids ∈ policy.constraints.allowedExecutorIds, ∀ candidate ∈ feasible,
      candidate.executorId ∈ ids) {best : ScoredCandidate}
    (hbest : (withRanks feasible).head? = some best) :
    ∃ winner ∈ withRanks feasible,
      (choose logs policy feasible).selectedExecutorId = some winner.executorId ∧
      Wins logs policy (withRanks feasible) (choose logs policy feasible) best winner := by
  rw [List.head?_eq_getElem?, getElem?_withRanks, ← List.head?_eq_getElem?] at hbest
  obtain ⟨first, hfirst, rfl⟩ := Option.map_eq_some_iff.mp hbest
  have hmem : ∀ {i : ℕ} {candidate : ScoredCandidate}, feasible[i]? = some candidate →
      { candidate with rank := some (i + 1) } ∈ withRanks feasible := by
    intro i candidate hi
    refine List.mem_of_getElem? (i := i) ?_
    rw [getElem?_withRanks, hi]
    rfl
  have hbest := hmem (List.head?_eq_getElem? (l := feasible) ▸ hfirst)
  obtain ⟨winner, hwinner, hselected, hwins⟩ := choose_wins logs hfirst hids hallowed
  cases hwins with
  | selected disposition reason hwon =>
    exact ⟨_, hbest, hwon ▸ hselected, .selected disposition reason rfl⟩
  | only disposition reason hwon one =>
    refine ⟨_, hbest, hwon ▸ hselected, .only disposition reason rfl ?_⟩
    rw [withRanks, List.length_map, List.length_zipIdx, one]
  | retained disposition reason baseline gain =>
    obtain ⟨i, hi⟩ := List.mem_iff_getElem?.mp hwinner
    exact ⟨_, hmem hi, hselected, .retained disposition reason baseline gain⟩

theorem decided_of_route (hregistry : registry.Coherent)
    (h : route env registry policy capability context = .ok routed) :
    ∃ ranked rejected, Decided env registry policy context capability routed ranked rejected := by
  simp only [route, bind_ok] at h
  obtain ⟨candidates, hcandidates, h⟩ := h
  obtain rfl := pure_ok.mp h
  obtain ⟨hperm, hcandidate⟩ := candidatesOf_ok hregistry hcandidates
  have hids : (candidates.map (·.executorId)).Nodup :=
    hperm.nodup_iff.mpr (Registry.find_increasing hregistry false).nodup_map
  have hranked : ∀ candidate ∈ feasibleOf candidates, candidate ∈ candidates ∧ isRanked candidate :=
    fun candidate hmem => List.mem_filter.mp (mem_sortOn.mp hmem)
  have hrejected : ∀ candidate ∈ rejectedOf candidates,
      candidate ∈ candidates ∧ candidate.feasible = false :=
    fun candidate hmem => by simpa using List.mem_filter.mp (mem_sortOn.mp hmem)
  have hfeasibleIds : ((feasibleOf candidates).map (·.executorId)).Nodup :=
    (sortOn_perm.map _).nodup_iff.mpr ((List.filter_sublist.map _).nodup hids)
  have hkeys : ((candidates.filter isRanked).map rankKey).Nodup := by
    have hnames : ((candidates.filter isRanked).map (·.executorId)).Nodup :=
      (List.filter_sublist.map _).nodup hids
    refine List.Nodup.of_map (fun key => (ofLex key).2) ?_
    rwa [List.map_map]
  refine ⟨withRanks (feasibleOf candidates), rejectedOf candidates, rfl, ?_, ?_, ?_, ?_, ?_, ?_, ?_⟩
  · have hsplit : candidates.filter isRanked = candidates.filter (·.feasible) := by
      refine List.filter_congr fun candidate hmem => ?_
      obtain ⟨spec, -, his⟩ := hcandidate candidate hmem
      cases hfeasible : candidate.feasible with
      | false => simp [isRanked, hfeasible]
      | true =>
        obtain ⟨burden, -, -, hscore⟩ := his.scored hfeasible
        simp [isRanked, hfeasible, hscore]
    refine .trans ?_ hperm
    show ((withRanks (feasibleOf candidates) ++ rejectedOf candidates).map _).Perm _
    rw [List.map_append, map_withRanks fun _ _ => rfl, ← List.map_append]
    refine List.Perm.map _ ((List.Perm.append sortOn_perm sortOn_perm).trans ?_)
    rw [hsplit]
    exact List.filter_append_perm _ candidates
  · have hincreasing := sortOn_increasing hkeys
    unfold Increasing at *
    rw [← List.pairwise_map] at *
    rw [map_withRanks fun _ _ => rfl]
    exact hincreasing
  · intro i candidate hi
    rw [getElem?_withRanks] at hi
    obtain ⟨unranked, -, rfl⟩ := Option.map_eq_some_iff.mp hi
    rfl
  · intro candidate hmem
    obtain ⟨i, unranked, hunranked, -, rfl⟩ := mem_withRanks hmem
    obtain ⟨hin, his⟩ := hranked unranked hunranked
    obtain ⟨spec, hspec, his'⟩ := hcandidate unranked hin
    have hfeasible : unranked.feasible = true := (Bool.and_eq_true_iff.mp his).1
    obtain ⟨burden, hburden⟩ := his'.scored hfeasible
    exact ⟨hfeasible, spec, burden, his'.id ▸ hspec, hburden⟩
  · refine ⟨sortOn_increasing ((List.filter_sublist.map _).nodup hids), fun candidate hmem => ?_⟩
    obtain ⟨hin, hfeasible⟩ := hrejected candidate hmem
    obtain ⟨spec, -, his⟩ := hcandidate candidate hin
    exact ⟨hfeasible, his.rank, his.rejected hfeasible⟩
  · intro hnil
    have hlength : (feasibleOf candidates).length = 0 := by
      rw [← List.length_zipIdx (i := 1), ← List.length_map, ← withRanks, hnil]
      rfl
    show (choose env.logs policy (feasibleOf candidates)).selectedExecutorId = none ∧
      (choose env.logs policy (feasibleOf candidates)).bypassReason = none
    rw [List.length_eq_zero_iff.mp hlength]
    exact ⟨rfl, rfl⟩
  · intro best hbest
    refine won_withRanks hfeasibleIds (fun ids hallowed candidate hmem => ?_) hbest
    obtain ⟨hin, his⟩ := hranked candidate hmem
    obtain ⟨spec, -, his'⟩ := hcandidate candidate hin
    obtain ⟨burden, hreasons, -⟩ := his'.scored (Bool.and_eq_true_iff.mp his).1
    have haccepts := (constraintReasons_eq_nil _ _ _).mp (List.append_eq_nil_iff.mp hreasons).1
    exact his'.id ▸ haccepts.allowed ids hallowed

namespace Decided

variable {ranked rejected : List ScoredCandidate}

theorem ids_nodup (hregistry : registry.Coherent)
    (h : Decided env registry policy context capability routed ranked rejected) :
    (ranked.map (·.executorId)).Nodup := by
  have hall : (routed.candidates.map (·.executorId)).Nodup :=
    h.complete.nodup_iff.mpr (Registry.find_increasing hregistry false).nodup_map
  rw [h.split, List.map_append] at hall
  exact (List.nodup_append.mp hall).1

theorem best_le (h : Decided env registry policy context capability routed ranked rejected)
    {best candidate : ScoredCandidate} (hbest : ranked.head? = some best)
    (hcandidate : candidate ∈ ranked) : total best ≤ total candidate := by
  have hle := h.increasing.head?_le hbest hcandidate
  exact (Prod.Lex.toLex_le_toLex.mp hle).elim le_of_lt fun heq => heq.1.le

theorem regret (hregistry : registry.Coherent)
    (h : Decided env registry policy context capability routed ranked rejected)
    {winner candidate : ScoredCandidate} (hwinner : winner ∈ ranked)
    (hselected : routed.selectedExecutorId = some winner.executorId) (hcandidate : candidate ∈ ranked) :
    total winner ≤ total candidate +
      (overheadScore env.logs policy + policy.abstention.minimumScoreGain) := by
  have hoverhead : 0 ≤ overheadScore env.logs policy :=
    mul_nonneg (NNRat.cast_nonneg _) (env.logs.log1p_nonneg (by positivity))
  have hgain : (0 : ℚ) ≤ policy.abstention.minimumScoreGain := NNRat.cast_nonneg _
  cases hhead : ranked.head? with
  | none =>
    rw [List.head?_eq_none_iff.mp hhead] at hwinner
    cases hwinner
  | some best =>
    obtain ⟨chosen, hchosen, hname, hwins⟩ := h.won best hhead
    have heq : winner = chosen := List.inj_on_of_nodup_map (h.ids_nodup hregistry) hwinner hchosen
      (Option.some.inj (hselected.symm.trans hname))
    have hbest := h.best_le hhead hcandidate
    cases hwins with
    | selected _ _ hfirst =>
      rw [heq, hfirst]
      linarith
    | only _ _ hfirst _ =>
      rw [heq, hfirst]
      linarith
    | retained _ _ _ hretained =>
      rw [heq]
      linarith

theorem bypassReason_ne_pinned
    (h : Decided env registry policy context capability routed ranked rejected) :
    routed.bypassReason ≠ some .pinnedExecutor := by
  cases hhead : ranked.head? with
  | none => simp [(h.none (List.head?_eq_none_iff.mp hhead)).2]
  | some best =>
    obtain ⟨winner, -, -, hwins⟩ := h.won best hhead
    cases hwins with
    | selected _ hreason _ => simp [hreason]
    | only _ hreason _ _ => simp [hreason]
    | retained _ hreason _ _ => simp [hreason]

end Decided

/-- A decision depends on the executors of the registry. -/
theorem route_congr {registry' : Registry} (hregistry : registry.Coherent)
    (hregistry' : registry'.Coherent) (hsame : ∀ id, registry'.get id = registry.get id) :
    route env registry' policy capability context = route env registry policy capability context := by
  have hfound := fun id => Registry.find?_eq_of_get (hsame id)
  have hfind := Registry.find_congr hregistry' hregistry hfound
  have hcompatible := Registry.compatible_congr hregistry' hregistry hfound
  have hmisfit : misfitOf env registry' = misfitOf env registry := by
    funext error
    unfold misfitOf
    rw [hsame]
  have hexplanation : explanationOf env registry' = explanationOf env registry := by
    unfold explanationOf
    rw [hfind]
  unfold route candidatesOf decideOn
  rw [hcompatible, hmisfit, hexplanation]

end Decide

/-- `route`, after any registrations: its candidates are the enabled executors of the capability, each
once, ranked by their totals if they are feasible and rejected for a reason if not; what it selects is
feasible, and its total is above that of any other by no more than the overhead and the least gain; no
decision is for a pinned executor; and the order of the registrations does not matter. -/
theorem route_decides (steps : List Registry.Step) (env : RouteEnv) (policy : RoutingPolicy)
    (context : ScoringContext) (capability : String) (routed : Routed)
    (h : route env (run Registry.step .empty steps) policy capability context = .ok routed) :
    (∃ ranked rejected, Decided env (run Registry.step .empty steps) policy context capability routed
        ranked rejected ∧
      ∀ winner ∈ ranked, routed.selectedExecutorId = some winner.executorId →
        ∀ candidate ∈ ranked, total winner ≤ total candidate +
          (overheadScore env.logs policy + policy.abstention.minimumScoreGain)) ∧
    routed.bypassReason ≠ some .pinnedExecutor ∧
    ∀ steps', (∀ id, (run Registry.step .empty steps').get id =
        (run Registry.step .empty steps).get id) →
      route env (run Registry.step .empty steps') policy capability context = .ok routed := by
  have hregistry := Registry.coherent_run steps
  obtain ⟨ranked, rejected, hdecided⟩ := decided_of_route hregistry h
  refine ⟨⟨ranked, rejected, hdecided, fun winner hwinner hselected candidate hcandidate =>
    hdecided.regret hregistry hwinner hselected hcandidate⟩, hdecided.bypassReason_ne_pinned,
    fun steps' hsame => ?_⟩
  rw [route_congr hregistry (Registry.coherent_run steps') hsame]
  exact h

/-! ## Merit -/

section Merit

variable {env : RouteEnv} {registry : Registry} {policy : RoutingPolicy} {context : ScoringContext}
  {capability : String} {routed : Routed} {ranked rejected : List ScoredCandidate}
  {a b : ScoredCandidate} {spec spec' : RoutedSpec}

namespace Decided

theorem mem_ranked (h : Decided env registry policy context capability routed ranked rejected)
    (ha : a ∈ routed.candidates) (hfeasible : a.feasible = true) : a ∈ ranked := by
  rw [h.split] at ha
  refine (List.mem_append.mp ha).resolve_right fun hin => ?_
  rw [(h.rejected.2 a hin).1] at hfeasible
  cases hfeasible

theorem total_eq (h : Decided env registry policy context capability routed ranked rejected)
    (ha : a ∈ ranked) (hspec : registry.get a.executorId = .ok spec) : ∃ burden,
    candidateBurden env.floats env.logs spec.toExecutorSpec a.estimate policy.toPolicyConfig
      a.subscriptionQuota = some burden ∧
    total a = (breakdownOf env.floats env.logs spec.toExecutorSpec a.estimate policy.toPolicyConfig
      context burden).total := by
  obtain ⟨-, other, burden, hother, -, hburden, hscore⟩ := h.feasible a ha
  obtain rfl := Except.ok.inj (hspec.symm.trans hother)
  refine ⟨burden, hburden, ?_⟩
  rw [total, hscore]
  rfl

theorem total_le (h : Decided env registry policy context capability routed ranked rejected)
    (ha : a ∈ ranked) (hb : b ∈ ranked) (hspec : registry.get a.executorId = .ok spec)
    (hspec' : registry.get b.executorId = .ok spec')
    (himproves : Improves env.floats context ⟨spec.toExecutorSpec, a.estimate, a.subscriptionQuota⟩
      ⟨spec'.toExecutorSpec, b.estimate, b.subscriptionQuota⟩) : total a ≤ total b := by
  obtain ⟨burden, hburden, htotal⟩ := h.total_eq ha hspec
  obtain ⟨burden', hburden', htotal'⟩ := h.total_eq hb hspec'
  have hnonneg := candidateBurden_nonneg
    (a := ⟨spec.toExecutorSpec, a.estimate, a.subscriptionQuota⟩) hburden
  have hburdens := himproves.subscriptionBurden hburden hburden'
  rw [htotal, htotal']
  exact total_le_of_improves _ _ himproves hburdens.1 hnonneg.value hburdens.2

theorem rank_le (h : Decided env registry policy context capability routed ranked rejected)
    (ha : a ∈ ranked) (hb : b ∈ ranked) (hkey : rankKey a ≤ rankKey b) :
    ∃ i j, a.rank = some i ∧ b.rank = some j ∧ i ≤ j := by
  obtain ⟨i, hi⟩ := List.mem_iff_getElem?.mp ha
  obtain ⟨j, hj⟩ := List.mem_iff_getElem?.mp hb
  refine ⟨i + 1, j + 1, h.ranks i a hi, h.ranks j b hj, ?_⟩
  by_contra hlt
  obtain ⟨hi', hi⟩ := List.getElem?_eq_some_iff.mp hi
  obtain ⟨hj', hj⟩ := List.getElem?_eq_some_iff.mp hj
  have hbefore := List.pairwise_iff_getElem.mp h.increasing j i hj' hi' (by omega)
  rw [hi, hj] at hbefore
  exact absurd hkey hbefore.not_ge

end Decided

/-- A feasible candidate that is no worse than another one in anything has no higher a total, and a
better rank but for a tie. -/
theorem ranked_by_merit (steps : List Registry.Step) (env : RouteEnv) (policy : RoutingPolicy)
    (context : ScoringContext) (capability : String) (routed : Routed)
    (h : route env (run Registry.step .empty steps) policy capability context = .ok routed)
    (a b : ScoredCandidate) (ha : a ∈ routed.candidates) (hb : b ∈ routed.candidates)
    (hfeasible : a.feasible = true ∧ b.feasible = true) (spec spec' : RoutedSpec)
    (hspec : (run Registry.step .empty steps).get a.executorId = .ok spec)
    (hspec' : (run Registry.step .empty steps).get b.executorId = .ok spec')
    (himproves : Improves env.floats context ⟨spec.toExecutorSpec, a.estimate, a.subscriptionQuota⟩
      ⟨spec'.toExecutorSpec, b.estimate, b.subscriptionQuota⟩) :
    total a ≤ total b ∧ ∃ i j, a.rank = some i ∧ b.rank = some j ∧
      (i ≤ j ∨ total a = total b ∧ b.executorId < a.executorId) := by
  obtain ⟨ranked, rejected, hdecided⟩ := decided_of_route (Registry.coherent_run steps) h
  have ha := hdecided.mem_ranked ha hfeasible.1
  have hb := hdecided.mem_ranked hb hfeasible.2
  have hle := hdecided.total_le ha hb hspec hspec' himproves
  refine ⟨hle, ?_⟩
  rcases le_total (rankKey a) (rankKey b) with hkey | hkey
  · obtain ⟨i, j, hi, hj, hij⟩ := hdecided.rank_le ha hb hkey
    exact ⟨i, j, hi, hj, .inl hij⟩
  · obtain ⟨j, i, hj, hi, hji⟩ := hdecided.rank_le hb ha hkey
    refine ⟨i, j, hi, hj, ?_⟩
    rcases Prod.Lex.toLex_le_toLex.mp hkey with hlt | ⟨heq, hname⟩
    · exact absurd hle hlt.not_ge
    · rcases hname.lt_or_eq with hlt | hsame
      · exact .inr ⟨heq.symm, hlt⟩
      · have hab : b = a := hdecided.increasing.eq_of_key_eq hb ha
          (congrArg toLex (Prod.ext heq hsame))
        rw [hab, hi] at hj
        exact .inl (Option.some.inj hj).le

end Merit

/-! ## Execution -/

section Execution

variable {env : RouteEnv} {registry : Registry} {policy : RoutingPolicy} {context : ScoringContext}
  {capability : String} {routed : Routed} {ranked rejected : List ScoredCandidate}

/-- The candidates that `execute` goes through are the feasible ones in the order of their ranks. -/
theorem candidateOrder_routing
    (h : Decided env registry policy context capability routed ranked rejected)
    (decisionId : String) (fallback : FallbackConfig) (action : ActionRequest) :
    (candidateOrder ((routed.routing decisionId fallback).decision action)).map (·.executorId) =
      ranked.map (·.executorId) := by
  have hrank : ∀ candidate ∈ ranked, ∃ i, candidate.rank = some (i + 1) := by
    intro candidate hmem
    obtain ⟨i, hi⟩ := List.mem_iff_getElem?.mp hmem
    exact ⟨i, h.ranks i candidate hi⟩
  have hfilter : (routed.candidates.map Routed.candidate).filter
      (fun item => item.feasible ∧ item.rank.isSome) = ranked.map Routed.candidate := by
    rw [h.split, List.map_append, List.filter_append]
    have hranked : ∀ item ∈ ranked.map Routed.candidate, item.feasible ∧ item.rank.isSome := by
      intro item hitem
      obtain ⟨candidate, hmem, rfl⟩ := List.mem_map.mp hitem
      obtain ⟨i, hi⟩ := hrank candidate hmem
      exact ⟨(h.feasible candidate hmem).1, by simp [Routed.candidate, hi]⟩
    have hrejected : ∀ item ∈ rejected.map Routed.candidate, ¬ (item.feasible ∧ item.rank.isSome) := by
      rintro item hitem ⟨hfeasible, -⟩
      obtain ⟨candidate, hmem, rfl⟩ := List.mem_map.mp hitem
      rw [Routed.candidate, (h.rejected.2 candidate hmem).1] at hfeasible
      cases hfeasible
    rw [List.filter_eq_self.mpr fun item hitem => decide_eq_true (hranked item hitem),
      List.filter_eq_nil_iff.mpr fun item hitem => by simpa using hrejected item hitem,
      List.append_nil]
  unfold candidateOrder
  show List.map _ (List.insertionSort _ ((routed.candidates.map Routed.candidate).filter _)) = _
  rw [hfilter, List.Pairwise.insertionSort_eq, List.map_map]
  · rfl
  · rw [List.pairwise_map, List.pairwise_iff_getElem]
    intro i j hi hj hij
    have hi' := h.ranks i _ (List.getElem?_eq_getElem hi)
    have hj' := h.ranks j _ (List.getElem?_eq_getElem hj)
    simp only [Routed.candidate, hi', hj', Option.getD_some]
    rw [if_neg (by omega), if_neg (by omega)]
    omega

theorem head_candidateOrder
    (h : Decided env registry policy context capability routed ranked rejected)
    (decisionId : String) (fallback : FallbackConfig) (action : ActionRequest)
    {first : CandidateScore}
    (hfirst : (candidateOrder ((routed.routing decisionId fallback).decision action)).head? =
      some first) :
    some first.executorId = ((routed.candidates.filter (·.feasible)).head?).map (·.executorId) ∧
      (some first.executorId = routed.selectedExecutorId ↔
        (routed.bypassReason = some .optimizationValueBelowOverhead →
          policy.abstention.baselineExecutorId = some first.executorId)) := by
  have hbest : some first.executorId = ranked.head?.map (·.executorId) := by
    rw [← List.head?_map, ← candidateOrder_routing h decisionId fallback action, List.head?_map,
      hfirst, Option.map_some]
  have hfilter : routed.candidates.filter (·.feasible) = ranked := by
    rw [h.split, List.filter_append,
      List.filter_eq_self.mpr fun candidate hmem => (h.feasible candidate hmem).1,
      List.filter_eq_nil_iff.mpr fun candidate hmem => by simp [(h.rejected.2 candidate hmem).1],
      List.append_nil]
  refine ⟨hfilter ▸ hbest, ?_⟩
  cases hhead : ranked.head? with
  | none =>
    rw [hhead] at hbest
    cases hbest
  | some best =>
    obtain ⟨winner, -, hselected, hwins⟩ := h.won best hhead
    rw [hhead, Option.map_some] at hbest
    rw [hbest, hselected]
    cases hwins with
    | selected _ hreason hwon => simp [hreason, hwon]
    | only _ hreason hwon _ => simp [hreason, hwon]
    | retained _ hreason hbaseline _ =>
      rw [hbaseline]
      exact ⟨fun heq _ => heq.symm, fun heq => (heq hreason).symm⟩

/-- A call of `execute` that goes by a decision of `route` invokes the best of its candidates first:
the selected one, unless the decision retains a baseline that is not the best. -/
theorem executed_first (steps : List Registry.Step) (env : RouteEnv) (policy : RoutingPolicy)
    (context : ScoringContext) (capability : String) (routed : Routed)
    (h : route env (run Registry.step .empty steps) policy capability context = .ok routed)
    (decisionId : String) (fallback : FallbackConfig) (action : ActionRequest) (call : DirectCall)
    (world : World) (direct : DirectEnv) (hvalidated : ∀ tick, direct.validated tick = true) (t : Turn)
    (ht : t ∈ (execute call ((routed.routing decisionId fallback).decision action)
      (.start world direct)).2.turns.head?) (hrerouted : t.rerouted = false) :
    some t.candidate.executorId =
        ((routed.candidates.filter (·.feasible)).head?).map (·.executorId) ∧
      (some t.candidate.executorId = routed.selectedExecutorId ↔
        (routed.bypassReason = some .optimizationValueBelowOverhead →
          policy.abstention.baselineExecutorId = some t.candidate.executorId)) := by
  obtain ⟨ranked, rejected, hdecided⟩ := decided_of_route (Registry.coherent_run steps) h
  obtain ⟨horigin, hfirst⟩ :=
    (execute_in_order call ((routed.routing decisionId fallback).decision action) world
      direct).1.first ht hrerouted
  have hdecision : t.decision = (routed.routing decisionId fallback).decision action := by
    generalize t.decision = decision at horigin
    cases horigin with
    | given tick validated => rfl
    | routed _ tick changed =>
      obtain ⟨tick, hfalse⟩ := changed.resolve_left Bool.false_ne_true
      exact absurd (hvalidated tick) (Bool.eq_false_iff.mp hfalse)
  rw [hdecision] at hfirst
  exact head_candidateOrder hdecided decisionId fallback action hfirst

end Execution

/-! ## Failure -/

section Failure

variable {env : RouteEnv} {registry : Registry} {policy : RoutingPolicy} {context : ScoringContext}
  {capability : String} {spec : RoutedSpec}

theorem mem_admitted {validate : RoutedSpec → Result (Option String)} {found : List RoutedSpec}
    {before after : List RoutedSpec × List (String × String)}
    (h : found.foldlM (Registry.admitInput validate) before = .ok after)
    (haccepts : validate spec = .ok none) (hmem : spec ∈ before.1 ∨ spec ∈ found) :
    spec ∈ after.1 := by
  induction found generalizing before with
  | nil =>
    rw [List.foldlM_nil, pure_ok] at h
    exact h ▸ hmem.resolve_right List.not_mem_nil
  | cons executor found ih =>
    simp only [List.foldlM_cons, bind_ok, Registry.admitInput] at h
    obtain ⟨state, ⟨result, hresult, hstate⟩, hrest⟩ := h
    refine ih hrest ?_
    rcases hmem with hbefore | hmem
    · left
      cases result with
      | none => exact pure_ok.mp hstate ▸ List.mem_append_left _ hbefore
      | some error => exact pure_ok.mp hstate ▸ hbefore
    · rcases List.mem_cons.mp hmem with rfl | hlater
      · obtain rfl := Except.ok.inj (haccepts.symm.trans hresult)
        exact .inl (pure_ok.mp hstate ▸ List.mem_append_right _ (List.mem_singleton.mpr rfl))
      · exact .inr hlater

theorem made_of_mem {α : Type} {make : α → Result ScoredCandidate} {as : List α}
    {made : List ScoredCandidate} (h : as.mapM make = .ok made) {a : α} (ha : a ∈ as) :
    ∃ candidate, make a = .ok candidate := by
  have hmade := forall₂_of_mapM h
  clear h
  induction hmade with
  | nil => cases ha
  | cons hhead _ ih =>
    rcases List.mem_cons.mp ha with rfl | hin
    · exact ⟨_, hhead⟩
    · exact ih hin

theorem candidateOf_error {estimate : CostedEstimate} {quota : Option Capacity.SubscriptionQuota}
    {e : Err} (hactive : env.inactive spec = .ok none) (hestimate : env.coldEstimate spec = .ok estimate)
    (hquota : env.quota spec = .ok quota)
    (h : scoreCandidate env.floats env.logs spec.toExecutorSpec estimate policy.toPolicyConfig context
      quota = .error e) : candidateOf env policy context spec = .error e := by
  have hscored : scored env policy context spec estimate = .error e :=
    bind_error.mpr (.inr ⟨quota, hquota, h⟩)
  exact bind_error.mpr (.inr ⟨none, hactive, bind_error.mpr (.inr ⟨estimate, hestimate,
    bind_error.mpr (.inl hscored)⟩)⟩)

/-- One executor that takes units of a subscription which has no allowance and no remaining that is
known fails every route of its capability, whatever the other candidates are, as long as nothing else is
against it. -/
theorem route_fails (env : RouteEnv) (registry : Registry) (policy : RoutingPolicy)
    (context : ScoringContext) (capability : String) (spec : RoutedSpec)
    (hspec : spec ∈ registry.find capability false)
    (haccepts : env.validate spec = .ok none) (hactive : env.inactive spec = .ok none)
    (estimate : CostedEstimate) (hestimate : env.coldEstimate spec = .ok estimate)
    (quota : Capacity.SubscriptionQuota) (hquota : env.quota spec = .ok (some quota))
    (hreasons : rejectionReasons env.floats spec.toExecutorSpec estimate.toRouteEstimate
      policy.constraints context.toActionContext (some quota.toSubscriptionQuota) = [])
    (hunits : subscriptionUnits env.floats spec.toExecutorSpec estimate.toRouteEstimate ≠ 0)
    (hremaining : quota.remainingUnits = none)
    (hallowance : ∃ most ∈ quota.allowanceUnits, env.floats.ofDecimal most = 0) :
    ∃ e, route env registry policy capability context = .error e := by
  cases hroute : route env registry policy capability context with
  | error e => exact ⟨e, rfl⟩
  | ok routed =>
    simp only [route, candidatesOf, bind_ok] at hroute
    obtain ⟨_, ⟨⟨specs, errors⟩, hcompatible, accepted, haccepted, -⟩, -⟩ := hroute
    have hmem : spec ∈ specs := mem_admitted hcompatible haccepts (.inr hspec)
    obtain ⟨candidate, hcandidate⟩ := made_of_mem haccepted hmem
    have hfails : ∃ e, scoreCandidate env.floats env.logs spec.toExecutorSpec estimate
        policy.toPolicyConfig context (some quota) = .error e :=
      scoreCandidate_fails.mpr ⟨hreasons, hunits, quota, rfl, hremaining, hallowance⟩
    obtain ⟨e, he⟩ := hfails
    rw [candidateOf_error hactive hestimate hquota he] at hcandidate
    cases hcandidate

end Failure

/-! ## A retained baseline -/

def summarySpec (id : String) : RoutedSpec where
  id := id
  kind := .python
  sideEffect := .read
  locality := .inProcess
  requiresNetwork := false
  dataResidency := []
  resourcePool := none
  acceptsRestrictedData := false
  capability := "summarize"
  description := ""
  enabled := true

/-- `log1p` is 0 at 0, and about 1/1000 at 1/1000. -/
def smallLogarithms : Logarithms where
  log1p x := if x < 1 / 1000 then 0 else 9995003330835332 / 10 ^ 19
  log x := if x < 1 then -1 else 0
  log1p_zero := by norm_num
  log1p_mono x y _ hle := by
    split_ifs with hx hy hy
    · exact le_rfl
    · norm_num
    · exact absurd (hle.trans_lt hy) hx
    · exact le_rfl
  log_one := by norm_num
  log_mono x y _ hle := by
    split_ifs with hx hy hy
    · exact le_rfl
    · norm_num
    · exact absurd (hle.trans_lt hy) hx
    · exact le_rfl

def summaryQuality (id : String) : ℚ≥0 := if id = "fine" then 19 / 20 else 18 / 20

def summaryEstimate (spec : RoutedSpec) : CostedEstimate where
  resources := {}
  upperBoundUsd := some 0
  subscriptionUsage := []
  successProbability := 1
  qualityScore := summaryQuality spec.id
  riskScore := 1 / 20
  amountUsd := some 0
  confidence := 1

def summaryEnv : RouteEnv where
  floats := ⟨id, fun _ => "", fun _ => "", fun _ => ""⟩
  logs := smallLogarithms
  six _ := ""
  percent _ := ""
  validate _ := .ok none
  inactive _ := .ok none
  estimate := summaryEstimate
  coldEstimate spec := .ok (summaryEstimate spec)
  quota _ := .ok none
  cacheAdjusted _ estimate := .ok (estimate, none)

theorem summaryAttempts_pos : 1 ≤ 3 := by decide

theorem summaryAttempts_le : 3 ≤ 10 := by decide

def summaryPolicy : RoutingPolicy where
  weights := ⟨30, 25, 25, 0, 10, 5, 5, by norm_num⟩
  references := ⟨1 / 20, 2000, (1000 : ℕ), 256, 512, (1000 : ℕ), 1000000, 8000, by norm_num⟩
  shadowPrices := ⟨0, 0, 0, 0, 0, 0, 0⟩
  constraints := {}
  resourceScarcityMultiplier := 2
  subscriptionScarcityMultiplier := 1
  subscriptionRules := []
  uncertaintyPenalty := 1 / 10
  preferLocalBonus := 1 / 20
  name := "balanced"
  abstention := ⟨true, some "plain", 1 / 100, 2⟩
  fallback := ⟨true, 3, true, true, false, summaryAttempts_pos, summaryAttempts_le⟩

def summaryContext : ScoringContext where
  availableCpuFraction := none
  networkMetered := false
  stateLocality := none

def summarySteps : List Registry.Step :=
  [.register (summarySpec "plain"), .register (summarySpec "fine")]

def Routed.shown (routed : Routed) : List (Option String) × Bool :=
  (routed.selectedExecutorId :: (routed.candidates.filter (·.feasible)).map fun c => some c.executorId,
    routed.candidates.all fun c => c.subscriptionQuota.isNone &&
      decide (c.estimate.resources = {}) && decide (c.estimate.amountUsd = some 0) &&
      decide (c.estimate.successProbability = 1) && decide (c.estimate.confidence = 1) &&
      decide (c.estimate.riskScore = 1 / 20) &&
      decide (c.estimate.qualityScore = summaryQuality c.executorId))

/-- The decision retains `plain`, which is ranked after `fine`. -/
theorem summary_routed : ∃ routed, route summaryEnv (run Registry.step .empty summarySteps)
    summaryPolicy "summarize" summaryContext = .ok routed ∧
      routed.shown = ([some "plain", some "fine", some "plain"], true) := by
  have hrun : (route summaryEnv (run Registry.step .empty summarySteps) summaryPolicy "summarize"
      summaryContext).toOption.map Routed.shown =
        some ([some "plain", some "fine", some "plain"], true) := by
    decide +kernel
  cases hroute : route summaryEnv (run Registry.step .empty summarySteps) summaryPolicy "summarize"
    summaryContext with
  | error e =>
    rw [hroute] at hrun
    cases hrun
  | ok routed =>
    rw [hroute] at hrun
    exact ⟨routed, rfl, Option.some.inj hrun⟩

theorem route_decides_retained : ∃ routed ranked rejected,
    routed.selectedExecutorId = some "plain" ∧
      Decided summaryEnv (run Registry.step .empty summarySteps) summaryPolicy summaryContext
        "summarize" routed ranked rejected := by
  obtain ⟨routed, hroute, hshown⟩ := summary_routed
  obtain ⟨⟨ranked, rejected, hdecided, -⟩, -⟩ := route_decides _ _ _ _ _ _ hroute
  exact ⟨routed, ranked, rejected, (List.cons.inj (congrArg Prod.fst hshown)).1, hdecided⟩

/-- What `execute` meets that goes by the decision. -/
def summaryDirect : DirectEnv :=
  { parseEnv with registry := fun _ id => some { parseSpec id with capability := "summarize" } }

def summaryTurns (routed : Routed) : List Turn :=
  (execute ⟨.read, false, false, false⟩ ((routed.routing "decision" parseRouting.fallback).decision
    ⟨"action", "summarize", none, false, parseHash⟩) (.start parseWorld summaryDirect)).2.turns

theorem executed_first_retained : ∃ routed : Routed, routed.selectedExecutorId = some "plain" ∧
    ∃ t ∈ (summaryTurns routed).head?, some t.candidate.executorId = some "fine" := by
  obtain ⟨routed, hroute, hshown⟩ := summary_routed
  obtain ⟨hselected, hfeasible⟩ := List.cons.inj (congrArg Prod.fst hshown)
  have hrun : ((route summaryEnv (run Registry.step .empty summarySteps) summaryPolicy "summarize"
      summaryContext).toOption.bind fun routed =>
        (summaryTurns routed).head?.map (·.rerouted)) = some false := by
    decide +kernel
  rw [hroute] at hrun
  obtain ⟨t, ht, hrerouted⟩ := Option.map_eq_some_iff.mp hrun
  refine ⟨routed, hselected, t, ht, ?_⟩
  rw [(executed_first _ _ _ _ _ _ hroute _ _ _ _ _ _ (fun _ => rfl) t ht hrerouted).1]
  cases hfiltered : routed.candidates.filter (·.feasible) with
  | nil =>
    rw [hfiltered] at hfeasible
    cases hfeasible
  | cons first _ =>
    rw [hfiltered] at hfeasible
    exact (List.cons.inj hfeasible).1

theorem ranked_by_merit_summaries : ∃ a b : ScoredCandidate, a.executorId = "fine" ∧
    b.executorId = "plain" ∧ total a ≤ total b := by
  obtain ⟨routed, hroute, hshown⟩ := summary_routed
  obtain ⟨-, hfeasible⟩ := List.cons.inj (congrArg Prod.fst hshown)
  have hall : ∀ c ∈ routed.candidates, c.subscriptionQuota = none ∧ c.estimate.resources = {} ∧
      c.estimate.amountUsd = some 0 ∧ c.estimate.successProbability = 1 ∧ c.estimate.confidence = 1 ∧
      c.estimate.riskScore = 1 / 20 ∧ c.estimate.qualityScore = summaryQuality c.executorId := by
    have hshown := congrArg Prod.snd hshown
    simpa [Routed.shown, and_assoc] using hshown
  have hmem : ∀ name ∈ [some "fine", some "plain"], ∃ c ∈ routed.candidates, c.feasible = true ∧
      some c.executorId = name := by
    intro name hname
    rw [← hfeasible] at hname
    obtain ⟨c, hc, heq⟩ := List.mem_map.mp hname
    obtain ⟨hin, hfeasible⟩ := List.mem_filter.mp hc
    exact ⟨c, hin, hfeasible, heq⟩
  obtain ⟨a, ha, hfa, hna⟩ := hmem (some "fine") (by simp)
  obtain ⟨b, hb, hfb, hnb⟩ := hmem (some "plain") (by simp)
  have hna := Option.some.inj hna
  have hnb := Option.some.inj hnb
  obtain ⟨hqa, hra, haa, hsa, hca, hka, hva⟩ := hall a ha
  obtain ⟨hqb, hrb, hab, hsb, hcb, hkb, hvb⟩ := hall b hb
  rw [hna] at hva
  rw [hnb] at hvb
  have hquality : summaryQuality "plain" ≤ summaryQuality "fine" := by decide +kernel
  have himproves : Improves summaryEnv.floats summaryContext
      ⟨(summarySpec "fine").toExecutorSpec, a.estimate, a.subscriptionQuota⟩
      ⟨(summarySpec "plain").toExecutorSpec, b.estimate, b.subscriptionQuota⟩ := by
    constructor
    all_goals simp [hra, hrb, hsa, hsb, hka, hkb, hca, hcb, hva, hvb, hqa, hquality, cashAmount, haa,
      hab, CashAtMost, summarySpec, summaryEnv, summaryContext, ExecutorSpec.isLocal]
  have hspec : (run Registry.step .empty summarySteps).get "fine" = .ok (summarySpec "fine") := rfl
  have hspec' : (run Registry.step .empty summarySteps).get "plain" = .ok (summarySpec "plain") := rfl
  exact ⟨a, b, hna, hnb, (ranked_by_merit summarySteps summaryEnv summaryPolicy summaryContext
    "summarize" routed hroute a b ha hb ⟨hfa, hfb⟩ (summarySpec "fine") (summarySpec "plain")
    (hna.symm ▸ hspec) (hnb.symm ▸ hspec') himproves).1⟩

def unallotted : Capacity.SubscriptionQuota where
  state := .normal
  unit := "request"
  remainingUnits := none
  resetAt := none
  observedAt := none
  confidence := 1
  source := .user
  allowanceUnits := some 0
  usedPercent := none
  windowDurationSeconds := none
  windowCount := 1
  evidenceDigest := none
  confidence_le := Capacity.sure_le

def pooledSpec : RoutedSpec := { summarySpec "pooled" with resourcePool := some "pool" }

def pooledEstimate : CostedEstimate :=
  { summaryEstimate pooledSpec with resources := { subscriptionUnits := 1 } }

def pooledEnv : RouteEnv :=
  { summaryEnv with
    coldEstimate := fun _ => .ok pooledEstimate
    quota := fun spec => .ok (spec.resourcePool.map fun _ => unallotted) }

theorem route_fails_unallotted :
    ∃ e, route pooledEnv (run Registry.step .empty (.register pooledSpec :: summarySteps)) summaryPolicy
      "summarize" summaryContext = .error e :=
  route_fails pooledEnv _ summaryPolicy summaryContext "summarize" pooledSpec
    ((Registry.mem_find (Registry.coherent_run _)).mpr ⟨rfl, rfl, .inr rfl⟩) rfl rfl pooledEstimate rfl
    unallotted rfl (by decide +kernel) (by decide +kernel) rfl ⟨0, rfl, rfl⟩

end AeepRouter.Router

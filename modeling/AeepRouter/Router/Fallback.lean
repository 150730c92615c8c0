import AeepRouter.Router.Direct

/-!
# Falling back

Whatever a call of `execute` meets, its invocations are in order (`Orderly`): those of the decision it
was given, or of what its action is routed to, then, where the quota of the next candidate has changed,
those of a decision that was routed again, each the candidates of the decision from the first on. Every
one is approved, and all but the last may be followed by another one.
-/

namespace AeepRouter.Router

open Lib

/-! ## Invocations in order -/

/-- The status of a turn lets another candidate take over. -/
def Retryable (fallback : FallbackConfig) (spec : RegisteredSpec) (raw : Returned) : Prop :=
  raw.status ∈ [.failed, .rejected, .unknown] ∨
    raw.status = .timeout ∧ fallback.retryTimeouts = true ∨
    raw.status = .success ∧ fallback.retryValidationFailures = true ∧
      (raw.outputValid spec = some false ∨ raw.taskValid spec = some false)

/-- A turn may be followed by another one: its executor can be asked again without harm, or the policy
takes that upon itself, and what became of it is known. -/
structure Turn.FallsBack (t : Turn) : Prop where
  ended : ∃ e ∈ t.ended, e.state ≠ .indeterminate ∧ e.raw.drifted = false ∧
    Retryable t.decision.fallback t.spec e.raw
  idempotent : t.spec.idempotent = true ∨ t.decision.fallback.allowNonIdempotent = true

/-- A turn is one of the call, with an executor that passed its checks. -/
structure Turn.Admitted (call : DirectCall) (env : DirectEnv) (t : Turn) : Prop where
  positive : 1 ≤ t.attempt
  candidate : (candidateOrder t.decision)[t.attempt - 1]? = some t.candidate
  bounded : t.attempt ≤ maxAttempts (call.fixed && !t.rerouted) t.decision
  registered : ∃ tick, env.registry tick t.candidate.executorId = some t.spec
  enabled : t.spec.enabled = true ∧ t.spec.capability = t.decision.action.capability
  approved : t.spec.sideEffect.rank ≤ call.approvedSideEffect.rank ∨ t.spec.isHosted = true
  safe : t.spec.safeToAutoExecute = true ∨ t.spec.isHosted = true ∨ call.allowUnsafeExecutor = true

/-- The decision that a call goes by: the one it is given, where that is the one that was validated, or
what the action is routed to. -/
inductive Origin (env : DirectEnv) (given : RouteDecision) : Bool → RouteDecision → Prop
  | given (tick : ℕ) (validated : env.validated tick = true) : Origin env given false given
  | routed (rerouted : Bool) (tick : ℕ)
      (changed : rerouted = true ∨ ∃ tick, env.validated tick = false) :
      Origin env given rerouted ((env.route tick).decision given.action)

/-- The candidate of a decision that is next after some is a managed host whose quota has changed. -/
def QuotaChanged (call : DirectCall) (env : DirectEnv) (decision : RouteDecision) (taken : ℕ) : Prop :=
  taken < maxAttempts call.fixed decision ∧ ∃ candidate ∈ (candidateOrder decision)[taken]?,
    (∃ tick, ∃ spec ∈ env.registry tick candidate.executorId, spec.isManagedHost = true) ∧
    ∃ tick, quotaMateriallyChanged candidate.subscriptionQuota (env.quota tick) = true

/-- A turn may come after some others: as the first, as the next of its decision, or as the first of
the decision that was routed again. -/
structure Follows (call : DirectCall) (env : DirectEnv) (given : RouteDecision) (turns : List Turn)
    (decision : RouteDecision) (rerouted : Bool) (attempt : ℕ) : Prop where
  origin : Origin env given rerouted decision
  first : turns = [] → attempt = 1 ∧
    (rerouted = true → ∃ unused, Origin env given false unused ∧ QuotaChanged call env unused 0)
  later : ∀ last ∈ turns.getLast?, last.FallsBack ∧
    (last.rerouted = rerouted ∧ last.decision = decision ∧ attempt = last.attempt + 1 ∨
      last.rerouted = false ∧ rerouted = true ∧ attempt = 1 ∧
        QuotaChanged call env last.decision last.attempt)

def Lawful (call : DirectCall) (env : DirectEnv) (given : RouteDecision) (turns : List Turn) : Prop :=
  ∀ before t, before ++ [t] <+: turns →
    Follows call env given before t.decision t.rerouted t.attempt ∧ t.Admitted call env

structure Segment (call : DirectCall) (rerouted : Bool) (decision : RouteDecision)
    (turns : List Turn) : Prop where
  same : ∀ t ∈ turns, t.rerouted = rerouted ∧ t.decision = decision
  candidates : turns.map (·.candidate) = (candidateOrder decision).take turns.length
  numbers : turns.map (·.attempt) = List.range' 1 turns.length
  bounded : turns.length ≤ maxAttempts (call.fixed && !rerouted) decision

/-- The turns of a call: some of its decision and, where the quota of the next candidate of that has
changed, some of what the action was routed to again. -/
structure Split (call : DirectCall) (env : DirectEnv) (given decision : RouteDecision)
    (first second : List Turn) : Prop where
  origin : Origin env given false decision
  turns : Segment call false decision first
  rerouted : second = [] ∨ QuotaChanged call env decision first.length ∧
    ∃ again, Origin env given true again ∧ Segment call true again second

structure Orderly (call : DirectCall) (env : DirectEnv) (given : RouteDecision)
    (turns : List Turn) : Prop where
  split : turns = [] ∨
    ∃ decision first second, turns = first ++ second ∧ Split call env given decision first second
  admitted : ∀ t ∈ turns, t.Admitted call env
  falls : ∀ t ∈ turns.dropLast, t.FallsBack

section Lists

variable {call : DirectCall} {env : DirectEnv} {given decision : RouteDecision} {turns : List Turn}
  {t : Turn}

theorem Lawful.nil : Lawful call env given [] := by
  intro before t h
  have hlength := h.length_le
  simp at hlength

theorem Lawful.init (h : Lawful call env given (turns ++ [t])) : Lawful call env given turns :=
  fun before t' hinit => h before t' (hinit.trans (List.prefix_append _ _))

theorem Lawful.append (h : Lawful call env given turns)
    (hfollows : Follows call env given turns t.decision t.rerouted t.attempt) (hadmitted : t.Admitted call env) :
    Lawful call env given (turns ++ [t]) := by
  intro before t' hinit
  rcases List.prefix_concat_iff.mp hinit with heq | hbefore
  · obtain ⟨rfl, htail⟩ := List.append_inj' heq rfl
    obtain rfl := (List.cons.inj htail).1
    exact ⟨hfollows, hadmitted⟩
  · exact h before t' hbefore

theorem Lawful.end (h : Lawful call env given (turns ++ [t])) (e : Ended) :
    Lawful call env given (turns ++ [{ t with ended := some e }]) := by
  obtain ⟨hfollows, hadmitted⟩ := h turns t List.prefix_rfl
  refine h.init.append hfollows ?_
  exact ⟨hadmitted.positive, hadmitted.candidate, hadmitted.bounded, hadmitted.registered,
    hadmitted.enabled, hadmitted.approved, hadmitted.safe⟩

theorem Origin.action {rerouted : Bool} (h : Origin env given rerouted decision) :
    decision.action = given.action := by
  cases h with
  | given tick validated => rfl
  | routed rerouted tick changed => rfl

/-- A decision may be validated again. -/
theorem Origin.trans {rerouted : Bool} {decision' : RouteDecision}
    (h : Origin env given rerouted decision) (h' : Origin env decision false decision') :
    Origin env given rerouted decision' := by
  cases h' with
  | given tick validated => exact h
  | routed _ tick changed =>
    rw [h.action]
    exact .routed rerouted tick (.inr (changed.resolve_left Bool.false_ne_true))

theorem Segment.nil (rerouted : Bool) (decision : RouteDecision) :
    Segment call rerouted decision [] :=
  ⟨by simp, by simp, by simp, by simp⟩

theorem Segment.append (h : Segment call t.rerouted t.decision turns)
    (hattempt : t.attempt = turns.length + 1) (hadmitted : t.Admitted call env) :
    Segment call t.rerouted t.decision (turns ++ [t]) := by
  have hcandidate := hadmitted.candidate
  rw [hattempt, Nat.add_sub_cancel] at hcandidate
  constructor
  · intro t' ht'
    rcases List.mem_append.mp ht' with hin | hlast
    · exact h.same t' hin
    · rw [List.mem_singleton.mp hlast]
      exact ⟨rfl, rfl⟩
  · rw [List.map_append, h.candidates, List.length_append, List.length_singleton,
      List.take_add_one, hcandidate]
    rfl
  · rw [List.map_append, h.numbers, List.length_append, List.length_singleton, List.range'_concat]
    simp [hattempt, Nat.add_comm]
  · have hbounded := hadmitted.bounded
    rw [List.length_append, List.length_singleton]
    omega

theorem Segment.attempt_last {rerouted : Bool} (h : Segment call rerouted decision turns)
    (hlast : turns.getLast? = some t) : t.attempt = turns.length := by
  have hnumber := congrArg List.getLast? h.numbers
  rw [List.getLast?_map, hlast, List.getLast?_range', Option.map_some] at hnumber
  split at hnumber
  · cases hnumber
  · have hvalue := Option.some.inj hnumber
    omega

theorem Orderly.nil : Orderly call env given [] where
  split := .inl rfl
  admitted := by simp
  falls := by simp

theorem split_single (hfollows : Follows call env given [] t.decision t.rerouted t.attempt)
    (hadmitted : t.Admitted call env) :
    ∃ decision first second, [t] = first ++ second ∧
      Split call env given decision first second := by
  obtain ⟨hattempt, hchanged⟩ := hfollows.first rfl
  have hsegment : Segment call t.rerouted t.decision [t] :=
    .append (.nil t.rerouted t.decision) hattempt hadmitted
  have horigin := hfollows.origin
  cases hrerouted : t.rerouted with
  | false =>
    rw [hrerouted] at hsegment horigin
    exact ⟨t.decision, [t], [], rfl, horigin, hsegment, .inl rfl⟩
  | true =>
    rw [hrerouted] at hsegment horigin
    obtain ⟨unused, hunused, hquota⟩ := hchanged hrerouted
    exact ⟨unused, [], [t], rfl, hunused, .nil false unused,
      .inr ⟨hquota, t.decision, horigin, hsegment⟩⟩

/-- A turn goes on with the last segment, or begins the second one. -/
theorem Split.append {first second : List Turn} (h : Split call env given decision first second)
    (hfollows : Follows call env given (first ++ second) t.decision t.rerouted t.attempt)
    (hadmitted : t.Admitted call env) :
    ∃ decision' first' second', first ++ second ++ [t] = first' ++ second' ∧
      Split call env given decision' first' second' := by
  rcases List.eq_nil_or_concat second with rfl | ⟨before, last, rfl⟩
  · rw [List.append_nil] at hfollows ⊢
    rcases List.eq_nil_or_concat first with rfl | ⟨before, last, rfl⟩
    · exact split_single hfollows hadmitted
    · have hlast : (before.concat last).getLast? = some last := by simp
      obtain ⟨hsame, hdecision⟩ := h.turns.same last (by simp)
      have hlatest := h.turns.attempt_last hlast
      obtain ⟨-, ⟨hrerouted, heq, hattempt⟩ | ⟨-, hrerouted, hattempt, hquota⟩⟩ :=
        hfollows.later last hlast
      · have hfirst := h.turns
        rw [← hdecision, heq, ← hsame, hrerouted] at hfirst
        have hsegment := hfirst.append (hlatest ▸ hattempt) hadmitted
        rw [← hrerouted, hsame, ← heq, hdecision] at hsegment
        exact ⟨decision, before.concat last ++ [t], [], by simp, h.origin, hsegment, .inl rfl⟩
      · have hsegment : Segment call t.rerouted t.decision [t] :=
          .append (.nil t.rerouted t.decision) hattempt hadmitted
        have horigin := hfollows.origin
        rw [hrerouted] at hsegment horigin
        rw [hdecision, hlatest] at hquota
        exact ⟨decision, before.concat last, [t], rfl, h.origin, h.turns,
          .inr ⟨hquota, t.decision, horigin, hsegment⟩⟩
  · obtain ⟨hquota, again, horigin, hsecond⟩ := h.rerouted.resolve_left (by simp)
    obtain ⟨hsame, hdecision⟩ := hsecond.same last (by simp)
    have hlatest : last.attempt = _ := hsecond.attempt_last (by simp)
    obtain ⟨-, ⟨hrerouted, heq, hattempt⟩ | ⟨hrerouted, -, -⟩⟩ := hfollows.later last (by simp)
    · have hsegment := hsecond
      rw [← hdecision, heq, ← hsame, hrerouted] at hsegment
      have hsegment := hsegment.append (hlatest ▸ hattempt) hadmitted
      rw [← hrerouted, hsame, ← heq, hdecision] at hsegment
      exact ⟨decision, first, before.concat last ++ [t], by simp, h.origin, h.turns,
        .inr ⟨hquota, again, horigin, hsegment⟩⟩
    · rw [hsame] at hrerouted
      cases hrerouted

theorem Orderly.append (h : Orderly call env given turns)
    (hfollows : Follows call env given turns t.decision t.rerouted t.attempt) (hadmitted : t.Admitted call env) :
    Orderly call env given (turns ++ [t]) := by
  refine ⟨?_, fun t' ht' => ?_, fun t' ht' => ?_⟩
  · rcases h.split with rfl | ⟨decision, first, second, rfl, hsplit⟩
    · exact .inr (split_single hfollows hadmitted)
    · exact .inr (hsplit.append hfollows hadmitted)
  · rcases List.mem_append.mp ht' with hin | hlast
    · exact h.admitted t' hin
    · exact List.mem_singleton.mp hlast ▸ hadmitted
  · rw [List.dropLast_concat] at ht'
    obtain ⟨before, last, rfl⟩ := (List.eq_nil_or_concat turns).resolve_left (by
      rintro rfl
      cases ht')
    rw [List.concat_eq_append] at *
    rcases List.mem_append.mp ht' with hin | hlast
    · exact h.falls t' (by rwa [List.dropLast_concat])
    · rw [List.mem_singleton.mp hlast]
      exact (hfollows.later last (by simp)).1

theorem Orderly.first (h : Orderly call env given turns) (ht : turns.head? = some t)
    (hrerouted : t.rerouted = false) :
    Origin env given false t.decision ∧ (candidateOrder t.decision).head? = some t.candidate := by
  rcases h.split with rfl | ⟨decision, first, second, rfl, hsplit⟩
  · cases ht
  · cases first with
    | nil =>
      rcases hsplit.rerouted with rfl | ⟨-, again, -, hsecond⟩
      · cases ht
      · rw [(hsecond.same t (List.mem_of_mem_head? ht)).1] at hrerouted
        cases hrerouted
    | cons t' rest =>
      obtain rfl : t' = t := Option.some.inj ht
      obtain rfl := (hsplit.turns.same t' List.mem_cons_self).2
      have hhead := congrArg List.head? hsplit.turns.candidates
      rw [List.map_cons, List.head?_cons, List.head?_take, if_neg (by simp)] at hhead
      exact ⟨hsplit.origin, hhead.symm⟩

theorem Lawful.orderly (h : Lawful call env given turns) : Orderly call env given turns := by
  induction turns using List.reverseRecOn with
  | nil => exact .nil
  | append_singleton turns t ih =>
    obtain ⟨hfollows, hadmitted⟩ := h turns t List.prefix_rfl
    exact (ih h.init).append hfollows hadmitted

end Lists

/-! ## What the steps of a call do -/

inductive Desk.Step (call : DirectCall) (env : DirectEnv) (given : RouteDecision) (d d' : Desk) :
    Prop where
  | keeps (same : d'.env = d.env) (turns : d'.turns = d.turns) : Desk.Step call env given d d'
  | opens (same : d'.env = d.env) (t : Turn)
      (follows : Follows call env given d.turns t.decision t.rerouted t.attempt) (admitted : t.Admitted call env)
      (turns : d'.turns = d.turns ++ [t]) : Desk.Step call env given d d'
  | ends (same : d'.env = d.env) (before : List Turn) (t : Turn) (e : Ended)
      (found : d.turns = before ++ [t])
      (turns : d'.turns = before ++ [{ t with ended := some e }]) : Desk.Step call env given d d'

/-- A condition on the turns, in an environment. -/
def At (env : DirectEnv) (T : List Turn → Prop) (d : Desk) : Prop := d.env = env ∧ T d.turns

section Rules

open Process

variable {α β : Type} {call : DirectCall} {env : DirectEnv} {given : RouteDecision}
  {T : List Turn → Prop}

theorem stable_lawful : Stable (Desk.Step call env given) fun d => Lawful call env given d.turns := by
  intro d d' hstep hlawful
  cases hstep with
  | keeps _ turns => exact turns ▸ hlawful
  | opens _ t follows admitted turns => exact turns ▸ hlawful.append follows admitted
  | ends _ before t e found turns =>
    rw [found] at hlawful
    exact turns ▸ hlawful.end e

abbrev Leaves (call : DirectCall) (env : DirectEnv) (given : RouteDecision) (T : List Turn → Prop)
    (m : DirectM α) : Prop :=
  Does (Desk.Step call env given) (At env T) m (fun _ => At env T) fun _ => At env T

theorem onWorld_leaves (m : RouterM α) : Leaves call env given T (onWorld m) := by
  have hkeeps : ∀ d, ((onWorld m) d).2.env = d.env ∧ ((onWorld m) d).2.turns = d.turns :=
    fun _ => ⟨rfl, rfl⟩
  have hat : ∀ d d', At env T d → d' = ((onWorld m) d).2 → At env T d' := by
    rintro d _ hd rfl
    exact hd
  refine ⟨fun d _ => .single (.keeps (hkeeps d).1 (hkeeps d).2), fun d a d' hd heq => ?_,
    fun d e d' hd heq => ?_⟩
  · exact hat d d' hd (by rw [heq])
  · exact hat d d' hd (by rw [heq])

theorem attend_leaves : Leaves call env given T attend := onWorld_leaves _

theorem drawDirect_leaves (f : DirectEnv → ℕ → α) :
    Does (Desk.Step call env given) (At env T) (drawDirect f)
      (fun a d => At env T d ∧ ∃ tick, a = f env tick) fun _ => At env T := by
  refine ⟨fun d _ => .single (.keeps rfl rfl), fun d a d' hd heq => ?_, fun d e d' hd heq => ?_⟩
  · cases heq
    exact ⟨hd, d.tick, by rw [hd.1]⟩
  · cases heq

theorem raise_leaves (fault : Fault) : Leaves call env given T (raise fault : DirectM α) :=
  .raise fun _ hd => hd

theorem complain_leaves (p : Prop) [Decidable p] (fault : Fault) :
    Does (Desk.Step call env given) (At env T) (complain p fault) (fun _ d => At env T d ∧ ¬ p)
      fun _ => At env T := by
  unfold complain
  by_cases hp : p
  · rw [if_pos hp]
    exact .raise fun _ hd => hd
  · rw [if_neg hp]
    exact .pure fun _ hd => ⟨hd, hp⟩

theorem keyTransact_leaves (t : Transaction α) (mark : α → KeyMark) :
    Leaves call env given T (keyTransact t mark) := by
  have hkeeps : ∀ d, ((keyTransact t mark) d).2.env = d.env ∧
      ((keyTransact t mark) d).2.turns = d.turns := by
    intro d
    unfold keyTransact
    dsimp only
    split <;> exact ⟨rfl, rfl⟩
  have hat : ∀ d d', At env T d → d' = ((keyTransact t mark) d).2 → At env T d' := by
    rintro d _ hd rfl
    exact ⟨(hkeeps d).1.trans hd.1, by rw [(hkeeps d).2]; exact hd.2⟩
  refine ⟨fun d _ => .single (.keeps (hkeeps d).1 (hkeeps d).2), fun d a d' hd heq => ?_,
    fun d e d' hd heq => ?_⟩
  · exact hat d d' hd (by rw [heq])
  · exact hat d d' hd (by rw [heq])

theorem Leaves.bind {m : DirectM α} {f : α → DirectM β} (hm : Leaves call env given T m)
    (hf : ∀ a, Leaves call env given T (f a)) : Leaves call env given T (m >>= f) :=
  Does.bind hm hf

theorem Leaves.loose {m : DirectM α} (h : Leaves call env given T m) :
    Does (Desk.Step call env given) (At env T) m (fun _ => At env T) fun _ _ => True :=
  h.mono (fun _ hd => hd) (fun _ _ hd => hd) fun _ _ _ => trivial

/-- A condition that says something of a value besides is one on the desk, given that. -/
theorem does_given {step : Desk → Desk → Prop} {P : Desk → Prop} {m : DirectM α} {R : Prop}
    {Q : α → Desk → Prop} {E : Fault → Desk → Prop} (h : R → Does step P m Q E) :
    Does step (fun d => P d ∧ R) m Q E where
  moves d hd := (h hd.2).moves d hd.1
  returns d a d' hd := (h hd.2).returns d a d' hd.1
  raises d e d' hd := (h hd.2).raises d e d' hd.1

/-- A handler that raises again. -/
theorem Leaves.guarded {m : DirectM α} {caught : Fault → Bool} {handler : Fault → DirectM α}
    (hm : Leaves call env given T m) (hhandler : ∀ fault, Leaves call env given T (handler fault)) :
    Leaves call env given T (m.guarded caught handler) :=
  Does.guarded hm (fun fault _ => hhandler fault) fun _ _ _ hd => hd

end Rules

/-! ## A turn -/

section Turn

open Process

variable {call : DirectCall} {env : DirectEnv} {T : List Turn → Prop} {given decision : RouteDecision}
  {rerouted claimed : Bool} {attempt : ℕ} {candidate : CandidateScore} {spec : RegisteredSpec}

/-- An executor has passed the checks of a turn. -/
structure Passed (call : DirectCall) (decision : RouteDecision) (spec : RegisteredSpec) : Prop where
  enabled : spec.enabled = true ∧ spec.capability = decision.action.capability
  approved : spec.sideEffect.rank ≤ call.approvedSideEffect.rank ∨ spec.isHosted = true
  safe : spec.safeToAutoExecute = true ∨ spec.isHosted = true ∨ call.allowUnsafeExecutor = true

theorem checkCandidate_does :
    Does (Desk.Step call env given) (At env T) (checkCandidate call decision spec)
      (fun _ d => At env T d ∧ Passed call decision spec) fun _ => At env T := by
  unfold checkCandidate
  refine .bind (complain_leaves _ _) fun _ => does_given fun henabled => ?_
  refine .bind attend_leaves fun _ => ?_
  refine .bind (drawDirect_leaves _) fun requires => does_given fun _ => ?_
  refine .bind (complain_leaves _ _) fun _ => does_given fun _ => ?_
  refine .bind (drawDirect_leaves _) fun reasons => does_given fun _ => ?_
  refine .bind (complain_leaves _ _) fun _ => does_given fun _ => ?_
  refine .bind (complain_leaves _ _) fun _ => does_given fun happroved => ?_
  refine .bind (complain_leaves _ _) fun _ => does_given fun hsafe => ?_
  refine attend_leaves.mono (fun _ hd => hd) (fun _ _ hd => ⟨hd, ?_⟩) fun _ _ hd => hd
  rw [not_or, Bool.not_eq_false, not_not] at henabled
  refine ⟨henabled, ?_, ?_⟩
  · by_cases hhosted : spec.isHosted
    · exact .inr hhosted
    · exact .inl (not_lt.mp fun hlt => happroved ⟨hlt, hhosted⟩)
  · by_contra hnone
    simp only [not_or, Bool.not_eq_true] at hnone
    exact hsafe (by simp [hnone])

theorem advanceOrFail_leaves (current : ExecutionAttempt) (target : ExecutionAttemptState)
    (reason : String) (updates : AttemptUpdates) (capacitySpec : Option ExecutorSpec) :
    Leaves call env given T (advanceOrFail current target reason updates capacitySpec) :=
  (onWorld_leaves _).guarded fun _ => (onWorld_leaves _).bind fun _ => raise_leaves _

theorem enterTurn_leaves : Leaves call env given T (enterTurn decision spec) :=
  (onWorld_leaves _).bind fun _ => (advanceOrFail_leaves _ _ _ _ _).bind fun _ =>
    (onWorld_leaves _).bind fun _ => advanceOrFail_leaves _ _ _ _ _

theorem executeKey_leaves (key : String) : Leaves call env given T (executeKey key) :=
  keyTransact_leaves _ _

theorem executeFirst_leaves : Leaves call env given T (executeFirst decision claimed attempt) := by
  unfold executeFirst
  split
  · exact .pure fun _ hd => hd
  · split
    · exact executeKey_leaves _
    · exact .pure fun _ hd => hd

/-- The last turn is a new one of a candidate. -/
def Opened (decision : RouteDecision) (rerouted : Bool) (attempt : ℕ) (spec : RegisteredSpec)
    (before : List Turn) (ended : Option Ended) (turns : List Turn) : Prop :=
  ∃ t, turns = before ++ [t] ∧ t.decision = decision ∧ t.rerouted = rerouted ∧
    t.attempt = attempt ∧ t.spec = spec ∧ t.ended = ended

theorem openTurn_does {before : List Turn} {E : Fault → Desk → Prop} (t : Turn)
    (hfollows : Follows call env given before t.decision t.rerouted t.attempt) (hadmitted : t.Admitted call env)
    (hopen : t.ended = none) :
    Does (Desk.Step call env given) (At env (· = before)) (openTurn t)
      (fun _ => At env (Opened t.decision t.rerouted t.attempt t.spec before none)) E := by
  refine .update (fun d hd => .opens rfl t (hd.2.symm ▸ hfollows) hadmitted rfl) fun d hd => ?_
  exact ⟨hd.1, t, by rw [← hd.2], rfl, rfl, rfl, rfl, hopen⟩

theorem endTurn_does {before : List Turn} (ended : Ended) :
    Does (Desk.Step call env given) (At env (Opened decision rerouted attempt spec before none))
      (endTurn ended)
      (fun _ => At env (Opened decision rerouted attempt spec before (some ended)))
      fun _ _ => True := by
  have hends : ∀ d, At env (Opened decision rerouted attempt spec before none) d →
      ∃ t, d.turns = before ++ [t] ∧ (t.decision = decision ∧ t.rerouted = rerouted ∧
        t.attempt = attempt ∧ t.spec = spec) ∧
        d.turns.dropLast ++ d.turns.getLast?.toList.map (fun turn =>
          { turn with ended := some ended }) = before ++ [{ t with ended := some ended }] := by
    rintro d ⟨-, t, hturns, hdecision, hrerouted, hattempt, hspec, -⟩
    refine ⟨t, hturns, ⟨hdecision, hrerouted, hattempt, hspec⟩, ?_⟩
    rw [hturns, List.dropLast_concat, List.getLast?_concat]
    rfl
  refine .update (fun d hd => ?_) fun d hd => ?_
  · obtain ⟨t, hturns, -, heq⟩ := hends d hd
    exact .ends rfl before t ended hturns heq
  · obtain ⟨t, -, ⟨hdecision, hrerouted, hattempt, hspec⟩, heq⟩ := hends d hd
    exact ⟨hd.1, _, heq, hdecision, hrerouted, hattempt, hspec, rfl⟩

theorem settleTurn_does {before : List Turn} (invoking : ExecutionAttempt) (raw : Returned) :
    Does (Desk.Step call env given) (At env (Opened decision rerouted attempt spec before none))
      (settleTurn decision spec invoking raw)
      (fun ended d => ended.raw = raw ∧
        At env (Opened decision rerouted attempt spec before (some ended)) d)
      fun _ _ => True := by
  unfold settleTurn
  refine .bind (onWorld_leaves _).loose fun validating => ?_
  refine .bind attend_leaves.loose fun _ => ?_
  refine .bind (onWorld_leaves _).loose fun receiptId => ?_
  refine .bind (onWorld_leaves _).loose fun settling => ?_
  refine .bind (onWorld_leaves _).loose fun _ => ?_
  refine .bind (onWorld_leaves _).loose fun _ => ?_
  refine .bind (onWorld_leaves _).loose fun _ => ?_
  exact .bind (endTurn_does _) fun _ => .pure fun _ hd => ⟨rfl, hd⟩

theorem invokeTurn_does {before : List Turn} (invoking : ExecutionAttempt)
    (hfollows : Follows call env given before decision rerouted attempt)
    (hadmitted : ∀ attemptId, Turn.Admitted call env
      ⟨decision, rerouted, attempt, candidate, spec, attemptId, none⟩) :
    Does (Desk.Step call env given) (At env (· = before))
      (invokeTurn decision rerouted attempt candidate spec invoking)
      (fun _ => At env (Opened decision rerouted attempt spec before none)) fun _ _ => True := by
  unfold invokeTurn
  -- the handler does not know whether the turn was opened
  have hany : ∀ T : List Turn → Prop, ∀ fault : Fault, ∀ d, At env T d → At env (fun _ => True) d :=
    fun _ _ _ hd => ⟨hd.1, trivial⟩
  refine .guarded (E := fun _ => At env fun _ => True) ?_ (fun fault _ => ?_) fun _ _ _ _ => trivial
  · refine .bind (attend_leaves.mono (fun _ hd => hd) (fun _ _ hd => hd) (hany _)) fun _ => ?_
    refine .bind (openTurn_does _ hfollows (hadmitted _) rfl) fun _ => ?_
    refine .bind (attend_leaves.mono (fun _ hd => hd) (fun _ _ hd => hd) (hany _)) fun _ => ?_
    exact (drawDirect_leaves _).mono (fun _ hd => hd) (fun _ _ hd => hd.1) (hany _)
  · exact .bind (onWorld_leaves _).loose fun _ => .raise fun _ _ => trivial

theorem takeTurn_does {before : List Turn} (hfollows : Follows call env given before decision rerouted attempt)
    (hpositive : 1 ≤ attempt) (hcandidate : (candidateOrder decision)[attempt - 1]? = some candidate)
    (hbounded : attempt ≤ maxAttempts (call.fixed && !rerouted) decision)
    (hregistered : ∃ tick, env.registry tick candidate.executorId = some spec) :
    Does (Desk.Step call env given) (At env (· = before))
      (takeTurn call decision rerouted claimed attempt candidate spec)
      (fun ended => At env (Opened decision rerouted attempt spec before (some ended)))
      fun _ _ => True := by
  unfold takeTurn
  refine .bind (checkCandidate_does.mono (fun _ hd => hd) (fun _ _ hd => hd) fun _ _ _ => trivial)
    fun _ => does_given fun hpassed => ?_
  have hadmitted : ∀ attemptId, Turn.Admitted call env
      ⟨decision, rerouted, attempt, candidate, spec, attemptId, none⟩ := fun attemptId =>
    ⟨hpositive, hcandidate, hbounded, hregistered, hpassed.enabled, hpassed.approved, hpassed.safe⟩
  refine .bind enterTurn_leaves.loose fun invoking => ?_
  refine .bind executeFirst_leaves.loose fun _ => ?_
  refine .bind (invokeTurn_does invoking hfollows hadmitted) fun raw => ?_
  exact (settleTurn_does invoking raw).mono (fun _ hd => hd) (fun _ _ hd => hd.2) fun _ _ hd => hd

end Turn

/-! ## The loop -/

/-- A turn that decides nothing: it is neither over for good nor a success. -/
structure Ended.Undecided (e : Ended) (spec : RegisteredSpec) : Prop where
  drifted : e.raw.drifted = false
  hosted : e.raw.status ∉ [.delegated, .hostSelected]
  failed : e.raw.succeeded spec = false

/-- What a call reports of its last turn. -/
structure Concluded (outcome : DirectOutcome) (last : Turn) (e : Ended) : Prop where
  decisionId : outcome.decisionId = last.decision.decisionId
  ok : outcome.ok = true ↔ e.raw.drifted = false ∧
    (e.raw.status ∈ [.delegated, .hostSelected] ∨ e.raw.succeeded last.spec = true)
  status : outcome.status = if e.raw.drifted then .failed else e.finalStatus last.spec

def turnReceipts (rerouted : Bool) (turns : List Turn) : List String :=
  (turns.filter (·.rerouted = rerouted)).filterMap fun t => t.ended.map (·.receiptId)

/-- What a call that returns has made of its turns. -/
def Reported (outcome : DirectOutcome) (turns : List Turn) : Prop :=
  ∃ last ∈ turns.getLast?, ∃ e ∈ last.ended, Concluded outcome last e ∧
    outcome.receiptIds = turnReceipts last.rerouted turns

section Loop

open Process

variable {call : DirectCall} {env : DirectEnv} {given decision : RouteDecision}
  {rerouted claimed : Bool} {attempt : ℕ} {e : Ended} {spec : RegisteredSpec}
  {turns before : List Turn} {receiptIds : List String}

theorem undecided_of_outcome (h : e.outcome decision spec receiptIds = none) :
    e.Undecided spec := by
  unfold Ended.outcome at h
  split at h
  · cases h
  · next hdrifted =>
    split at h
    · cases h
    · next hhosted =>
      split at h
      · cases h
      · next hfailed => exact ⟨by simpa using hdrifted, hhosted, by simpa using hfailed⟩

theorem outcome_decided {outcome : DirectOutcome} {last : Turn} (hdecision : last.decision = decision)
    (hspec : last.spec = spec) (h : e.outcome decision spec receiptIds = some outcome) :
    Concluded outcome last e ∧ outcome.receiptIds = receiptIds := by
  subst hdecision hspec
  unfold Ended.outcome at h
  split at h
  · next hdrifted =>
    obtain rfl := Option.some.inj h
    exact ⟨⟨rfl, by simp [outcomeOf, hdrifted], by simp [outcomeOf, hdrifted]⟩, rfl⟩
  · next hdrifted =>
    split at h
    · next hhosted =>
      obtain rfl := Option.some.inj h
      have hstatus : e.raw.status ≠ .success := by
        intro hsuccess
        rw [hsuccess] at hhosted
        revert hhosted
        decide
      refine ⟨⟨rfl, by simp [outcomeOf, hdrifted, hhosted], ?_⟩, rfl⟩
      simp [outcomeOf, hdrifted, Ended.finalStatus, hstatus]
    · next hhosted =>
      split at h
      · next hsucceeded =>
        obtain rfl := Option.some.inj h
        have hsuccess := hsucceeded
        unfold Returned.succeeded at hsuccess
        simp only [decide_eq_true_eq] at hsuccess
        refine ⟨⟨rfl, by simp [outcomeOf, hdrifted, hsucceeded], ?_⟩, rfl⟩
        simp [outcomeOf, hdrifted, Ended.finalStatus, hsuccess]
      · cases h

/-- Where the loop goes on, another turn may follow. -/
theorem fallsBack_of_undecided {t : Turn} (hended : t.ended = some e) (h : e.Undecided t.spec)
    (hfalls : e.fallsBack t.decision t.spec = true) : t.FallsBack := by
  unfold Ended.fallsBack at hfalls
  obtain ⟨hstate, hcan⟩ := of_decide_eq_true hfalls
  have hinvalid : (if e.raw.outputValid t.spec = some false ∨ e.raw.taskValid t.spec = some false then
      some false else e.raw.taskValid t.spec) = some false →
      e.raw.outputValid t.spec = some false ∨ e.raw.taskValid t.spec = some false := by
    split
    · next hfalse => exact fun _ => hfalse
    · exact .inr
  generalize (if e.raw.outputValid t.spec = some false ∨ e.raw.taskValid t.spec = some false then
    some false else e.raw.taskValid t.spec) = valid at hcan hinvalid
  unfold canFallback at hcan
  split at hcan
  · cases hcan
  · next hidempotent =>
    have hallowed : t.spec.idempotent = true ∨ t.decision.fallback.allowNonIdempotent = true := by
      by_contra hnone
      exact hidempotent (not_or.mp hnone)
    refine ⟨⟨e, hended, hstate, h.drifted, ?_⟩, hallowed⟩
    split at hcan
    · next htimeout => exact .inr (.inl ⟨htimeout, hcan⟩)
    · split at hcan
      · next hsuccess => exact .inr (.inr ⟨hsuccess.1, hcan, hinvalid hsuccess.2⟩)
      · exact .inl (of_decide_eq_true hcan)

/-- The turns are at the beginning of a round of the loop. -/
structure InLoop (call : DirectCall) (env : DirectEnv) (given decision : RouteDecision)
    (rerouted : Bool) (attempt : ℕ) (receiptIds : List String)
    (last : Option (Ended × RegisteredSpec)) (turns : List Turn) : Prop where
  follows : Follows call env given turns decision rerouted attempt
  receipts : receiptIds = turnReceipts rerouted turns
  last : ∀ found ∈ last, ∃ t ∈ turns.getLast?, t.ended = some found.1 ∧ t.spec = found.2 ∧
    t.decision = decision ∧ t.rerouted = rerouted ∧ found.1.Undecided found.2
  unrouted : rerouted = false → ∀ t ∈ turns, t.rerouted = false

theorem turnReceipts_append {t : Turn} (hrerouted : t.rerouted = rerouted) (hended : t.ended = some e) :
    turnReceipts rerouted (before ++ [t]) = turnReceipts rerouted before ++ [e.receiptId] := by
  unfold turnReceipts
  simp [hrerouted, hended]

/-- A call that routes again stands before the first turn of the new decision. -/
structure MayReroute (call : DirectCall) (env : DirectEnv) (given : RouteDecision)
    (turns : List Turn) : Prop where
  unrouted : ∀ t ∈ turns, t.rerouted = false
  unused : turns = [] → ∃ unused, Origin env given false unused ∧ QuotaChanged call env unused 0
  falls : ∀ last ∈ turns.getLast?, last.FallsBack ∧ QuotaChanged call env last.decision last.attempt

theorem InLoop.mayReroute {last : Option (Ended × RegisteredSpec)}
    (h : InLoop call env given decision false attempt receiptIds last turns)
    (hquota : QuotaChanged call env decision (attempt - 1)) : MayReroute call env given turns := by
  refine ⟨h.unrouted rfl, fun hnil => ⟨decision, h.follows.origin, ?_⟩, fun t ht => ?_⟩
  · rwa [(h.follows.first hnil).1] at hquota
  · obtain ⟨hfalls, ⟨-, hdecision, hattempt⟩ | ⟨-, hrerouted, -⟩⟩ := h.follows.later t ht
    · rw [← hdecision, hattempt, Nat.add_sub_cancel] at hquota
      exact ⟨hfalls, hquota⟩
    · cases hrerouted

theorem MayReroute.inLoop (h : MayReroute call env given turns)
    (horigin : Origin env given true decision) :
    InLoop call env given decision true 1 [] none turns where
  follows := ⟨horigin, fun hnil => ⟨rfl, fun _ => h.unused hnil⟩, fun last hlast =>
    ⟨(h.falls last hlast).1,
      .inr ⟨h.unrouted last (List.mem_of_getLast? hlast), rfl, rfl, (h.falls last hlast).2⟩⟩⟩
  receipts := by
    unfold turnReceipts
    rw [List.filter_eq_nil_iff.mpr fun t ht => by simp [h.unrouted t ht]]
    rfl
  last := by simp
  unrouted := by simp

theorem quotaChanged_does {T : List Turn → Prop} (candidate : CandidateScore) :
    Does (Desk.Step call env given) (At env T) (quotaChanged candidate spec)
      (fun changed d => At env T d ∧ (changed = true → spec.isManagedHost = true ∧
        ∃ tick, quotaMateriallyChanged candidate.subscriptionQuota (env.quota tick) = true))
      fun _ => At env T := by
  unfold quotaChanged
  split
  · next hmanaged =>
    refine .bind attend_leaves fun _ => .bind (drawDirect_leaves _) fun after =>
      does_given fun hafter => .pure fun _ hd => ⟨hd, fun hchanged => ⟨hmanaged, ?_⟩⟩
    obtain ⟨tick, rfl⟩ := hafter
    exact ⟨tick, hchanged⟩
  · exact .pure fun _ hd => ⟨hd, fun hfalse => by cases hfalse⟩

theorem suspendDrifted_leaves {T : List Turn → Prop} (e : Ended) :
    Leaves call env given T (suspendDrifted e) := by
  unfold suspendDrifted
  split
  · exact attend_leaves
  · exact .pure fun _ hd => hd

theorem does_of_turns {α : Type} {T : List Turn → Prop} {m : DirectM α} {Q : α → Desk → Prop}
    {E : Fault → Desk → Prop}
    (h : ∀ turns, T turns → Does (Desk.Step call env given) (At env (· = turns)) m Q E) :
    Does (Desk.Step call env given) (At env T) m Q E :=
  .from_state fun d hd => (h d.turns hd.2).mono
    (fun d' heq => by
      subst heq
      exact ⟨hd.1, rfl⟩)
    (fun _ _ hq => hq) fun _ _ he => he

theorem concluded_of_undecided {t : Turn} (hdecision : t.decision = decision) (hspec : t.spec = spec)
    (h : e.Undecided spec) :
    Concluded (outcomeOf decision false (e.finalStatus spec) receiptIds) t e := by
  subst hdecision hspec
  exact ⟨rfl, by simp [outcomeOf, h.hosted, h.failed], by simp [outcomeOf, h.drifted]⟩

/-- The candidate of a round, and those that are left. -/
theorem candidate_of_drop {order : List CandidateScore} {most : ℕ} {candidate : CandidateScore}
    {candidates : List CandidateScore} (hpositive : 1 ≤ attempt)
    (h : candidate :: candidates = (order.take most).drop (attempt - 1)) :
    order[attempt - 1]? = some candidate ∧ attempt ≤ most ∧
      candidates = (order.take most).drop (attempt + 1 - 1) := by
  have hget : (order.take most)[attempt - 1]? = some candidate := by
    have hhead := congrArg List.head? h
    rwa [List.head?_cons, List.head?_drop, eq_comm] at hhead
  have hlt : attempt - 1 < (order.take most).length := (List.getElem?_eq_some_iff.mp hget).1
  have hmost : attempt - 1 < most := hlt.trans_le (List.length_take_le _ _)
  refine ⟨by rwa [List.getElem?_take_of_lt hmost] at hget, by omega, ?_⟩
  have htail := congrArg List.tail h
  rw [List.tail_cons, List.tail_drop] at htail
  rw [htail, Nat.sub_add_cancel hpositive, Nat.add_sub_cancel]

/-- After a turn that decided nothing the loop goes on or stops. -/
theorem InLoop.next {last : Option (Ended × RegisteredSpec)}
    (h : InLoop call env given decision rerouted attempt receiptIds last before)
    (hopened : Opened decision rerouted attempt spec before (some e) turns)
    (hundecided : e.Undecided spec) (hfalls : e.fallsBack decision spec = true) :
    InLoop call env given decision rerouted (attempt + 1) (receiptIds ++ [e.receiptId]) (some (e, spec)) turns := by
  obtain ⟨t, rfl, rfl, rfl, rfl, rfl, hended⟩ := hopened
  refine ⟨⟨h.follows.origin, by simp, fun t' ht' => ?_⟩, ?_, fun found hfound => ?_,
    fun hfalse t' ht' => ?_⟩
  · obtain rfl : t' = t := by simpa [eq_comm] using ht'
    exact ⟨fallsBack_of_undecided hended hundecided hfalls, .inl ⟨rfl, rfl, rfl⟩⟩
  · rw [turnReceipts_append rfl hended, h.receipts]
  · obtain rfl := Option.some.inj hfound
    exact ⟨t, by simp, hended, rfl, rfl, rfl, hundecided⟩
  · rcases List.mem_append.mp ht' with hin | hlast
    · exact h.unrouted hfalse t' hin
    · rw [List.mem_singleton.mp hlast]
      exact hfalse

theorem reported_of_opened {last : Option (Ended × RegisteredSpec)} {outcome : DirectOutcome}
    (h : InLoop call env given decision rerouted attempt receiptIds last before)
    (hopened : Opened decision rerouted attempt spec before (some e) turns)
    (hconcluded : ∀ t : Turn, t.decision = decision → t.spec = spec →
      Concluded outcome t e ∧ outcome.receiptIds = receiptIds ++ [e.receiptId]) :
    Reported outcome turns := by
  obtain ⟨t, rfl, rfl, rfl, rfl, rfl, hended⟩ := hopened
  obtain ⟨houtcome, hreceipts⟩ := hconcluded t rfl rfl
  refine ⟨t, by simp, e, hended, houtcome, ?_⟩
  rw [hreceipts, turnReceipts_append rfl hended, h.receipts]

theorem rerouteIf_does {P : Desk → Prop} {Q : DirectOutcome → Desk → Prop} {E : Fault → Desk → Prop}
    (changed : Bool) {reroute : Option (DirectM DirectOutcome)} {goOn : DirectM DirectOutcome}
    (hreroute : changed = true → ∀ again ∈ reroute, Does (Desk.Step call env given) P again Q E)
    (hgo : Does (Desk.Step call env given) P goOn Q E) :
    Does (Desk.Step call env given) P (rerouteIf changed reroute goOn) Q E := by
  unfold rerouteIf
  split
  · exact hreroute rfl _ rfl
  · exact hgo

theorem attempts_does {reroute : Option (DirectM DirectOutcome)}
    (hreroute : ∀ again ∈ reroute, rerouted = false ∧
      Does (Desk.Step call env given) (At env (MayReroute call env given)) again
        (fun outcome => At env (Reported outcome)) fun _ _ => True)
    (candidates : List CandidateScore) (hpositive : 1 ≤ attempt)
    (hcandidates : candidates = ((candidateOrder decision).take
      (maxAttempts (call.fixed && !rerouted) decision)).drop (attempt - 1))
    (last : Option (Ended × RegisteredSpec)) (hlast : candidates = [] → last.isSome) :
    Does (Desk.Step call env given) (At env (InLoop call env given decision rerouted attempt receiptIds last))
      (attempts call decision rerouted claimed reroute candidates attempt receiptIds last)
      (fun outcome => At env (Reported outcome)) fun _ _ => True := by
  induction candidates generalizing attempt receiptIds last with
  | nil =>
    obtain ⟨⟨e, spec⟩, rfl⟩ := Option.isSome_iff_exists.mp (hlast rfl)
    refine .pure fun d hd => ⟨hd.1, ?_⟩
    obtain ⟨t, ht, hended, hspec, hdecision, hrerouted, hundecided⟩ := hd.2.last _ rfl
    exact ⟨t, ht, e, hended, concluded_of_undecided hdecision hspec hundecided,
      hrerouted ▸ hd.2.receipts⟩
  | cons candidate candidates ih =>
    obtain ⟨hcandidate, hbounded, hrest⟩ := candidate_of_drop hpositive hcandidates
    refine does_of_turns fun before hbefore => ?_
    unfold attempts
    refine .bind ((drawDirect_leaves _).mono (fun _ hd => hd) (fun _ _ hd => hd)
      fun _ _ _ => trivial) fun registered => does_given fun hregistered => ?_
    cases registered with
    | none => exact .raise fun _ _ => trivial
    | some spec =>
      refine .bind attend_leaves.loose fun _ => ?_
      refine .bind ((quotaChanged_does candidate).mono (fun _ hd => hd) (fun _ _ hd => hd)
        fun _ _ _ => trivial) fun changed => does_given fun hchanged => ?_
      refine rerouteIf_does changed (fun htrue again hagain => ?_) ?_
      · obtain ⟨rfl, hdoes⟩ := hreroute again hagain
        obtain ⟨hmanaged, hquota⟩ := hchanged htrue
        obtain ⟨tick, hspec⟩ := hregistered
        have hquota : QuotaChanged call env decision (attempt - 1) := by
          rw [Bool.not_false, Bool.and_true] at hbounded
          exact ⟨by omega, candidate, hcandidate, ⟨tick, spec, hspec.symm, hmanaged⟩, hquota⟩
        refine hdoes.mono (fun d hd => ⟨hd.1, ?_⟩) (fun _ _ hd => hd) fun _ _ hd => hd
        rw [hd.2]
        exact hbefore.mayReroute hquota
      · refine .bind (takeTurn_does hbefore.follows hpositive hcandidate hbounded
          (hregistered.imp fun _ heq => heq.symm)) fun e => ?_
        refine .bind (suspendDrifted_leaves e).loose fun _ => ?_
        unfold conclude
        split
        · next outcome houtcome =>
          refine .pure fun d hd => ⟨hd.1, reported_of_opened hbefore hd.2 fun t hdecision hspec => ?_⟩
          exact outcome_decided hdecision hspec houtcome
        · next hnone =>
          have hundecided := undecided_of_outcome hnone
          split
          · next hfalls =>
            refine (ih (by omega) hrest (some (e, spec)) fun _ => rfl).mono (fun d hd => ?_)
              (fun _ _ hd => hd) fun _ _ hd => hd
            exact ⟨hd.1, hbefore.next hd.2 hundecided hfalls⟩
          · refine .pure fun d hd => ⟨hd.1, reported_of_opened hbefore hd.2 fun t hdecision hspec => ?_⟩
            exact ⟨concluded_of_undecided hdecision hspec hundecided, rfl⟩

end Loop

/-! ## The call -/

section Call

open Process

variable {call : DirectCall} {env : DirectEnv} {given decision : RouteDecision} {claimed : Bool}
  {T : List Turn → Prop}

theorem routeAction_does (action : ActionRequest) :
    Does (Desk.Step call env given) (At env T) (routeAction action)
      (fun routed d => At env T d ∧ ∃ tick, routed = (env.route tick).decision action)
      fun _ _ => True :=
  .bind attend_leaves.loose fun _ =>
    .bind ((drawDirect_leaves _).mono (fun _ hd => hd) (fun _ _ hd => hd) fun _ _ _ => trivial)
      fun _ => does_given fun hrouting => .pure fun _ hd =>
        ⟨hd, hrouting.imp fun _ heq => congrArg (Routing.decision · action) heq⟩

theorem complain_loose (p : Prop) [Decidable p] (fault : Fault) :
    Does (Desk.Step call env given) (At env T) (complain p fault) (fun _ d => At env T d ∧ ¬ p)
      fun _ _ => True :=
  (complain_leaves p fault).mono (fun _ hd => hd) (fun _ _ hd => hd) fun _ _ _ => trivial

theorem revalidate_does (fixed : Bool) :
    Does (Desk.Step call env given) (At env T) (revalidate fixed decision)
      (fun begun d => At env T d ∧ Origin env decision false begun) fun _ _ => True := by
  refine .bind ((drawDirect_leaves _).mono (fun _ hd => hd) (fun _ _ hd => hd) fun _ _ _ => trivial)
    fun validated => does_given fun hvalidated => ?_
  split
  · next htrue =>
    obtain ⟨tick, rfl⟩ := hvalidated
    exact .pure fun _ hd => ⟨hd, .given tick htrue⟩
  · next hfalse =>
    refine .bind (complain_loose _ _) fun _ => does_given fun _ =>
      .bind (complain_loose _ _) fun _ => does_given fun _ =>
        (routeAction_does _).mono (fun _ hd => hd) (fun _ begun hd => ⟨hd.1, ?_⟩) fun _ _ hd => hd
    obtain ⟨tick, rfl⟩ := hd.2
    exact .routed false tick (.inr (hvalidated.imp fun _ heq => by simpa [heq] using hfalse))

theorem begin_does (fixed : Bool) :
    Does (Desk.Step call env given) (At env T) (begin fixed decision)
      (fun begun d => At env T d ∧
        (Origin env decision false begun ∧ candidateOrder begun ≠ [])) fun _ _ => True := by
  refine .bind attend_leaves.loose fun _ =>
    .bind (revalidate_does fixed) fun begun => does_given fun horigin => ?_
  refine .bind (complain_loose _ _) fun _ => does_given fun _ => ?_
  refine .bind (complain_loose _ _) fun _ => does_given fun hroute => .pure fun _ hd =>
    ⟨hd, horigin, ?_⟩
  exact fun hnil => hroute (.inl hnil)

theorem maxAttempts_pos (fixed : Bool) (h : candidateOrder decision ≠ []) :
    1 ≤ maxAttempts fixed decision := by
  have hlength := List.length_pos_of_ne_nil h
  have hpositive := decision.fallback.positive
  unfold maxAttempts
  split
  · exact le_rfl
  · split <;> omega

theorem take_maxAttempts_ne_nil (fixed : Bool) (h : candidateOrder decision ≠ []) :
    (candidateOrder decision).take (maxAttempts fixed decision) ≠ [] := by
  have hpositive := maxAttempts_pos fixed h
  rw [ne_eq, List.take_eq_nil_iff, not_or]
  exact ⟨by omega, h⟩

theorem executeTurns_does (rerouted : Bool) {reroute : Option (DirectM DirectOutcome)}
    (hreroute : ∀ again ∈ reroute, rerouted = false ∧
      Does (Desk.Step call env given) (At env (MayReroute call env given)) again
        (fun outcome => At env (Reported outcome)) fun _ _ => True)
    (horder : candidateOrder decision ≠ []) :
    Does (Desk.Step call env given) (At env (InLoop call env given decision rerouted 1 [] none))
      (executeTurns call (call.fixed && !rerouted) rerouted claimed reroute decision)
      (fun outcome => At env (Reported outcome)) fun _ _ => True := by
  refine attempts_does hreroute _ le_rfl (by simp) none fun hnil => ?_
  exact absurd hnil (take_maxAttempts_ne_nil _ horder)

theorem executeAgain_does :
    Does (Desk.Step call env given) (At env (MayReroute call env given))
      (executeAgain call claimed given.action) (fun outcome => At env (Reported outcome))
      fun _ _ => True := by
  unfold executeAgain
  refine .bind (routeAction_does given.action) fun routed => does_given fun hrouted => ?_
  refine .bind (begin_does false) fun begun => does_given fun hbegun => ?_
  obtain ⟨tick, rfl⟩ := hrouted
  have horigin : Origin env given true begun := (Origin.routed true tick (.inl rfl)).trans hbegun.1
  have hturns : Does (Desk.Step call env given)
      (At env (InLoop call env given begun true 1 [] none))
      (executeTurns call (call.fixed && !true) true claimed none begun)
      (fun outcome => At env (Reported outcome)) fun _ _ => True :=
    executeTurns_does true (by simp) hbegun.2
  rw [Bool.not_true, Bool.and_false] at hturns
  exact hturns.mono (fun d hd => ⟨hd.1, hd.2.inLoop horigin⟩) (fun _ _ hd => hd) fun _ _ hd => hd

theorem executeOnce_does (horigin : Origin env given false decision)
    (horder : candidateOrder decision ≠ []) :
    Does (Desk.Step call env given) (At env (· = [])) (executeOnce call claimed decision)
      (fun outcome => At env (Reported outcome)) fun _ _ => True := by
  have hturns : Does (Desk.Step call env given)
      (At env (InLoop call env given decision false 1 [] none))
      (executeTurns call (call.fixed && !false) false claimed
        (some (executeAgain call claimed decision.action)) decision)
      (fun outcome => At env (Reported outcome)) fun _ _ => True := by
    refine executeTurns_does false (fun again hagain => ⟨rfl, ?_⟩) horder
    rw [← Option.some.inj hagain, horigin.action]
    exact executeAgain_does
  rw [Bool.not_false, Bool.and_true] at hturns
  refine hturns.mono (fun d hd => ⟨hd.1, ?_⟩) (fun _ _ hd => hd) fun _ _ hd => hd
  rw [hd.2]
  exact ⟨⟨horigin, fun _ => ⟨rfl, by simp⟩, by simp⟩, rfl, by simp, by simp⟩

/-- What a call that returns has made of its turns, if it made any. -/
def Answered (outcome : DirectOutcome) (turns : List Turn) : Prop :=
  turns = [] ∨ Reported outcome turns

theorem stable_env : Stable (Desk.Step call env given) fun d => d.env = env := by
  intro d d' hstep henv
  cases hstep with
  | keeps same => exact same.trans henv
  | opens same => exact same.trans henv
  | ends same => exact same.trans henv

/-- What a process raises, it raises in its environment. -/
theorem does_at {α : Type} {m : DirectM α} {Q : α → Desk → Prop} {E : Fault → Desk → Prop}
    (h : Does (Desk.Step call env given) (At env T) m Q E) :
    Does (Desk.Step call env given) (At env T) m Q fun _ => At env fun _ => True :=
  (h.frame stable_env).mono (fun _ hd => ⟨hd, hd.1⟩) (fun _ _ hd => hd.1)
    fun _ _ hd => ⟨hd.2, trivial⟩

theorem giveUpKey_does {α : Type} {Q : α → Desk → Prop} (key : String) (fault : Fault) :
    Does (Desk.Step call env given) (At env fun _ => True) (giveUpKey key fault : DirectM α) Q
      fun _ _ => True :=
  .bind (keyTransact_leaves _ _).loose fun _ => .bind (keyTransact_leaves _ _).loose fun _ =>
    .raise fun _ _ => trivial

theorem replay_does (report : IdempotencyReport) :
    Does (Desk.Step call env given) (At env T) (replay decision report) (fun _ => At env T)
      fun _ _ => True := by
  refine .bind ((complain_leaves _ _).mono (fun _ hd => hd) (fun _ _ hd => hd.1) fun _ _ _ => trivial)
    fun _ => .bind (onWorld_leaves _).loose fun _ => ?_
  split
  · exact .raise fun _ _ => trivial
  · exact .pure fun _ hd => hd

theorem executeClaimed_does (horigin : Origin env given false decision) :
    Does (Desk.Step call env given) (At env (· = [])) (executeClaimed call decision)
      (fun outcome => At env (Reported outcome)) fun _ => At env fun _ => True :=
  does_at <| .bind (begin_does call.fixed) fun _ => does_given fun hbegun =>
    executeOnce_does (horigin.trans hbegun.1) hbegun.2

theorem executeKeyed_does (horigin : Origin env given false decision) (key : String) :
    Does (Desk.Step call env given) (At env (· = [])) (executeKeyed call key decision)
      (fun outcome => At env (Answered outcome)) fun _ _ => True := by
  unfold executeKeyed
  refine .bind (keyTransact_leaves _ _).loose fun found => ?_
  split
  · exact (replay_does _).mono (fun _ hd => hd) (fun _ _ hd => ⟨hd.1, .inl hd.2⟩) fun _ _ hd => hd
  · refine .bind ((executeClaimed_does horigin).guarded (fun fault _ => giveUpKey_does key fault)
      fun _ _ _ _ => trivial) fun outcome => ?_
    exact .bind (keyTransact_leaves _ _).loose fun _ => .pure fun _ hd => ⟨hd.1, .inr hd.2⟩

variable (call env given) in
theorem execute_does : Does (Desk.Step call env given) (At env (· = [])) (execute call given)
    (fun outcome => At env (Answered outcome)) fun _ _ => True := by
  unfold execute
  refine .bind (begin_does call.fixed) fun begun => does_given fun hbegun => ?_
  split
  · exact .pure fun _ hd => ⟨hd.1, .inl hd.2⟩
  · split
    · exact (executeOnce_does hbegun.1 hbegun.2).mono (fun _ hd => hd)
        (fun _ _ hd => ⟨hd.1, .inr hd.2⟩) fun _ _ hd => hd
    · exact executeKeyed_does hbegun.1 _

end Call

/-- Whatever a call meets, and wherever it raises or crashes, its invocations are in order; one that
returns reports its last turn. -/
theorem execute_in_order (call : DirectCall) (decision : RouteDecision) (world : World)
    (env : DirectEnv) :
    Orderly call env decision (execute call decision (.start world env)).2.turns ∧
      ∀ outcome, (execute call decision (.start world env)).1 = .returned outcome →
        Answered outcome (execute call decision (.start world env)).2.turns := by
  have hstart : At env (· = []) (Desk.start world env) := ⟨rfl, rfl⟩
  have hdoes := execute_does call env decision
  have hlawful := stable_lawful.moves (hdoes.moves _ hstart) .nil
  refine ⟨hlawful.orderly, fun outcome houtcome => ?_⟩
  exact (hdoes.returns _ outcome _ hstart (Prod.ext houtcome rfl)).2

end AeepRouter.Router

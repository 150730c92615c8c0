import AeepRouter.Router.Fallback

/-!
# One call under a key

What a call of `execute` does to the record of its key follows a protocol (`Phase.next`): it claims the
record, marks it before its first invocation, and completes it or gives it up. Where calls for one key
run side by side, at most one of them ever invokes an executor; what it completes is what all later
ones replay (`one_caller_invokes`). The empty key is claimed and never marked. The other users of the table leave the records of direct calls
alone.
-/

namespace AeepRouter.Router

open Lib

/-! ## The protocol of a call -/

/-- Where a call stands with the record of its key. -/
inductive Phase where
  | idle
  | claimed
  | executing
  | running
  /-- In the handler of its claim. -/
  | handling
  | ended
  deriving DecidableEq, Repr

def Phase.next : Phase → KeyMark → Option Phase
  | .idle, .claimed none => some .claimed
  | .idle, .claimed (some _) => some .ended
  | .claimed, .executing => some .executing
  | .running, .executing => some .running
  | .executing, .invoked _ => some .running
  | .running, .invoked _ => some .running
  | .claimed, .indeterminate => some .handling
  | .executing, .indeterminate => some .handling
  | .running, .indeterminate => some .handling
  | .handling, .abandoned => some .ended
  | .running, .completed .. => some .ended
  | _, _ => none

def phaseOf (marks : List Stamp) : Option Phase :=
  marks.foldlM (fun p stamp => p.next stamp.mark) .idle

/-- What a stamp says of the store: the operation of its mark was carried out. -/
def Stamp.Acts (key requestHash : String) (stamp : Stamp) : Prop :=
  match stamp.mark with
  | .claimed found => claimIdempotency key requestHash stamp.found = .ok (found, stamp.left)
  | .executing => markIdempotencyExecuting key stamp.found = .ok ((), stamp.left)
  | .invoked _ => stamp.left = stamp.found
  | .indeterminate => markIdempotencyIndeterminate key stamp.found = .ok ((), stamp.left)
  | .abandoned => abandonIdempotency key stamp.found = .ok ((), stamp.left)
  | .completed decisionId status receiptIds =>
    AeepRouter.completeIdempotency key decisionId status receiptIds stamp.found =
      .ok ((), stamp.left)

/-- The marks of a call follow the protocol, and each was carried out. -/
structure Follow (key requestHash : String) (marks : List Stamp) : Prop where
  acts : ∀ stamp ∈ marks, stamp.Acts key requestHash
  phase : (phaseOf marks).isSome

theorem phaseOf_append (marks : List Stamp) (stamp : Stamp) :
    phaseOf (marks ++ [stamp]) = (phaseOf marks).bind fun p => p.next stamp.mark := by
  unfold phaseOf
  rw [List.foldlM_append]
  cases marks.foldlM (fun p stamp => p.next stamp.mark) Phase.idle with
  | none => rfl
  | some p => simp

section Protocol

open Process

variable {α β : Type} {key requestHash : String} {P : Phase → Prop}

/-- A step of a call: it has no mark, or one that the protocol allows. -/
inductive Desk.KeyStep (key requestHash : String) (d d' : Desk) : Prop where
  | keeps (marks : d'.marks = d.marks) : Desk.KeyStep key requestHash d d'
  | stamps (stamp : Stamp) (acts : stamp.Acts key requestHash)
      (allowed : ∃ p ∈ phaseOf d.marks, (p.next stamp.mark).isSome)
      (marks : d'.marks = d.marks ++ [stamp]) : Desk.KeyStep key requestHash d d'

theorem stable_follow : Stable (Desk.KeyStep key requestHash) fun d =>
    Follow key requestHash d.marks := by
  intro d d' hstep hfollow
  cases hstep with
  | keeps marks => exact marks ▸ hfollow
  | stamps stamp acts allowed marks =>
    obtain ⟨p, hp, hnext⟩ := allowed
    rw [marks]
    refine ⟨fun other hother => ?_, ?_⟩
    · rcases List.mem_append.mp hother with hin | hlast
      · exact hfollow.acts other hin
      · exact List.mem_singleton.mp hlast ▸ acts
    · rw [phaseOf_append, hp]
      exact hnext

/-- The phase of a call meets a condition. -/
def Marked (P : Phase → Prop) (d : Desk) : Prop := ∃ p ∈ phaseOf d.marks, P p

/-- A process without marks. -/
abbrev Quiet (key requestHash : String) (P : Phase → Prop) (m : DirectM α) : Prop :=
  Does (Desk.KeyStep key requestHash) (Marked P) m (fun _ => Marked P) fun _ => Marked P

theorem onWorld_quiet (m : RouterM α) : Quiet key requestHash P (onWorld m) := by
  have hat : ∀ d d', Marked P d → d' = ((onWorld m) d).2 → Marked P d' := by
    rintro d _ hd rfl
    exact hd
  refine ⟨fun d _ => .single (.keeps rfl), fun d a d' hd heq => hat d d' hd (by rw [heq]),
    fun d e d' hd heq => hat d d' hd (by rw [heq])⟩

theorem attend_quiet : Quiet key requestHash P attend := onWorld_quiet _

theorem drawDirect_quiet (f : DirectEnv → ℕ → α) : Quiet key requestHash P (drawDirect f) := by
  refine ⟨fun d _ => .single (.keeps rfl), fun d a d' hd heq => ?_, fun d e d' hd heq => ?_⟩
  · cases heq
    exact hd
  · cases heq

theorem complain_quiet (p : Prop) [Decidable p] (fault : Fault) :
    Quiet key requestHash P (complain p fault) := by
  unfold complain
  split
  · exact .raise fun _ hd => hd
  · exact .pure fun _ hd => hd

theorem transact_returned {site : Site} {t : Transaction α} {w w' : World} {a : α}
    (h : transact site t w = (.returned a, w')) :
    t.run w.settings.crypto w.store = .ok (a, w'.store) := by
  change Process.bind (proceed site) _ w = _ at h
  unfold Process.bind proceed at h
  cases hfate : w.env.fate w.tick with
  | proceeds =>
    rw [hfate] at h
    dsimp only [World.next] at h
    cases hrun : t.run w.settings.crypto w.store with
    | error e =>
      rw [hrun] at h
      cases h
    | ok result =>
      rw [hrun] at h
      cases h
      rfl
  | raises fault =>
    rw [hfate] at h
    cases h
  | crashes =>
    rw [hfate] at h
    cases h

theorem keyTransact_marked {Q : α → Phase → Prop} (t : Transaction α) (mark : α → KeyMark)
    (hacts : ∀ a crypto s s', t.run crypto s = .ok (a, s') →
      Stamp.Acts key requestHash ⟨mark a, s, s'⟩)
    (hnext : ∀ a p, P p → ∃ q ∈ p.next (mark a), Q a q) :
    Does (Desk.KeyStep key requestHash) (Marked P) (keyTransact t mark) (fun a => Marked (Q a))
      fun _ => Marked P := by
  have hends : ∀ d, Marked P d →
      (∃ a, (keyTransact t mark d).1 = .returned a ∧
        Desk.KeyStep key requestHash d (keyTransact t mark d).2 ∧
        Marked (Q a) (keyTransact t mark d).2) ∨
      (∀ a, (keyTransact t mark d).1 ≠ .returned a) ∧ (keyTransact t mark d).2.marks = d.marks := by
    intro d hd
    unfold keyTransact
    dsimp only
    split
    · next a w heq =>
      obtain ⟨p, hp, hP⟩ := hd
      obtain ⟨q, hq, hQ⟩ := hnext a p hP
      refine .inl ⟨a, rfl, .stamps _ (hacts _ _ _ _ (transact_returned heq))
        ⟨p, hp, Option.isSome_of_mem hq⟩ rfl, q, ?_, hQ⟩
      show phaseOf (d.marks ++ _) = some q
      rw [phaseOf_append, hp]
      exact hq
    · exact .inr ⟨by simp, rfl⟩
    · exact .inr ⟨by simp, rfl⟩
  refine ⟨fun d hd => ?_, fun d a d' hd heq => ?_, fun d e d' hd heq => ?_⟩
  · rcases hends d hd with ⟨a, -, hstep, -⟩ | ⟨-, hmarks⟩
    · exact .single hstep
    · exact .single (.keeps hmarks)
  · rcases hends d hd with ⟨a', hreturned, -, hmarked⟩ | ⟨hnone, -⟩
    · rw [heq] at hreturned hmarked
      exact Ending.returned.inj hreturned ▸ hmarked
    · exact absurd (congrArg Prod.fst heq) (hnone a)
  · rcases hends d hd with ⟨a', hreturned, -, -⟩ | ⟨-, hmarks⟩
    · rw [heq] at hreturned
      cases hreturned
    · rw [heq] at hmarks
      obtain ⟨p, hp, hP⟩ := hd
      exact ⟨p, hmarks ▸ hp, hP⟩

end Protocol

/-! ## The marks of a call -/

section Marks

open Process

variable {α : Type} {key requestHash : String} {call : DirectCall} {decision : RouteDecision}
  {rerouted : Bool} {attempt : ℕ} {candidate : CandidateScore} {spec : RegisteredSpec}

/-- A call has the claim of its key and may invoke. -/
def Phase.Working (p : Phase) : Prop := p = .claimed ∨ p = .executing ∨ p = .running

/-- A call may begin the turn of a number. -/
def Phase.Ready (attempt : ℕ) (p : Phase) : Prop := p = .running ∨ attempt = 1 ∧ p = .claimed

/-- A call may invoke. -/
def Phase.Marked (p : Phase) : Prop := p = .executing ∨ p = .running

theorem Phase.Ready.working {p : Phase} (h : p.Ready attempt) : p.Working :=
  h.elim (fun hrunning => .inr (.inr hrunning)) fun hclaimed => .inl hclaimed.2

theorem Phase.Marked.working {p : Phase} (h : p.Marked) : p.Working := .inr h

theorem marked_mono {P Q : Phase → Prop} (h : ∀ p, P p → Q p) {d : Desk} (hd : Marked P d) :
    Marked Q d :=
  hd.imp fun p => And.imp id (h p)

theorem Quiet.work {P : Phase → Prop} {m : DirectM α} (h : Quiet key requestHash P m)
    (hP : ∀ p, P p → p.Working) :
    Does (Desk.KeyStep key requestHash) (Marked P) m (fun _ => Marked P)
      fun _ => Marked Phase.Working :=
  h.mono (fun _ hd => hd) (fun _ _ hd => hd) fun _ _ hd => marked_mono hP hd

theorem Quiet.seq {β : Type} {P : Phase → Prop} {m : DirectM α} {f : α → DirectM β}
    (hm : Quiet key requestHash P m) (hf : ∀ a, Quiet key requestHash P (f a)) :
    Quiet key requestHash P (m >>= f) :=
  Does.bind hm hf

theorem checkCandidate_quiet {P : Phase → Prop} :
    Quiet key requestHash P (checkCandidate call decision spec) :=
  .seq (complain_quiet _ _) fun _ => .seq attend_quiet fun _ => .seq (drawDirect_quiet _) fun _ =>
    .seq (complain_quiet _ _) fun _ => .seq (drawDirect_quiet _) fun _ =>
      .seq (complain_quiet _ _) fun _ => .seq (complain_quiet _ _) fun _ =>
        .seq (complain_quiet _ _) fun _ => attend_quiet

theorem raise_quiet {P : Phase → Prop} (fault : Fault) :
    Quiet key requestHash P (raise fault : DirectM α) :=
  .raise fun _ hd => hd

theorem advanceOrFail_quiet {P : Phase → Prop} (current : ExecutionAttempt)
    (target : ExecutionAttemptState) (reason : String) (updates : AttemptUpdates)
    (capacitySpec : Option ExecutorSpec) :
    Quiet key requestHash P (advanceOrFail current target reason updates capacitySpec) :=
  Does.guarded (onWorld_quiet _)
    (fun _ _ => (onWorld_quiet _).seq fun _ => raise_quiet _) fun _ _ _ hd => hd

theorem enterTurn_quiet {P : Phase → Prop} : Quiet key requestHash P (enterTurn decision spec) :=
  (onWorld_quiet _).seq fun _ => (advanceOrFail_quiet _ _ _ _ _).seq fun _ =>
    (onWorld_quiet _).seq fun _ => advanceOrFail_quiet _ _ _ _ _

theorem settleTurn_quiet {P : Phase → Prop} (invoking : ExecutionAttempt) (raw : Returned) :
    Quiet key requestHash P (settleTurn decision spec invoking raw) := by
  have hend : ∀ ended, Quiet key requestHash P (endTurn ended) := fun _ =>
    .update (fun _ _ => .keeps rfl) fun _ hd => hd
  exact (onWorld_quiet _).seq fun _ => attend_quiet.seq fun _ => (onWorld_quiet _).seq fun _ =>
    (onWorld_quiet _).seq fun _ => (onWorld_quiet _).seq fun _ => (onWorld_quiet _).seq fun _ =>
      (onWorld_quiet _).seq fun _ => (hend _).seq fun _ => .pure fun _ hd => hd

theorem quotaChanged_quiet {P : Phase → Prop} :
    Quiet key requestHash P (quotaChanged candidate spec) := by
  unfold quotaChanged
  split
  · exact attend_quiet.seq fun _ => (drawDirect_quiet _).seq fun _ => .pure fun _ hd => hd
  · exact .pure fun _ hd => hd

theorem suspendDrifted_quiet {P : Phase → Prop} (ended : Ended) :
    Quiet key requestHash P (suspendDrifted ended) := by
  unfold suspendDrifted
  split
  · exact attend_quiet
  · exact .pure fun _ hd => hd

theorem routeAction_quiet {P : Phase → Prop} (action : ActionRequest) :
    Quiet key requestHash P (routeAction action) :=
  attend_quiet.seq fun _ => (drawDirect_quiet _).seq fun _ => .pure fun _ hd => hd

/-- A key that is marked before the first invocation. -/
def ActionRequest.Keyed (action : ActionRequest) (key : String) : Prop :=
  action.idempotencyKey = some key ∧ key ≠ ""

theorem executeFirst_marked (hkey : decision.action.Keyed key) :
    Does (Desk.KeyStep key requestHash) (Marked (Phase.Ready attempt))
      (executeFirst decision true attempt) (fun _ => Marked Phase.Marked)
      fun _ => Marked Phase.Working := by
  unfold executeFirst
  rw [hkey.1]
  dsimp only
  split
  · have hnext : ∀ (a : Unit) (p : Phase), p.Ready attempt →
        ∃ q ∈ p.next .executing, q.Marked := by
      rintro - p (rfl | ⟨-, rfl⟩)
      · exact ⟨_, rfl, .inr rfl⟩
      · exact ⟨_, rfl, .inl rfl⟩
    refine (keyTransact_marked (.markIdempotencyExecuting key) (fun _ => .executing)
      (fun _ _ _ _ hrun => hrun) hnext).mono (fun _ hd => hd) (fun _ _ hd => hd)
      fun _ _ hd => marked_mono (fun _ => Phase.Ready.working) hd
  · next hlater =>
    refine .pure fun d hd => marked_mono (fun p hp => ?_) hd
    rcases hp with hrunning | ⟨hfirst, -⟩
    · exact .inr hrunning
    · exact absurd ⟨rfl, hkey.2, hfirst⟩ hlater

theorem invokeTurn_marked (invoking : ExecutionAttempt) :
    Does (Desk.KeyStep key requestHash) (Marked Phase.Marked)
      (invokeTurn decision rerouted attempt candidate spec invoking)
      (fun _ => Marked (· = .running)) fun _ => Marked Phase.Working := by
  have hopen : Does (Desk.KeyStep key requestHash) (Marked Phase.Marked)
      (openTurn ⟨decision, rerouted, attempt, candidate, spec, invoking.attemptId, none⟩)
      (fun _ => Marked (· = .running)) fun _ => Marked Phase.Working := by
    have hnext : ∀ p : Phase, p.Marked → p.next (.invoked invoking.attemptId) = some .running := by
      rintro p (rfl | rfl)
      · rfl
      · rfl
    refine .update (fun d hd => ?_) fun d hd => ?_
    · obtain ⟨p, hp, hmarked⟩ := hd
      refine .stamps ⟨.invoked invoking.attemptId, d.world.store, d.world.store⟩ rfl
        ⟨p, hp, ?_⟩ rfl
      rw [hnext p hmarked]
      rfl
    · obtain ⟨p, hp, hmarked⟩ := hd
      refine ⟨.running, ?_, rfl⟩
      show phaseOf (d.marks ++ _) = _
      rw [phaseOf_append, hp]
      exact hnext p hmarked
  have hworking : ∀ p : Phase, p = .running → p.Working := fun p hp => .inr (.inr hp)
  refine Does.guarded (.bind (attend_quiet.work fun p => Phase.Marked.working) fun _ =>
    .bind hopen fun _ => .bind (attend_quiet.work hworking) fun _ =>
      (drawDirect_quiet _).work hworking) (fun fault _ => ?_) fun _ _ _ hd => hd
  exact .bind (onWorld_quiet _) fun _ => .raise fun _ hd => hd

theorem takeTurn_marked (hkey : decision.action.Keyed key) :
    Does (Desk.KeyStep key requestHash) (Marked (Phase.Ready attempt))
      (takeTurn call decision rerouted true attempt candidate spec)
      (fun _ => Marked (· = .running)) fun _ => Marked Phase.Working := by
  have hready : ∀ p : Phase, p.Ready attempt → p.Working := fun _ => Phase.Ready.working
  refine .bind (checkCandidate_quiet.work hready) fun _ => ?_
  refine .bind (enterTurn_quiet.work hready) fun invoking => ?_
  refine .bind (executeFirst_marked hkey) fun _ => ?_
  refine .bind (invokeTurn_marked invoking) fun raw => ?_
  exact (settleTurn_quiet invoking raw).work fun p hp => .inr (.inr hp)

/-- The loop under a claim. -/
theorem attempts_marked (hkey : decision.action.Keyed key)
    {reroute : Option (DirectM DirectOutcome)}
    (hreroute : ∀ again ∈ reroute, Does (Desk.KeyStep key requestHash) (Marked (Phase.Ready 1)) again
      (fun _ => Marked (· = .running)) fun _ => Marked Phase.Working)
    (candidates : List CandidateScore) (receiptIds : List String)
    (last : Option (Ended × RegisteredSpec)) (hpositive : 1 ≤ attempt)
    (hlast : candidates = [] → 1 < attempt) :
    Does (Desk.KeyStep key requestHash) (Marked (Phase.Ready attempt))
      (attempts call decision rerouted true reroute candidates attempt receiptIds last)
      (fun _ => Marked (· = .running)) fun _ => Marked Phase.Working := by
  have hready : ∀ p : Phase, p.Ready attempt → p.Working := fun _ => Phase.Ready.working
  induction candidates generalizing attempt receiptIds last with
  | nil =>
    refine .pure fun d hd => marked_mono (fun p hp => ?_) hd
    rcases hp with hrunning | ⟨hfirst, -⟩
    · exact hrunning
    · have hlater := hlast rfl
      omega
  | cons candidate candidates ih =>
    unfold attempts
    refine .bind ((drawDirect_quiet _).work hready) fun registered => ?_
    cases registered with
    | none => exact .raise fun _ hd => marked_mono hready hd
    | some spec =>
      refine .bind (attend_quiet.work hready) fun _ => ?_
      refine .bind (quotaChanged_quiet.work hready) fun changed => ?_
      unfold rerouteIf
      split
      · refine (hreroute _ rfl).mono (fun d hd => marked_mono (fun p hp => ?_) hd)
          (fun _ _ hd => hd) fun _ _ hd => hd
        exact hp.imp id fun hclaimed => ⟨rfl, hclaimed.2⟩
      · refine .bind (takeTurn_marked hkey) fun ended => ?_
        refine .bind ((suspendDrifted_quiet ended).work fun p hp => .inr (.inr hp)) fun _ => ?_
        unfold conclude
        split
        · exact .pure fun _ hd => hd
        · split
          · refine (ih _ _ (by omega) (fun _ => by omega) fun _ => Phase.Ready.working).mono
              (fun d hd => marked_mono (fun p hp => .inl hp) hd) (fun _ _ hd => hd) fun _ _ hd => hd
          · exact .pure fun _ hd => hd

theorem begin_quiet {P : Phase → Prop} (fixed : Bool) :
    Does (Desk.KeyStep key requestHash) (Marked P) (begin fixed decision)
      (fun begun d => Marked P d ∧ (begun.action = decision.action ∧ candidateOrder begun ≠ []))
      fun _ => Marked P := by
  have hrevalidate : Quiet key requestHash P (revalidate fixed decision) := by
    refine (drawDirect_quiet _).seq fun validated => ?_
    split
    · exact .pure fun _ hd => hd
    · exact (complain_quiet _ _).seq fun _ => (complain_quiet _ _).seq fun _ =>
        routeAction_quiet _
  have hquiet : Quiet key requestHash P (begin fixed decision) :=
    attend_quiet.seq fun _ => hrevalidate.seq fun _ => (complain_quiet _ _).seq fun _ =>
      (complain_quiet _ _).seq fun _ => .pure fun _ hd => hd
  refine ⟨hquiet.moves, fun d begun d' hd heq => ⟨hquiet.returns d begun d' hd heq, ?_⟩,
    hquiet.raises⟩
  have hbegin : Does (Desk.Step ⟨.none, false, false, fixed⟩ d.env decision)
      (At d.env fun _ => True) (begin fixed decision) (fun begun d' => At d.env (fun _ => True) d' ∧
        (Origin d.env decision false begun ∧ candidateOrder begun ≠ [])) fun _ _ => True :=
    begin_does fixed
  obtain ⟨-, horigin, horder⟩ := hbegin.returns d begun d' ⟨rfl, trivial⟩ heq
  exact ⟨horigin.action, horder⟩

theorem executeTurns_marked (hkey : decision.action.Keyed key) (fixed : Bool)
    {reroute : Option (DirectM DirectOutcome)}
    (hreroute : ∀ again ∈ reroute, Does (Desk.KeyStep key requestHash) (Marked (Phase.Ready 1)) again
      (fun _ => Marked (· = .running)) fun _ => Marked Phase.Working)
    (horder : candidateOrder decision ≠ []) :
    Does (Desk.KeyStep key requestHash) (Marked (Phase.Ready 1))
      (executeTurns call fixed rerouted true reroute decision)
      (fun _ => Marked (· = .running)) fun _ => Marked Phase.Working :=
  attempts_marked hkey hreroute _ _ _ le_rfl fun hnil =>
    absurd hnil (take_maxAttempts_ne_nil _ horder)

theorem executeAgain_marked {action : ActionRequest} (hkey : action.Keyed key) :
    Does (Desk.KeyStep key requestHash) (Marked (Phase.Ready 1)) (executeAgain call true action)
      (fun _ => Marked (· = .running)) fun _ => Marked Phase.Working := by
  have hready : ∀ p : Phase, p.Ready 1 → p.Working := fun _ => Phase.Ready.working
  have hroute : Does (Desk.KeyStep key requestHash) (Marked (Phase.Ready 1)) (routeAction action)
      (fun routed d => Marked (Phase.Ready 1) d ∧ routed.action = action)
      fun _ => Marked Phase.Working :=
    .bind (attend_quiet.work hready) fun _ => .bind ((drawDirect_quiet _).work hready) fun _ =>
      .pure fun _ hd => ⟨hd, rfl⟩
  refine .bind hroute fun routed => does_given fun hrouted => ?_
  refine .bind ((begin_quiet false).mono (fun _ hd => hd) (fun _ _ hd => hd)
    fun _ _ hd => marked_mono hready hd) fun begun => does_given fun hbegun => ?_
  refine executeTurns_marked ?_ false (by simp) hbegun.2
  rw [hbegun.1, hrouted]
  exact hkey

theorem executeClaimed_marked (hkey : decision.action.Keyed key) :
    Does (Desk.KeyStep key requestHash) (Marked (· = .claimed)) (executeClaimed call decision)
      (fun _ => Marked (· = .running)) fun _ => Marked Phase.Working := by
  refine .bind ((begin_quiet call.fixed).mono (fun _ hd => hd) (fun _ _ hd => hd)
    fun _ _ hd => marked_mono (fun p hp => .inl hp) hd) fun begun => does_given fun hbegun => ?_
  have hkey' : begun.action.Keyed key := hbegun.1.symm ▸ hkey
  refine (executeTurns_marked hkey' call.fixed (fun again hagain => ?_) hbegun.2).mono
    (fun d hd => marked_mono (fun p hp => .inr ⟨rfl, hp⟩) hd) (fun _ _ hd => hd) fun _ _ hd => hd
  exact Option.some.inj hagain ▸ executeAgain_marked hkey'

theorem giveUpKey_marked (fault : Fault) {Q : α → Desk → Prop} :
    Does (Desk.KeyStep key requestHash) (Marked Phase.Working) (giveUpKey key fault : DirectM α) Q
      fun _ _ => True := by
  refine .bind (Q := fun _ => Marked (· = .handling))
    ((keyTransact_marked (.markIdempotencyIndeterminate key) (fun _ => .indeterminate)
      (fun _ _ _ _ hrun => hrun) ?_).mono (fun _ hd => hd) (fun _ _ hd => hd) fun _ _ _ => trivial)
    fun _ => .bind (Q := fun _ => Marked (· = .ended))
      ((keyTransact_marked (.abandonIdempotency key) (fun _ => .abandoned)
        (fun _ _ _ _ hrun => hrun) ?_).mono (fun _ hd => hd) (fun _ _ hd => hd)
        fun _ _ _ => trivial)
      fun _ => .raise fun _ _ => trivial
  · rintro - p (rfl | rfl | rfl)
    all_goals exact ⟨_, rfl, rfl⟩
  · rintro - p rfl
    exact ⟨_, rfl, rfl⟩

theorem replay_quiet {P : Phase → Prop} (report : IdempotencyReport) :
    Quiet key requestHash P (replay decision report) := by
  refine (complain_quiet _ _).seq fun _ => (onWorld_quiet _).seq fun _ => ?_
  split
  · exact raise_quiet _
  · exact .pure fun _ hd => hd

theorem executeKeyed_marked (hkey : decision.action.Keyed key) :
    Does (Desk.KeyStep key decision.action.requestHash) (Marked (· = .idle))
      (executeKeyed call key decision) (fun _ _ => True) fun _ _ => True := by
  have hclaim : ∀ (found : Option IdempotencyReport) (p : Phase), p = .idle →
      ∃ q ∈ p.next (.claimed found), q = if found.isSome then .ended else .claimed := by
    rintro (none | report) p rfl
    · exact ⟨_, rfl, rfl⟩
    · exact ⟨_, rfl, rfl⟩
  have hcomplete : ∀ (outcome : DirectOutcome) (a : Unit) (p : Phase), p = .running →
      ∃ q ∈ p.next (.completed outcome.decisionId outcome.status.text outcome.receiptIds),
        q = .ended := by
    rintro outcome - p rfl
    exact ⟨_, rfl, rfl⟩
  unfold executeKeyed
  refine .bind ((keyTransact_marked (.claimIdempotency key decision.action.requestHash) .claimed
    (fun _ _ _ _ hrun => hrun) hclaim).mono (fun _ hd => hd) (fun _ _ hd => hd)
    fun _ _ _ => trivial) fun found => ?_
  cases found with
  | some report =>
    exact (replay_quiet report).mono (fun _ hd => hd) (fun _ _ _ => trivial) fun _ _ _ => trivial
  | none =>
    refine .bind ((executeClaimed_marked hkey).guarded (fun fault _ => giveUpKey_marked fault)
      fun _ _ _ _ => trivial) fun outcome => ?_
    refine .bind ((keyTransact_marked
      (.completeIdempotency key outcome.decisionId outcome.status.text outcome.receiptIds)
      (fun _ => .completed outcome.decisionId outcome.status.text outcome.receiptIds)
      (fun _ _ _ _ hrun => hrun) (hcomplete outcome)).mono (fun _ hd => hd) (fun _ _ hd => hd)
      fun _ _ _ => trivial) fun _ => ?_
    exact .pure fun _ _ => trivial

theorem execute_marked (hkey : decision.action.Keyed key) :
    Does (Desk.KeyStep key decision.action.requestHash) (Marked (· = .idle)) (execute call decision)
      (fun _ _ => True) fun _ _ => True := by
  unfold execute
  refine .bind ((begin_quiet call.fixed).mono (fun _ hd => hd) (fun _ _ hd => hd)
    fun _ _ _ => trivial) fun begun => does_given fun hbegun => ?_
  have hkey' : begun.action.Keyed key := hbegun.1.symm ▸ hkey
  split
  · exact .pure fun _ _ => trivial
  · rw [hkey'.1, ← hbegun.1]
    exact executeKeyed_marked hkey'

theorem marks_follow (call : DirectCall) (world : World) (env : DirectEnv)
    (hkey : decision.action.Keyed key) :
    Follow key decision.action.requestHash
      (execute call decision (.start world env)).2.marks := by
  have hstart : Marked (· = .idle) (Desk.start world env) := ⟨.idle, rfl, rfl⟩
  exact stable_follow.moves ((execute_marked hkey).moves _ hstart) ⟨by simp [Desk.start], rfl⟩

end Marks

/-! ## The record of a key -/

abbrev KeyTable := Table IdempotencyRecord IdempotencyRecord.idempotencyKey

/-- What the operation of a mark finds under the key. -/
def KeyMark.Found (requestHash : String) (mark : KeyMark) (record : Option IdempotencyRecord) : Prop :=
  match mark with
  | .claimed none => record = none
  | .claimed (some report) => ∃ r ∈ record, r.requestHash = requestHash ∧ report = r.report
  | .executing => ∃ r ∈ record, r.state = .claimed
  | _ => True

def KeyMark.leaves (key requestHash : String) (mark : KeyMark) (record : Option IdempotencyRecord) :
    Option IdempotencyRecord :=
  match mark with
  | .claimed none => some (.new key requestHash)
  | .claimed (some _) => record
  | .executing => record.map (IdempotencyRecord.inState .executing)
  | .invoked _ => record
  | .indeterminate =>
    record.map fun r => if r.state = .executing then IdempotencyRecord.inState .indeterminate r else r
  | .abandoned => record.filter (·.state ≠ .claimed)
  | .completed decisionId status receiptIds =>
    record.map fun r =>
      if r.state = .claimed ∨ r.state = .executing then
        IdempotencyRecord.completed decisionId status receiptIds r
      else r

section Effects

variable {key requestHash : String} {s : Store} {states : List IdempotencyState}

theorem find?_setIdempotency_if (f : Table.Rewrite IdempotencyRecord.idempotencyKey) (k : String) :
    (if s.idempotencyIn key states then s.setIdempotency key f else s).idempotency.find? k =
      if k = key then (s.idempotency.find? key).map fun r => if r.state ∈ states then f r else r
      else s.idempotency.find? k := by
  by_cases hin : s.idempotencyIn key states
  · rw [if_pos hin]
    show (s.idempotency.modify key f).find? k = _
    rw [Table.find?_modify]
    split
    · obtain ⟨r, hr, hstate⟩ := hin
      rw [Option.mem_def.mp hr, Option.map_some, Option.map_some, if_pos hstate]
    · rfl
  · rw [if_neg hin]
    split
    · next hk =>
      subst hk
      cases hfound : s.idempotency.find? k with
      | none => rfl
      | some r =>
        have hstate : r.state ∉ states := fun hmem => hin ⟨r, hfound, hmem⟩
        rw [Option.map_some, if_neg hstate]
    · rfl

/-- What the operation of a mark does to the records. -/
theorem Stamp.Acts.effect {stamp : Stamp} (h : stamp.Acts key requestHash) :
    stamp.mark.Found requestHash (stamp.found.idempotency.find? key) ∧
      ∀ k, stamp.left.idempotency.find? k =
        if k = key then stamp.mark.leaves key requestHash (stamp.found.idempotency.find? key)
        else stamp.found.idempotency.find? k := by
  obtain ⟨mark, found, left⟩ := stamp
  have hsame : ∀ k, found.idempotency.find? k =
      if k = key then found.idempotency.find? key else found.idempotency.find? k := by
    intro k
    split
    · next hk => rw [hk]
    · rfl
  unfold Stamp.Acts at h
  cases mark with
  | claimed report =>
    change claimIdempotency key requestHash found = _ at h
    unfold claimIdempotency at h
    cases hfound : found.idempotency.find? key with
    | none =>
      rw [hfound] at h
      cases h
      refine ⟨rfl, fun k => ?_⟩
      show (found.idempotency.insert _).find? k = _
      rw [Table.find?_insert hfound]
      rfl
    | some record =>
      rw [hfound] at h
      dsimp only at h
      split at h
      · cases h
      · next hhash =>
        cases h
        refine ⟨⟨record, rfl, not_not.mp hhash, rfl⟩, fun k => ?_⟩
        have hfind := hsame k
        rwa [hfound] at hfind
  | executing =>
    change markIdempotencyExecuting key found = _ at h
    unfold markIdempotencyExecuting at h
    simp only [bind_ok, raiseIf_ok, pure_ok, exists_const, not_not, Prod.mk.injEq] at h
    obtain ⟨hin, -, rfl⟩ := h
    obtain ⟨r, hr, hstate⟩ := hin
    refine ⟨⟨r, hr, List.mem_singleton.mp hstate⟩, fun k => ?_⟩
    show (found.idempotency.modify key _).find? k = _
    rw [Table.find?_modify]
    rfl
  | invoked attemptId =>
    obtain rfl : left = found := h
    exact ⟨trivial, hsame⟩
  | indeterminate =>
    have h : markIdempotencyIndeterminate key found = .ok ((), left) := h
    have heq : left = if found.idempotencyIn key [.executing] then
        found.setIdempotency key (IdempotencyRecord.inState .indeterminate) else found := by
      unfold markIdempotencyIndeterminate at h
      split at h
      · next hin => rw [if_pos hin, ← (Prod.mk.inj (Except.ok.inj h)).2]
      · next hin => rw [if_neg hin, ← (Prod.mk.inj (Except.ok.inj h)).2]
    refine ⟨trivial, fun k => ?_⟩
    show left.idempotency.find? k = _
    rw [heq, find?_setIdempotency_if]
    simp only [List.mem_singleton]
    rfl
  | abandoned =>
    have hrun : abandonIdempotency key found = .ok ((), left) := h
    unfold abandonIdempotency at hrun
    refine ⟨trivial, fun k => ?_⟩
    show left.idempotency.find? k = if k = key then
      KeyMark.leaves key requestHash .abandoned (found.idempotency.find? key)
      else found.idempotency.find? k
    split at hrun
    · next hin =>
      simp only [bind_ok, raiseIf_ok, pure_ok, exists_const, Prod.mk.injEq] at hrun
      obtain ⟨-, -, rfl⟩ := hrun
      obtain ⟨r, hr, hstate⟩ := hin
      have hleaves : KeyMark.leaves key requestHash .abandoned (found.idempotency.find? key) =
          none := by
        rw [Option.mem_def.mp hr]
        simp [KeyMark.leaves, List.mem_singleton.mp hstate]
      rw [hleaves]
      exact Table.find?_erase _ _ _
    · next hout =>
      have hleaves : KeyMark.leaves key requestHash .abandoned (found.idempotency.find? key) =
          found.idempotency.find? key := by
        cases hfound : found.idempotency.find? key with
        | none => rfl
        | some r =>
          have hstate : r.state ≠ .claimed := fun hclaimed =>
            hout ⟨r, hfound, List.mem_singleton.mpr hclaimed⟩
          simp [KeyMark.leaves, hstate]
      rw [← (Prod.mk.inj (Except.ok.inj hrun)).2, hleaves]
      exact hsame k
  | completed decisionId status receiptIds =>
    have h : AeepRouter.completeIdempotency key decisionId status receiptIds found =
        .ok ((), left) := h
    have heq : left = if found.idempotencyIn key [.claimed, .executing] then
        found.setIdempotency key (IdempotencyRecord.completed decisionId status receiptIds)
        else found := by
      unfold AeepRouter.completeIdempotency at h
      split at h
      · next hin => rw [if_pos hin, ← (Prod.mk.inj (Except.ok.inj h)).2]
      · next hin => rw [if_neg hin, ← (Prod.mk.inj (Except.ok.inj h)).2]
    refine ⟨trivial, fun k => ?_⟩
    show left.idempotency.find? k = _
    rw [heq, find?_setIdempotency_if]
    simp only [List.mem_cons, List.not_mem_nil, or_false]
    rfl

end Effects

/-! ## Calls side by side -/

/-- A call of `execute` with a key, which is not empty. -/
structure Caller where
  call : DirectCall
  decision : RouteDecision
  world : World
  env : DirectEnv
  key : String
  keyed : decision.action.Keyed key

def Caller.marks (c : Caller) : List Stamp := (execute c.call c.decision (.start c.world c.env)).2.marks

def Caller.requestHash (c : Caller) : String := c.decision.action.requestHash

/-- What calls did to the records of their keys, in the order of the transactions. -/
abbrev History := List (ℕ × Stamp)

namespace History

variable (h : History) (id : ℕ)

def own : List Stamp := (h.filter (·.1 = id)).map (·.2)

def phase : Phase := (phaseOf (h.own id)).getD .idle

def Invoked : Prop := ∃ stamp attemptId, (id, stamp) ∈ h ∧ stamp.mark = .invoked attemptId

/-- A call has completed its key with what a report says. -/
def Completed (report : IdempotencyReport) : Prop :=
  ∃ stamp decisionId status, (id, stamp) ∈ h ∧
    stamp.mark = .completed decisionId status report.receiptIds ∧
    report.decisionId = some decisionId ∧ report.status = some status

/-- The records after a history. -/
def table (before : KeyTable) : KeyTable :=
  (h.getLast?.map fun entry => entry.2.left.idempotency).getD before

end History

/-- The other users of the table leave the records of direct calls alone. -/
def LeavesDirect (direct : String → Prop) (t t' : KeyTable) : Prop :=
  ∀ k record, direct record.requestHash → (t'.find? k = some record ↔ t.find? k = some record)

/-- A history of calls that run side by side: each does what `execute` does, as far as it gets, and
finds the records that the one before it left, but for what others did in between. -/
structure Interleaved (callers : ℕ → Caller) (direct : String → Prop) (before : KeyTable)
    (h : History) : Prop where
  own : ∀ id, h.own id <+: (callers id).marks
  hashes : ∀ id, direct (callers id).requestHash
  chained : ∀ earlier id stamp, earlier ++ [(id, stamp)] <+: h →
    LeavesDirect direct (History.table earlier before) stamp.found.idempotency

/-- The state a record is in where a call stands. -/
def Phase.Holds (p : Phase) (state : IdempotencyState) : Prop :=
  match p with
  | .claimed => state = .claimed
  | .executing | .running => state = .executing
  | .handling => state = .claimed ∨ state = .indeterminate
  | .idle | .ended => True

/-- A call has the claim of its key. -/
def Phase.Owns (p : Phase) : Prop := p ≠ .idle ∧ p ≠ .ended

/-- The claims of calls that run side by side, and the records of their keys. -/
structure Claims (callers : ℕ → Caller) (direct : String → Prop) (before : KeyTable) (h : History)
    (t : String → Option IdempotencyRecord) : Prop where
  owned : ∀ id, (h.phase id).Owns → ∃ record, t (callers id).key = some record ∧
    record.requestHash = (callers id).requestHash ∧ (h.phase id).Holds record.state
  unique : ∀ id id', (h.phase id).Owns → (h.phase id').Owns → (callers id).key = (callers id').key →
    id = id'
  ran : ∀ id, h.phase id = .running → h.Invoked id
  spent : ∀ id, h.Invoked id → ∃ record, t (callers id).key = some record ∧
    record.requestHash = (callers id).requestHash ∧ record.state ≠ .claimed
  sole : ∀ id id', h.Invoked id → (h.phase id').Owns → (callers id).key = (callers id').key → id' = id
  one : ∀ id id', h.Invoked id → h.Invoked id' → (callers id).key = (callers id').key → id = id'
  completed : ∀ k record, t k = some record → direct record.requestHash → record.state = .complete →
    before.find? k = some record ∨ ∃ id, (callers id).key = k ∧
      (callers id).requestHash = record.requestHash ∧ h.Invoked id ∧ h.Completed id record.report
  replayed : ∀ id stamp report, (id, stamp) ∈ h → stamp.mark = .claimed (some report) →
    report.state = .complete →
    (∃ record, before.find? (callers id).key = some record ∧ record.report = report) ∨
      ∃ id', (callers id').key = (callers id).key ∧
        (callers id').requestHash = (callers id).requestHash ∧ h.Invoked id' ∧ h.Completed id' report
  older : ∀ k record, before.find? k = some record → direct record.requestHash →
    t k = some record ∧ ∀ id, (callers id).key = k → ¬ (h.phase id).Owns ∧ ¬ h.Invoked id

section Marks

variable {key requestHash : String} {mark : KeyMark} {p q : Phase} {r r' : IdempotencyRecord}
  {record : Option IdempotencyRecord}

/-- Only a claim is made by a call that has none. -/
theorem Phase.claims_of_not_owns (hnext : p.next mark = some q) (h : ¬ p.Owns) :
    ∃ found, mark = .claimed found ∧ q = if found.isSome then .ended else .claimed := by
  unfold Phase.Owns at h
  unfold Phase.next at hnext
  split at hnext <;> simp_all

theorem Phase.owns_of_running : Phase.running.Owns := by
  unfold Phase.Owns
  decide

/-- A call invokes when it has marked its key. -/
theorem Phase.owns_of_invoked {attemptId : String} (hnext : p.next (.invoked attemptId) = some q) :
    p.Owns ∧ q = .running ∧ ∀ state, p.Holds state → state = .executing := by
  cases p with
  | executing =>
    cases hnext
    exact ⟨by unfold Phase.Owns; decide, rfl, fun _ hholds => hholds⟩
  | running =>
    cases hnext
    exact ⟨by unfold Phase.Owns; decide, rfl, fun _ hholds => hholds⟩
  | _ => cases hnext

/-- A call runs since it invoked. -/
theorem Phase.running_of_next (hnext : p.next mark = some .running) :
    (∃ attemptId, mark = .invoked attemptId) ∨ p = .running := by
  unfold Phase.next at hnext
  split at hnext <;> simp_all

theorem Phase.running_of_completed {decisionId status : String} {receiptIds : List String}
    (hnext : p.next (.completed decisionId status receiptIds) = some q) : p = .running := by
  cases p with
  | running => rfl
  | _ => cases hnext

/-- A record that is not just claimed stays so. -/
theorem leaves_spent (hfound : mark.Found requestHash (some r)) (hstate : r.state ≠ .claimed) :
    ∃ r', mark.leaves key requestHash (some r) = some r' ∧ r'.requestHash = r.requestHash ∧
      r'.state ≠ .claimed := by
  cases mark with
  | claimed found =>
    cases found with
    | none => cases hfound
    | some report => exact ⟨r, rfl, rfl, hstate⟩
  | executing =>
    obtain ⟨other, hother, hclaimed⟩ := hfound
    exact absurd (Option.some.inj hother ▸ hclaimed) hstate
  | invoked attemptId => exact ⟨r, rfl, rfl, hstate⟩
  | indeterminate =>
    by_cases hexecuting : r.state = .executing
    · exact ⟨IdempotencyRecord.inState .indeterminate r, by simp [KeyMark.leaves, hexecuting], rfl,
        by simp [IdempotencyRecord.inState]⟩
    · exact ⟨r, by simp [KeyMark.leaves, hexecuting], rfl, hstate⟩
  | abandoned => exact ⟨r, by simp [KeyMark.leaves, hstate], rfl, hstate⟩
  | completed decisionId status receiptIds =>
    by_cases hexecuting : r.state = .executing
    · exact ⟨IdempotencyRecord.completed decisionId status receiptIds r,
        by simp [KeyMark.leaves, hexecuting], rfl, by simp [IdempotencyRecord.completed]⟩
    · exact ⟨r, by simp [KeyMark.leaves, hexecuting, hstate], rfl, hstate⟩

/-- The record of a call that keeps its claim. -/
theorem leaves_owned (hfound : mark.Found requestHash (some r)) (howns : p.Owns)
    (hholds : p.Holds r.state) (hnext : p.next mark = some q) (hq : q.Owns) :
    ∃ r', mark.leaves key requestHash (some r) = some r' ∧ r'.requestHash = r.requestHash ∧
      q.Holds r'.state := by
  unfold Phase.next at hnext
  split at hnext
  all_goals try (cases hnext)
  all_goals try (exact absurd rfl howns.1)
  all_goals try (exact absurd rfl hq.2)
  · exact ⟨_, rfl, rfl, rfl⟩
  · obtain ⟨other, hother, hclaimed⟩ := hfound
    obtain rfl := Option.some.inj hother
    exact ⟨_, rfl, rfl, rfl⟩
  · exact ⟨r, rfl, rfl, hholds⟩
  · exact ⟨r, rfl, rfl, hholds⟩
  · have hclaimed : r.state = .claimed := hholds
    exact ⟨r, by simp [KeyMark.leaves, hclaimed], rfl, .inl hclaimed⟩
  · have hexecuting : r.state = .executing := hholds
    exact ⟨IdempotencyRecord.inState .indeterminate r, by simp [KeyMark.leaves, hexecuting], rfl,
      .inr rfl⟩
  · have hexecuting : r.state = .executing := hholds
    exact ⟨IdempotencyRecord.inState .indeterminate r, by simp [KeyMark.leaves, hexecuting], rfl,
      .inr rfl⟩

theorem leaves_complete (hleaves : mark.leaves key requestHash record = some r')
    (hstate : r'.state = .complete) :
    record = some r' ∨ ∃ decisionId status receiptIds r, mark = .completed decisionId status receiptIds ∧
      record = some r ∧ r' = IdempotencyRecord.completed decisionId status receiptIds r := by
  cases mark with
  | claimed found =>
    cases found with
    | none =>
      obtain rfl := Option.some.inj hleaves
      cases hstate
    | some report => exact .inl hleaves
  | executing =>
    obtain ⟨r, -, rfl⟩ := Option.map_eq_some_iff.mp hleaves
    cases hstate
  | invoked attemptId => exact .inl hleaves
  | indeterminate =>
    obtain ⟨r, hr, rfl⟩ := Option.map_eq_some_iff.mp hleaves
    by_cases hexecuting : r.state = .executing
    · rw [if_pos hexecuting] at hstate
      cases hstate
    · rw [if_neg hexecuting]
      exact .inl hr
  | abandoned => exact .inl (Option.filter_eq_some_iff.mp hleaves).1
  | completed decisionId status receiptIds =>
    obtain ⟨r, hr, rfl⟩ := Option.map_eq_some_iff.mp hleaves
    by_cases hopen : r.state = .claimed ∨ r.state = .executing
    · rw [if_pos hopen]
      exact .inr ⟨_, _, _, r, rfl, hr, rfl⟩
    · rw [if_neg hopen]
      exact .inl hr

end Marks

section Interleavings

variable {callers : ℕ → Caller} {direct : String → Prop} {before : KeyTable} {h : History}
  {t t' : String → Option IdempotencyRecord} {id : ℕ} {stamp : Stamp}

theorem own_append (id id' : ℕ) : History.own (h ++ [(id, stamp)]) id' =
    if id' = id then h.own id' ++ [stamp] else h.own id' := by
  unfold History.own
  rw [List.filter_append, List.map_append]
  by_cases heq : id' = id
  · subst heq
    simp
  · have hne : ¬ id = id' := fun hid => heq hid.symm
    simp [heq, hne]

theorem phase_append_ne {id' : ℕ} (hne : id' ≠ id) :
    History.phase (h ++ [(id, stamp)]) id' = h.phase id' := by
  unfold History.phase
  rw [own_append, if_neg hne]

theorem History.Invoked.append {id' : ℕ} (hinvoked : h.Invoked id') :
    History.Invoked (h ++ [(id, stamp)]) id' := by
  obtain ⟨other, attemptId, hmem, hmark⟩ := hinvoked
  exact ⟨other, attemptId, List.mem_append_left _ hmem, hmark⟩

theorem History.Completed.append {id' : ℕ} {report : IdempotencyReport} (hcompleted : h.Completed id' report) :
    History.Completed (h ++ [(id, stamp)]) id' report := by
  obtain ⟨other, decisionId, status, hmem, hrest⟩ := hcompleted
  exact ⟨other, decisionId, status, List.mem_append_left _ hmem, hrest⟩

/-- A call that invoked has done so before, or does now. -/
theorem invoked_append {id' : ℕ} (hinvoked : History.Invoked (h ++ [(id, stamp)]) id') :
    h.Invoked id' ∨ id' = id ∧ ∃ attemptId, stamp.mark = .invoked attemptId := by
  obtain ⟨other, attemptId, hmem, hmark⟩ := hinvoked
  rcases List.mem_append.mp hmem with hin | hlast
  · exact .inl ⟨other, attemptId, hin, hmark⟩
  · obtain ⟨rfl, rfl⟩ := Prod.mk.inj (List.mem_singleton.mp hlast)
    exact .inr ⟨rfl, attemptId, hmark⟩

theorem Claims.others (hclaims : Claims callers direct before h t)
    (hdirect : ∀ id, direct (callers id).requestHash)
    (hothers : ∀ k record, direct record.requestHash → (t' k = some record ↔ t k = some record)) :
    Claims callers direct before h t' where
  owned id howns := by
    obtain ⟨record, hrecord, hhash, hholds⟩ := hclaims.owned id howns
    exact ⟨record, (hothers _ _ (hhash ▸ hdirect id)).mpr hrecord, hhash, hholds⟩
  unique := hclaims.unique
  ran := hclaims.ran
  spent id hinvoked := by
    obtain ⟨record, hrecord, hhash, hstate⟩ := hclaims.spent id hinvoked
    exact ⟨record, (hothers _ _ (hhash ▸ hdirect id)).mpr hrecord, hhash, hstate⟩
  sole := hclaims.sole
  one := hclaims.one
  completed k record hrecord hhash := hclaims.completed k record ((hothers k record hhash).mp hrecord)
    hhash
  replayed := hclaims.replayed
  older k record hrecord hhash :=
    (hclaims.older k record hrecord hhash).imp_left (hothers k record hhash).mpr

/-- A step of a call on the record of its key. -/
structure Stamps (callers : ℕ → Caller) (h : History) (id : ℕ) (stamp : Stamp) (q : Phase)
    (t t' : String → Option IdempotencyRecord) : Prop where
  next : (h.phase id).next stamp.mark = some q
  phase : History.phase (h ++ [(id, stamp)]) id = q
  found : stamp.mark.Found (callers id).requestHash (t (callers id).key)
  leaves : ∀ k, t' k = if k = (callers id).key then
    stamp.mark.leaves k (callers id).requestHash (t k) else t k

section Step

variable {q : Phase} (hclaims : Claims callers direct before h t)
  (hstep : Stamps callers h id stamp q t t')

include hclaims hstep

omit hclaims in
/-- A call that gets a claim finds no record. -/
theorem Stamps.free (hnot : ¬ (h.phase id).Owns) (howns : q.Owns) : t (callers id).key = none := by
  obtain ⟨found, hmark, rfl⟩ := Phase.claims_of_not_owns hstep.next hnot
  cases found with
  | some report => exact absurd rfl howns.2
  | none =>
    have hfound := hstep.found
    rwa [hmark] at hfound

/-- The record of another call stays as it is. -/
theorem Claims.kept {id' : ℕ} (hne : id' ≠ id) (howns : (h.phase id').Owns)
    {record : IdempotencyRecord} (hrecord : t (callers id').key = some record) :
    t' (callers id').key = some record := by
  rw [hstep.leaves]
  split
  · next hkey =>
    have hnot : ¬ (h.phase id).Owns := fun hid => hne (hclaims.unique id' id howns hid hkey)
    obtain ⟨found, hmark, -⟩ := Phase.claims_of_not_owns hstep.next hnot
    have hfound := hstep.found
    rw [hmark, ← hkey, hrecord] at hfound
    rw [hmark, hrecord]
    cases found with
    | some report => rfl
    | none => cases hfound
  · exact hrecord

omit hclaims in
theorem Stamps.spent_kept {id' : ℕ} (hspent : ∃ record, t (callers id').key = some record ∧
      record.requestHash = (callers id').requestHash ∧ record.state ≠ .claimed) :
    ∃ record, t' (callers id').key = some record ∧
      record.requestHash = (callers id').requestHash ∧ record.state ≠ .claimed := by
  obtain ⟨record, hrecord, hhash, hstate⟩ := hspent
  rw [hstep.leaves]
  split
  · next hkey =>
    have hfound := hstep.found
    rw [← hkey, hrecord] at hfound
    obtain ⟨r', hr', hhash', hstate'⟩ := leaves_spent hfound hstate
    rw [hrecord]
    exact ⟨r', hr', hhash'.trans hhash, hstate'⟩
  · exact ⟨record, hrecord, hhash, hstate⟩

omit hclaims in
/-- A call that has its claim after a step had it before, or found no record. -/
theorem Stamps.owns_before {id' : ℕ} (howns : (History.phase (h ++ [(id, stamp)]) id').Owns) :
    (h.phase id').Owns ∨ id' = id ∧ t (callers id).key = none := by
  by_cases hid : id' = id
  · subst hid
    rw [hstep.phase] at howns
    by_cases hbefore : (h.phase id').Owns
    · exact .inl hbefore
    · exact .inr ⟨rfl, hstep.free hbefore howns⟩
  · rw [phase_append_ne hid] at howns
    exact .inl howns

theorem Claims.step_owned (id' : ℕ) (howns : (History.phase (h ++ [(id, stamp)]) id').Owns) :
    ∃ record, t' (callers id').key = some record ∧
      record.requestHash = (callers id').requestHash ∧
      (History.phase (h ++ [(id, stamp)]) id').Holds record.state := by
  by_cases hid : id' = id
  · subst hid
    rw [hstep.phase] at howns ⊢
    have hfound := hstep.found
    rw [hstep.leaves, if_pos rfl]
    by_cases hbefore : (h.phase id').Owns
    · obtain ⟨record, hrecord, hhash, hholds⟩ := hclaims.owned id' hbefore
      rw [hrecord] at hfound ⊢
      obtain ⟨r', hr', hhash', hholds'⟩ := leaves_owned hfound hbefore hholds hstep.next howns
      exact ⟨r', hr', hhash'.trans hhash, hholds'⟩
    · obtain ⟨found, hmark, rfl⟩ := Phase.claims_of_not_owns hstep.next hbefore
      cases found with
      | some report => exact absurd rfl howns.2
      | none =>
        rw [hmark]
        exact ⟨_, rfl, rfl, rfl⟩
  · rw [phase_append_ne hid] at howns ⊢
    obtain ⟨record, hrecord, hhash, hholds⟩ := hclaims.owned id' howns
    exact ⟨record, hclaims.kept hstep hid howns hrecord, hhash, hholds⟩

theorem Claims.step_unique (id₁ id₂ : ℕ) (howns₁ : (History.phase (h ++ [(id, stamp)]) id₁).Owns)
    (howns₂ : (History.phase (h ++ [(id, stamp)]) id₂).Owns)
    (hkey : (callers id₁).key = (callers id₂).key) : id₁ = id₂ := by
  rcases hstep.owns_before howns₁ with hbefore₁ | ⟨rfl, hfree⟩
  · rcases hstep.owns_before howns₂ with hbefore₂ | ⟨rfl, hfree⟩
    · exact hclaims.unique id₁ id₂ hbefore₁ hbefore₂ hkey
    · obtain ⟨record, hrecord, -⟩ := hclaims.owned id₁ hbefore₁
      rw [hkey, hfree] at hrecord
      cases hrecord
  · rcases hstep.owns_before howns₂ with hbefore₂ | ⟨rfl, -⟩
    · obtain ⟨record, hrecord, -⟩ := hclaims.owned id₂ hbefore₂
      rw [← hkey, hfree] at hrecord
      cases hrecord
    · rfl

theorem Claims.invokes {attemptId : String} (hmark : stamp.mark = .invoked attemptId) :
    (h.phase id).Owns ∧ q = .running ∧ ∃ record, t (callers id).key = some record ∧
      record.requestHash = (callers id).requestHash ∧ record.state = .executing := by
  have hnext := hstep.next
  rw [hmark] at hnext
  obtain ⟨howns, hrunning, hholds⟩ := Phase.owns_of_invoked hnext
  obtain ⟨record, hrecord, hhash, hstate⟩ := hclaims.owned id howns
  exact ⟨howns, hrunning, record, hrecord, hhash, hholds _ hstate⟩

theorem Claims.step_spent (id' : ℕ) (hinvoked : History.Invoked (h ++ [(id, stamp)]) id') :
    ∃ record, t' (callers id').key = some record ∧
      record.requestHash = (callers id').requestHash ∧ record.state ≠ .claimed := by
  refine hstep.spent_kept ?_
  rcases invoked_append hinvoked with hbefore | ⟨rfl, attemptId, hmark⟩
  · exact hclaims.spent id' hbefore
  · obtain ⟨-, -, record, hrecord, hhash, hstate⟩ := hclaims.invokes hstep hmark
    exact ⟨record, hrecord, hhash, by simp [hstate]⟩

theorem Claims.step_sole (id₁ id₂ : ℕ) (hinvoked : History.Invoked (h ++ [(id, stamp)]) id₁)
    (howns : (History.phase (h ++ [(id, stamp)]) id₂).Owns)
    (hkey : (callers id₁).key = (callers id₂).key) : id₂ = id₁ := by
  rcases hstep.owns_before howns with hbefore | ⟨rfl, hfree⟩
  · rcases invoked_append hinvoked with hinvoked | ⟨rfl, attemptId, hmark⟩
    · exact hclaims.sole id₁ id₂ hinvoked hbefore hkey
    · obtain ⟨hown, -⟩ := hclaims.invokes hstep hmark
      exact hclaims.unique id₂ id₁ hbefore hown hkey.symm
  · rcases invoked_append hinvoked with hinvoked | ⟨rfl, -⟩
    · obtain ⟨record, hrecord, -⟩ := hclaims.spent id₁ hinvoked
      rw [hkey, hfree] at hrecord
      cases hrecord
    · rfl

theorem Claims.step_one (id₁ id₂ : ℕ) (hinvoked₁ : History.Invoked (h ++ [(id, stamp)]) id₁)
    (hinvoked₂ : History.Invoked (h ++ [(id, stamp)]) id₂)
    (hkey : (callers id₁).key = (callers id₂).key) : id₁ = id₂ := by
  rcases invoked_append hinvoked₁ with hbefore₁ | ⟨rfl, attemptId, hmark⟩
  · rcases invoked_append hinvoked₂ with hbefore₂ | ⟨rfl, attemptId, hmark⟩
    · exact hclaims.one id₁ id₂ hbefore₁ hbefore₂ hkey
    · exact (hclaims.sole id₁ id₂ hbefore₁ (hclaims.invokes hstep hmark).1 hkey).symm
  · rcases invoked_append hinvoked₂ with hbefore₂ | ⟨rfl, -⟩
    · exact hclaims.sole id₂ id₁ hbefore₂ (hclaims.invokes hstep hmark).1 hkey.symm
    · rfl

theorem Claims.step_ran (id' : ℕ) (hrunning : History.phase (h ++ [(id, stamp)]) id' = .running) :
    History.Invoked (h ++ [(id, stamp)]) id' := by
  by_cases hid : id' = id
  · subst hid
    rw [hstep.phase] at hrunning
    rcases Phase.running_of_next (hrunning ▸ hstep.next) with ⟨attemptId, hmark⟩ | hbefore
    · exact ⟨stamp, attemptId, List.mem_append_right _ (List.mem_singleton.mpr rfl), hmark⟩
    · exact (hclaims.ran id' hbefore).append
  · rw [phase_append_ne hid] at hrunning
    exact (hclaims.ran id' hrunning).append

theorem Claims.step_completed (k : String) (record : IdempotencyRecord) (hrecord : t' k = some record)
    (hdirect : direct record.requestHash) (hstate : record.state = .complete) :
    before.find? k = some record ∨ ∃ id', (callers id').key = k ∧
      (callers id').requestHash = record.requestHash ∧
      History.Invoked (h ++ [(id, stamp)]) id' ∧
      History.Completed (h ++ [(id, stamp)]) id' record.report := by
  rw [hstep.leaves] at hrecord
  by_cases hbefore : t k = some record
  · exact (hclaims.completed k record hbefore hdirect hstate).imp_right
      fun ⟨id', hkey, hhash, hinvoked, hdone⟩ => ⟨id', hkey, hhash, hinvoked.append, hdone.append⟩
  split at hrecord
  · next hk =>
    subst hk
    rcases leaves_complete hrecord hstate with
      hsame | ⟨decisionId, status, receiptIds, r, hmark, hr, rfl⟩
    · exact absurd hsame hbefore
    · have hrunning : h.phase id = .running := Phase.running_of_completed (hmark ▸ hstep.next)
      obtain ⟨owned, howned, hhash, -⟩ := hclaims.owned id (hrunning ▸ Phase.owns_of_running)
      obtain rfl := Option.some.inj (hr.symm.trans howned)
      exact .inr ⟨id, rfl, hhash.symm, (hclaims.ran id hrunning).append, stamp, decisionId, status,
        List.mem_append_right _ (List.mem_singleton.mpr rfl), hmark, rfl, rfl⟩
  · exact absurd hrecord hbefore

theorem Claims.step_replayed (hdirect : ∀ id, direct (callers id).requestHash) (id' : ℕ) (last : Stamp)
    (report : IdempotencyReport) (hmem : (id', last) ∈ h ++ [(id, stamp)])
    (hmark : last.mark = .claimed (some report)) (hstate : report.state = .complete) :
    (∃ record, before.find? (callers id').key = some record ∧ record.report = report) ∨
      ∃ id'', (callers id'').key = (callers id').key ∧
        (callers id'').requestHash = (callers id').requestHash ∧
        History.Invoked (h ++ [(id, stamp)]) id'' ∧
        History.Completed (h ++ [(id, stamp)]) id'' report := by
  rcases List.mem_append.mp hmem with hin | hlast
  · exact (hclaims.replayed id' last report hin hmark hstate).imp_right
      fun ⟨id'', hkey, hhash, hinvoked, hdone⟩ => ⟨id'', hkey, hhash, hinvoked.append, hdone.append⟩
  · obtain ⟨rfl, rfl⟩ := Prod.mk.inj (List.mem_singleton.mp hlast)
    have hfound := hstep.found
    rw [hmark] at hfound
    obtain ⟨record, hrecord, hhash, rfl⟩ := hfound
    rcases hclaims.completed _ record hrecord (hhash ▸ hdirect id') hstate with
      hbefore | ⟨id'', hkey, hhash', hinvoked, hdone⟩
    · exact .inl ⟨record, hbefore, rfl⟩
    · exact .inr ⟨id'', hkey, hhash'.trans hhash, hinvoked.append, hdone.append⟩

theorem Claims.step_older (k : String) (record : IdempotencyRecord)
    (hrecord : before.find? k = some record) (hdirect : direct record.requestHash) :
    t' k = some record ∧ ∀ id', (callers id').key = k →
      ¬ (History.phase (h ++ [(id, stamp)]) id').Owns ∧ ¬ History.Invoked (h ++ [(id, stamp)]) id' := by
  obtain ⟨hbefore, hnone⟩ := hclaims.older k record hrecord hdirect
  refine ⟨?_, fun id' hkey => ⟨fun howns => ?_, fun hinvoked => ?_⟩⟩
  · rw [hstep.leaves]
    split
    · next hk =>
      obtain ⟨found, hmark, -⟩ := Phase.claims_of_not_owns hstep.next (hnone id hk.symm).1
      have hfound := hstep.found
      rw [hmark, ← hk, hbefore] at hfound
      rw [hmark, hbefore]
      cases found with
      | some report => rfl
      | none => cases hfound
    · exact hbefore
  · rcases hstep.owns_before howns with howns | ⟨rfl, hfree⟩
    · exact (hnone id' hkey).1 howns
    · rw [hkey, hbefore] at hfree
      cases hfree
  · rcases invoked_append hinvoked with hinvoked | ⟨rfl, attemptId, hmark⟩
    · exact (hnone id' hkey).2 hinvoked
    · exact (hnone id' hkey).1 (hclaims.invokes hstep hmark).1

theorem Claims.step (hdirect : ∀ id, direct (callers id).requestHash) :
    Claims callers direct before (h ++ [(id, stamp)]) t' where
  owned := hclaims.step_owned hstep
  unique := hclaims.step_unique hstep
  ran := hclaims.step_ran hstep
  spent := hclaims.step_spent hstep
  sole := hclaims.step_sole hstep
  one := hclaims.step_one hstep
  completed := hclaims.step_completed hstep
  replayed := hclaims.step_replayed hstep hdirect
  older := hclaims.step_older hstep

end Step

theorem phase_nil (id : ℕ) : History.phase [] id = .idle := rfl

theorem Claims.initial : Claims callers direct before [] before.find? where
  owned id howns := absurd (phase_nil id) howns.1
  unique id _ howns := absurd (phase_nil id) howns.1
  ran id hrunning := by
    rw [phase_nil] at hrunning
    cases hrunning
  spent _ := fun ⟨_, _, hmem, _⟩ => absurd hmem List.not_mem_nil
  sole _ _ := fun ⟨_, _, hmem, _⟩ => absurd hmem List.not_mem_nil
  one _ _ := fun ⟨_, _, hmem, _⟩ => absurd hmem List.not_mem_nil
  completed _ _ hrecord _ _ := .inl hrecord
  replayed _ _ _ hmem := absurd hmem List.not_mem_nil
  older _ _ hrecord _ := ⟨hrecord, fun id _ => ⟨fun howns => howns.1 (phase_nil id),
    fun ⟨_, _, hmem, _⟩ => absurd hmem List.not_mem_nil⟩⟩

theorem Interleaved.init {entry : ℕ × Stamp} (hrun : Interleaved callers direct before (h ++ [entry])) :
    Interleaved callers direct before h where
  own id := by
    refine .trans ?_ (hrun.own id)
    rw [own_append]
    split
    · exact List.prefix_append _ _
    · exact List.prefix_rfl
  hashes := hrun.hashes
  chained earlier id stamp hinit :=
    hrun.chained earlier id stamp (hinit.trans (List.prefix_append _ _))

theorem phaseOf_prefix {marks marks' : List Stamp} (hinit : marks <+: marks')
    (hphase : (phaseOf marks').isSome) : (phaseOf marks).isSome := by
  obtain ⟨rest, rfl⟩ := hinit
  unfold phaseOf at *
  rw [List.foldlM_append] at hphase
  cases hmarks : marks.foldlM (fun p stamp => p.next stamp.mark) Phase.idle with
  | some p => rfl
  | none =>
    rw [hmarks] at hphase
    cases hphase

/-- The last stamp of a history is a step of its call. -/
theorem Interleaved.stamps (hrun : Interleaved callers direct before (h ++ [(id, stamp)])) :
    ∃ q, Stamps callers h id stamp q stamp.found.idempotency.find? stamp.left.idempotency.find? := by
  have hown := hrun.own id
  rw [own_append, if_pos rfl] at hown
  have hfollow := marks_follow (callers id).call (callers id).world (callers id).env (callers id).keyed
  obtain ⟨hfound, hleft⟩ := (hfollow.acts stamp (hown.subset (by simp))).effect
  have hphase := phaseOf_prefix hown hfollow.phase
  have hafter : History.phase (h ++ [(id, stamp)]) id = (phaseOf (h.own id ++ [stamp])).getD .idle := by
    unfold History.phase
    rw [own_append, if_pos rfl]
  rw [phaseOf_append] at hphase hafter
  cases hp : phaseOf (h.own id) with
  | none =>
    rw [hp] at hphase
    cases hphase
  | some p =>
    rw [hp, Option.bind_some] at hphase hafter
    obtain ⟨q, hq⟩ := Option.isSome_iff_exists.mp hphase
    refine ⟨q, ?_, ?_, hfound, fun k => ?_⟩
    · unfold History.phase
      rw [hp]
      exact hq
    · rw [hafter, hq]
      rfl
    · rw [hleft k]
      by_cases hk : k = (callers id).key
      · rw [if_pos hk, if_pos hk, hk]
        rfl
      · rw [if_neg hk, if_neg hk]

/-- The claims hold through every history. -/
theorem Interleaved.claims (hrun : Interleaved callers direct before h) :
    Claims callers direct before h (h.table before).find? := by
  induction h using List.reverseRecOn with
  | nil => exact .initial
  | append_singleton h entry ih =>
    obtain ⟨id, stamp⟩ := entry
    have hbefore := (ih hrun.init).others hrun.hashes (hrun.chained h id stamp List.prefix_rfl)
    obtain ⟨q, hstep⟩ := hrun.stamps
    have htable : History.table (h ++ [(id, stamp)]) before = stamp.left.idempotency := by
      simp [History.table]
    rw [htable]
    exact hbefore.step hstep hrun.hashes

/-- Calls for one key that run side by side: at most one invokes an executor, and none where the key
has a record of a direct call from before; what a later call replays is what that one call completed,
or what was complete before. -/
theorem one_caller_invokes (callers : ℕ → Caller) (direct : String → Prop) (before : KeyTable)
    (h : History) (hrun : Interleaved callers direct before h) :
    (∀ id id', h.Invoked id → h.Invoked id' → (callers id).key = (callers id').key → id = id') ∧
    (∀ id record, h.Invoked id → before.find? (callers id).key = some record →
      ¬ direct record.requestHash) ∧
    ∀ id stamp report, (id, stamp) ∈ h → stamp.mark = .claimed (some report) →
      report.state = .complete →
      (∃ record, before.find? (callers id).key = some record ∧ record.report = report) ∨
        ∃ id', (callers id').key = (callers id).key ∧
          (callers id').requestHash = (callers id).requestHash ∧ h.Invoked id' ∧
          h.Completed id' report := by
  have hclaims := hrun.claims
  refine ⟨hclaims.one, fun id record hinvoked hrecord hdirect => ?_, hclaims.replayed⟩
  exact ((hclaims.older _ record hrecord hdirect).2 id rfl).2 hinvoked

end Interleavings

/-! ## Two calls -/

def parseSpec (id : String) : RegisteredSpec where
  id := id
  fingerprint := "sha256:0000000000000000000000000000000000000000000000000000000000000002"
  sideEffect := .read
  idempotent := true
  safeToAutoExecute := true
  isHosted := false
  isManagedHost := false
  enabled := true
  capability := "parse"
  hasOutputSchema := false
  validators := []

/-- The first candidate fails, the second one does not. -/
def parseRouting : Routing where
  decisionId := "decision"
  selectedExecutorId := some "fast"
  candidates := [⟨"fast", true, some 1, none⟩, ⟨"careful", true, some 2, none⟩]
  fallback := ⟨true, 3, true, true, false, by decide, by decide⟩
  explanation := ""

def parseEnv : DirectEnv where
  others := fun _ w => w
  route := fun _ => parseRouting
  validated := fun _ => true
  registry := fun _ id => some (parseSpec id)
  quota := fun _ => none
  requiresPrepared := fun _ => false
  reasons := fun _ => []
  returned := fun n =>
    ⟨if n < 25 then .failed else .success, none, none, true, [], 0, 0, ⟨.unavailable, []⟩⟩

def parseWorld : World := .start
  { crypto := actionCrypto
    taskScopeDigest := none
    workerId := "worker"
    invocationDigest := fun _ _ _ =>
      "sha256:0000000000000000000000000000000000000000000000000000000000000003" }
  { fate := fun _ => .proceeds
    now := fun n => n
    newId := fun n => "id" ++ toString n
    capacity := fun _ => none }

def parseHash : String := "sha256:0000000000000000000000000000000000000000000000000000000000000002"

theorem parse_keyed : ActionRequest.Keyed ⟨"action", "parse", some "key", false, parseHash⟩ "key" :=
  ⟨rfl, by decide⟩

def parseCaller (world : World) : Caller where
  call := ⟨.read, false, false, false⟩
  decision := parseRouting.decision
    ⟨"action", "parse", some "key", false, parseHash⟩
  world := world
  env := parseEnv
  key := "key"
  keyed := parse_keyed

theorem key_parseCaller (world : World) : (parseCaller world).key = "key" := rfl

theorem requestHash_parseCaller (world : World) : (parseCaller world).requestHash = parseHash := rfl

/-- A call, and one after it. -/
def parseCallers (id : ℕ) : Caller :=
  let first := parseCaller parseWorld
  if id = 0 then first
  else parseCaller (execute first.call first.decision (.start first.world first.env)).2.world

def parsedTwice : History :=
  (parseCallers 0).marks.map (0, ·) ++ (parseCallers 1).marks.map (1, ·)

theorem parsedTwice_chained : ∀ i < parsedTwice.length, ∀ entry ∈ parsedTwice[i]?,
    History.table (parsedTwice.take i) ∅ = entry.2.found.idempotency := by
  decide +kernel

def parsedMarks : List (ℕ × KeyMark) :=
  [(0, .claimed none), (0, .executing), (0, .invoked "id8"), (0, .invoked "id35"),
    (0, .completed "decision" "success" ["id22", "id48"]),
    (1, .claimed (some ⟨.complete, some "decision", some "success", ["id22", "id48"]⟩))]

theorem parsedTwice_marks : parsedTwice.map (fun entry => (entry.1, entry.2.mark)) = parsedMarks := by
  decide +kernel

theorem mem_parsedTwice {id : ℕ} {mark : KeyMark} (hmark : (id, mark) ∈ parsedMarks) :
    ∃ stamp, (id, stamp) ∈ parsedTwice ∧ stamp.mark = mark := by
  rw [← parsedTwice_marks] at hmark
  obtain ⟨⟨_, stamp⟩, hmem, heq⟩ := List.mem_map.mp hmark
  obtain ⟨rfl, rfl⟩ := Prod.mk.inj heq
  exact ⟨stamp, hmem, rfl⟩

theorem own_tagged (id id' : ℕ) (marks : List Stamp) :
    History.own (marks.map (id', ·)) id = if id' = id then marks else [] := by
  unfold History.own
  by_cases heq : id' = id
  · simp [heq, List.filter_map, Function.comp_def]
  · simp [heq, List.filter_map, Function.comp_def]

theorem parsedTwice_own (id : ℕ) : parsedTwice.own id <+: (parseCallers id).marks := by
  have hown : parsedTwice.own id = (if 0 = id then (parseCallers 0).marks else []) ++
      if 1 = id then (parseCallers 1).marks else [] := by
    rw [← own_tagged id 0, ← own_tagged id 1]
    unfold History.own parsedTwice
    rw [List.filter_append, List.map_append]
  rw [hown]
  by_cases hfirst : 0 = id
  · have hlater : ¬ 1 = id := by omega
    rw [if_pos hfirst, if_neg hlater, List.append_nil, hfirst]
  · by_cases hlater : 1 = id
    · rw [if_neg hfirst, if_pos hlater, List.nil_append, hlater]
    · rw [if_neg hfirst, if_neg hlater]
      exact List.nil_prefix

theorem key_parseCallers (id : ℕ) : (parseCallers id).key = "key" := by
  unfold parseCallers
  split
  · exact key_parseCaller _
  · exact key_parseCaller _

theorem requestHash_parseCallers (id : ℕ) : (parseCallers id).requestHash = parseHash := by
  unfold parseCallers
  split
  · exact requestHash_parseCaller _
  · exact requestHash_parseCaller _

theorem parsedTwice_interleaved :
    Interleaved parseCallers (· = parseHash) ∅ parsedTwice where
  own := parsedTwice_own
  hashes := requestHash_parseCallers
  chained earlier id stamp hinit k record _ := by
    obtain ⟨rest, hrest⟩ := hinit
    have hentry : (id, stamp) ∈ parsedTwice[earlier.length]? := by rw [← hrest]; simp
    have htake : parsedTwice.take earlier.length = earlier := by rw [← hrest]; simp
    have hlength : earlier.length < parsedTwice.length := by rw [← hrest]; simp
    rw [← parsedTwice_chained _ hlength _ hentry, htake]

theorem one_caller_invokes_parsed :
    parsedTwice.Invoked 0 ∧ ¬ parsedTwice.Invoked 1 ∧ ∃ id, parsedTwice.Invoked id ∧
      parsedTwice.Completed id ⟨.complete, some "decision", some "success", ["id22", "id48"]⟩ := by
  obtain ⟨hone, -, hreplayed⟩ :=
    one_caller_invokes parseCallers _ ∅ parsedTwice parsedTwice_interleaved
  obtain ⟨stamp, hin, hmark⟩ : ∃ stamp, (0, stamp) ∈ parsedTwice ∧ stamp.mark = .invoked "id8" :=
    mem_parsedTwice (by decide)
  obtain ⟨last, hlast, hreport⟩ : ∃ last, (1, last) ∈ parsedTwice ∧ last.mark = .claimed (some
      ⟨.complete, some "decision", some "success", ["id22", "id48"]⟩) := mem_parsedTwice (by decide)
  have hkey : (parseCallers 0).key = (parseCallers 1).key :=
    (key_parseCallers 0).trans (key_parseCallers 1).symm
  have hinvoked : parsedTwice.Invoked 0 := ⟨stamp, "id8", hin, hmark⟩
  refine ⟨hinvoked, fun hagain => ?_, ?_⟩
  · exact absurd (hone 0 1 hinvoked hagain hkey) Nat.zero_ne_one
  · rcases hreplayed 1 last _ hlast hreport rfl with ⟨record, hrecord, -⟩ | ⟨id, -, -, hid⟩
    · rw [Table.find?_empty] at hrecord
      cases hrecord
    · exact ⟨id, hid⟩

/-- The empty key is given up after an invocation that raised. -/
example :
    let world : World := { parseWorld with
      env := { parseWorld.env with fate := fun n => if n = 17 then .raises (.other "Timeout") else
        .proceeds } }
    (execute ⟨.read, false, false, false⟩ (parseRouting.decision
      ⟨"action", "parse", some "", false, parseHash⟩) (.start world parseEnv)).2.marks.map (·.mark) =
        [.claimed none, .invoked "id8", .indeterminate, .abandoned] := by
  decide +kernel

end AeepRouter.Router

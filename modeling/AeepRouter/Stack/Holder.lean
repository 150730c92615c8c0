import AeepRouter.Stack.Replay

/-!
# The call that holds a row

From its claim to its last write a call holds the row: no other call does, and the row stays running
or uncertain. So the records of the nodes still to come are those the call claimed with, and a node
is `started` exactly while its dispatch is unsettled or lost.
-/

namespace AeepRouter.Stack

open Lib

namespace Phase

/-- The copy of the progress a call acts on. -/
def copy : Phase → Option Progress
  | .checked prior _ | .between prior _ _ | .awaiting prior _ _ | .returned prior _ _ _ =>
    some prior
  | .idle | .closing _ | .stopped => none

/-- The call is between its claim and the end of its work. A dispatch that went wrong is left to a
recovery. -/
def Holds : Phase → Prop
  | .between _ _ _ | .awaiting _ _ _ | .returned _ _ _ _ => True
  | .closing state => state ≠ .uncertain
  | .idle | .checked _ _ | .stopped => False

theorem Holds.of_pending {phase : Phase} {nodeId : String} (h : phase.pending = some nodeId) :
    phase.Holds := by
  cases phase <;> first | cases h; done | trivial

theorem copy_proceed {prior copy : Progress} {steps : List String}
    (h : (proceed prior steps).copy = some copy) : copy = prior := by
  unfold proceed at h
  split at h
  · cases h
  · exact (Option.some.inj h).symm

end Phase

/-! ## Invariants -/

def Busy (row : Option StackRun) : Prop := ∃ r ∈ row, r.state ∈ [.running, .uncertain]

structure Exclusive (v : View) : Prop where
  alone : ∀ call call', (v.phase call).Holds → (v.phase call').Holds → call = call'
  busy : ∀ call, (v.phase call).Holds → Busy v.row
  started : ∀ nodeId, stateOf v.progress nodeId = some .started → Busy v.row
  owned : ∀ nodeId, stateOf v.progress nodeId = some .started →
    ∀ call, (v.phase call).Holds → (v.phase call).pending = some nodeId
  single : ∀ nodeId other, stateOf v.progress nodeId = some .started →
    stateOf v.progress other = some .started → other = nodeId

section Copies

variable (progress : Progress) (reported : List String)

/-- A record that still waits for its host, or was completed with its decision. -/
def Served (nodeId : String) (record : NodeRecord) : Prop :=
  progress.lookup nodeId = some record ∨ stateOf progress nodeId = some .complete ∧
    ∃ decision ∈ record.decisionId, decision ∈ reported

/-- No record of a copy is forgotten. -/
def Kept (prior : Progress) : Prop :=
  ∀ nodeId record, prior.lookup nodeId = some record →
    progress.lookup nodeId ≠ none ∧
      (record.state = .waiting → Served progress reported nodeId record)

def Dispatched (prior : Progress) (nodeId : String) : Prop :=
  ∃ record, progress.lookup nodeId = some record ∧ record.state = .started ∧
    record.attempts = nodeAttempt prior nodeId

def Resumed (prior : Progress) (nodeId : String) : Write → Prop
  | .complete _ _ => ∃ record, prior.lookup nodeId = some record ∧
      progress.lookup nodeId = some record ∧ ∃ decision ∈ record.decisionId, decision ∈ reported
  | _ => False

/-- What is known of the work of a call. -/
def Work (limits : StackLimits) : Phase → Prop
  | .between prior nodeId rest =>
    (nodeId :: rest).Nodup ∧ ∀ m ∈ nodeId :: rest, Current limits prior progress m
  | .awaiting prior nodeId rest =>
    (nodeId :: rest).Nodup ∧ (∀ m ∈ rest, Current limits prior progress m) ∧
      (stateOf prior nodeId ≠ some .waiting → Dispatched progress prior nodeId)
  | .returned prior nodeId rest write =>
    (nodeId :: rest).Nodup ∧ (∀ m ∈ rest, Current limits prior progress m) ∧
      (stateOf prior nodeId ≠ some .waiting → Dispatched progress prior nodeId) ∧
      (stateOf prior nodeId = some .waiting → Resumed progress reported prior nodeId write)
  | .idle | .checked _ _ | .closing _ | .stopped => True

end Copies

structure Inv (limits : StackLimits) (v : View) : Prop where
  ledger : Ledger limits v.log (v.row.elim 0 (·.attempts)) v.progress
  exclusive : Exclusive v
  kept : ∀ call prior, (v.phase call).copy = some prior → Kept v.progress v.reported prior
  work : ∀ call, Work v.progress v.reported limits (v.phase call)

section Lemmas

variable {limits : StackLimits} {progress : Progress} {reported reported' : List String}
  {prior : Progress} {nodeId : String} {record : NodeRecord} {phase : Phase}

theorem work_of_not_holds (h : ¬ phase.Holds) : Work progress reported limits phase := by
  cases phase <;> first | trivial | exact absurd trivial h

theorem Resumed.mono (h : reported ⊆ reported') {write : Write}
    (hw : Resumed progress reported prior nodeId write) :
    Resumed progress reported' prior nodeId write := by
  cases write with
  | complete outputDigest receiptIds =>
    obtain ⟨record, hprior, hlookup, decision, hdecision, hreported⟩ := hw
    exact ⟨record, hprior, hlookup, decision, hdecision, h hreported⟩
  | suspend => exact hw
  | allowRetry => exact hw

theorem Work.mono (h : reported ⊆ reported') (hw : Work progress reported limits phase) :
    Work progress reported' limits phase := by
  cases phase with
  | returned prior nodeId rest write =>
    exact ⟨hw.1, hw.2.1, hw.2.2.1, fun hwaiting => (hw.2.2.2 hwaiting).mono h⟩
  | idle => trivial
  | checked => trivial
  | between => exact hw
  | awaiting => exact hw
  | closing => trivial
  | stopped => trivial

/-- The nodes to come are those of the copy that are left. -/
theorem work_proceed {steps : List String} (hsteps : steps.Nodup)
    (hcurrent : ∀ m ∈ steps, Current limits prior progress m) :
    Work progress reported limits (.proceed prior steps) := by
  have hsub := List.filter_sublist (l := steps)
    (p := fun nodeId => stateOf prior nodeId ≠ some .complete)
  unfold Phase.proceed
  split
  · trivial
  · next nodeId rest hfilter =>
    rw [hfilter] at hsub
    exact ⟨hsub.nodup hsteps, fun m hm => hcurrent m (hsub.subset hm)⟩

theorem Current.insert {m : String} (h : Current limits prior progress m) (hm : m ≠ nodeId) :
    Current limits prior (progress.insert nodeId record) m := by
  unfold Current
  rw [lookup_insert, if_neg hm]
  exact h

theorem Served.mono (h : reported ⊆ reported') (hs : Served progress reported nodeId record) :
    Served progress reported' nodeId record :=
  hs.imp_right fun ⟨hstate, decision, hdecision, hreported⟩ =>
    ⟨hstate, decision, hdecision, h hreported⟩

theorem Kept.mono (h : reported ⊆ reported') (hk : Kept progress reported prior) :
    Kept progress reported' prior := fun nodeId record hprior =>
  ⟨(hk nodeId record hprior).1, fun hwaiting => ((hk nodeId record hprior).2 hwaiting).mono h⟩

theorem Kept.insert (hk : Kept progress reported prior)
    (hserved : ∀ r : NodeRecord, r.state = .waiting → Served progress reported nodeId r →
      Served (progress.insert nodeId record) reported nodeId r) :
    Kept (progress.insert nodeId record) reported prior := by
  intro m r hprior
  obtain ⟨hsome, hwaiting⟩ := hk m r hprior
  by_cases hm : m = nodeId
  · subst hm
    refine ⟨?_, fun h => hserved r h (hwaiting h)⟩
    rw [AList.lookup_insert]
    exact Option.some_ne_none _
  · unfold Served at hwaiting ⊢
    rw [lookup_insert, if_neg hm, stateOf_insert, if_neg hm]
    exact ⟨hsome, hwaiting⟩

theorem Kept.insert_of_state (hk : Kept progress reported prior)
    (hwaiting : stateOf progress nodeId ≠ some .waiting)
    (hcomplete : stateOf progress nodeId ≠ some .complete) :
    Kept (progress.insert nodeId record) reported prior := by
  refine hk.insert fun r hr hserved => ?_
  rcases hserved with hlookup | ⟨hstate, -⟩
  · rw [stateOf_of_lookup hlookup, hr] at hwaiting
    exact absurd rfl hwaiting
  · exact absurd hstate hcomplete

end Lemmas

/-! ## Steps -/

section Steps

variable {limits : StackLimits} {v : View} {call : ℕ} {phase : Phase} {row : Option StackRun}
  {reported : List String} {log : List LogEntry}

theorem Exclusive.others (h : Exclusive v) (hholds : (v.phase call).Holds) (c : ℕ) (hc : c ≠ call) :
    ¬ (v.phase c).Holds := fun hother => hc (h.alone c call hother hholds)

theorem Exclusive.none_of_not_busy (h : Exclusive v) (hrow : ¬ Busy v.row) (c : ℕ) :
    ¬ (v.phase c).Holds := fun hc => hrow (h.busy c hc)

theorem Inv.hold (h : Inv limits v) (hothers : ∀ c, c ≠ call → ¬ (v.phase c).Holds)
    (hledger : Ledger limits log (row.elim 0 (·.attempts)) (row.elim ∅ (·.progress)))
    (hbusy : phase.Holds → Busy row)
    (hstarted : ∀ n, stateOf (row.elim ∅ (·.progress)) n = some .started →
      Busy row ∧ (phase.Holds → phase.pending = some n) ∧
        ∀ m, stateOf (row.elim ∅ (·.progress)) m = some .started → m = n)
    (hcopy : ∀ prior, phase.copy = some prior → (v.phase call).copy = some prior)
    (hkept : ∀ prior, Kept v.progress v.reported prior →
      Kept (row.elim ∅ (·.progress)) reported prior)
    (hwork : Work (row.elim ∅ (·.progress)) reported limits phase) :
    Inv limits ⟨row, Function.update v.phase call phase, reported, log⟩ := by
  have hholds : ∀ c, (Function.update v.phase call phase c).Holds → c = call ∧ phase.Holds := by
    intro c hc
    by_cases heq : c = call
    · subst heq
      rw [Function.update_self] at hc
      exact ⟨rfl, hc⟩
    · rw [Function.update_of_ne heq] at hc
      exact absurd hc (hothers c heq)
  refine ⟨hledger, ⟨?_, ?_, ?_, ?_, ?_⟩, ?_, ?_⟩
  · intro c c' hc hc'
    rw [(hholds c hc).1, (hholds c' hc').1]
  · exact fun c hc => hbusy (hholds c hc).2
  · exact fun n hn => (hstarted n hn).1
  · intro n hn c hc
    obtain ⟨rfl, hphase⟩ := hholds c hc
    show (Function.update v.phase c phase c).pending = some n
    rw [Function.update_self]
    exact (hstarted n hn).2.1 hphase
  · exact fun n m hn hm => (hstarted n hn).2.2 m hm
  · intro c prior hprior
    show Kept (row.elim ∅ (·.progress)) reported prior
    replace hprior : (Function.update v.phase call phase c).copy = some prior := hprior
    by_cases heq : c = call
    · subst heq
      rw [Function.update_self] at hprior
      exact hkept prior (h.kept c prior (hcopy prior hprior))
    · rw [Function.update_of_ne heq] at hprior
      exact hkept prior (h.kept c prior hprior)
  · intro c
    show Work (row.elim ∅ (·.progress)) reported limits (Function.update v.phase call phase c)
    by_cases heq : c = call
    · subst heq
      rw [Function.update_self]
      exact hwork
    · rw [Function.update_of_ne heq]
      exact work_of_not_holds (hothers c heq)

/-- A move of a call that lets go of the row, or never held it. -/
theorem Inv.release (h : Inv limits v) (hphase : ¬ phase.Holds) (hreported : v.reported ⊆ reported)
    (hattempts : row.elim 0 (·.attempts) = v.row.elim 0 (·.attempts))
    (hprogress : row.elim ∅ (·.progress) = v.progress) (hbusy : Busy v.row → Busy row)
    (hcopy : ∀ prior, phase.copy = some prior → Kept v.progress v.reported prior) :
    Inv limits ⟨row, Function.update v.phase call phase, reported, v.log⟩ := by
  have hholds : ∀ c, (Function.update v.phase call phase c).Holds →
      (v.phase c).Holds ∧ Function.update v.phase call phase c = v.phase c := by
    intro c hc
    by_cases heq : c = call
    · subst heq
      rw [Function.update_self] at hc
      exact absurd hc hphase
    · rw [Function.update_of_ne heq] at hc ⊢
      exact ⟨hc, rfl⟩
  refine ⟨?_, ⟨?_, ?_, ?_, ?_, ?_⟩, ?_, ?_⟩
  · show Ledger limits v.log (row.elim 0 (·.attempts)) (row.elim ∅ (·.progress))
    rw [hattempts, hprogress]
    exact h.ledger
  · exact fun c c' hc hc' => h.exclusive.alone c c' (hholds c hc).1 (hholds c' hc').1
  · exact fun c hc => hbusy (h.exclusive.busy c (hholds c hc).1)
  · intro n hn
    replace hn : stateOf (row.elim ∅ (·.progress)) n = some .started := hn
    rw [hprogress] at hn
    exact hbusy (h.exclusive.started n hn)
  · intro n hn c hc
    replace hn : stateOf (row.elim ∅ (·.progress)) n = some .started := hn
    rw [hprogress] at hn
    show (Function.update v.phase call phase c).pending = some n
    rw [(hholds c hc).2]
    exact h.exclusive.owned n hn c (hholds c hc).1
  · intro n m hn hm
    replace hn : stateOf (row.elim ∅ (·.progress)) n = some .started := hn
    replace hm : stateOf (row.elim ∅ (·.progress)) m = some .started := hm
    rw [hprogress] at hn hm
    exact h.exclusive.single n m hn hm
  · intro c prior hprior
    show Kept (row.elim ∅ (·.progress)) reported prior
    replace hprior : (Function.update v.phase call phase c).copy = some prior := hprior
    rw [hprogress]
    by_cases heq : c = call
    · subst heq
      rw [Function.update_self] at hprior
      exact (hcopy prior hprior).mono hreported
    · rw [Function.update_of_ne heq] at hprior
      exact (h.kept c prior hprior).mono hreported
  · intro c
    show Work (row.elim ∅ (·.progress)) reported limits (Function.update v.phase call phase c)
    rw [hprogress]
    by_cases heq : c = call
    · subst heq
      rw [Function.update_self]
      exact work_of_not_holds hphase
    · rw [Function.update_of_ne heq]
      exact (h.work c).mono hreported

/-- A move of the holder that leaves the row alone. -/
theorem Inv.advance (h : Inv limits v) (hholds : (v.phase call).Holds)
    (hreported : v.reported ⊆ reported)
    (hpending : phase.Holds → ∀ n, (v.phase call).pending = some n → phase.pending = some n)
    (hcopy : ∀ prior, phase.copy = some prior → (v.phase call).copy = some prior)
    (hwork : Work v.progress reported limits phase) :
    Inv limits ⟨v.row, Function.update v.phase call phase, reported, v.log⟩ :=
  h.hold (h.exclusive.others hholds) h.ledger (fun _ => h.exclusive.busy call hholds)
    (fun n hn => ⟨h.exclusive.started n hn,
      fun hp => hpending hp n (h.exclusive.owned n hn call hholds),
      fun m hm => h.exclusive.single n m hn hm⟩)
    hcopy (fun _ hk => hk.mono hreported) hwork

/-- Between two nodes nothing is started. -/
theorem Inv.none_started (h : Inv limits v) (hholds : (v.phase call).Holds)
    (hpending : (v.phase call).pending = none) (n : String) :
    stateOf v.progress n ≠ some .started := by
  intro hn
  have := h.exclusive.owned n hn call hholds
  rw [hpending] at this
  cases this

theorem Inv.open (h : Inv limits v) {prior : Progress} {inputDigest : String} {steps : List String}
    {row : StackRun} (hphase : v.phase call = .checked prior inputDigest) (hidle : ¬ Busy v.row)
    (hrunning : row.state = .running) (hattempts : row.attempts = v.row.elim 0 (·.attempts))
    (hprogress : row.progress = v.progress) (hsteps : steps.Nodup)
    (hcurrent : ∀ n, Current limits prior v.progress n) :
    Inv limits
      ⟨some row, Function.update v.phase call (.proceed prior steps), v.reported, v.log⟩ := by
  refine h.hold (fun c _ => h.exclusive.none_of_not_busy hidle c) ?_ ?_ ?_ ?_ ?_ ?_
  · show Ledger limits v.log row.attempts row.progress
    rw [hattempts, hprogress]
    exact h.ledger
  · exact fun _ => ⟨row, rfl, by simp [hrunning]⟩
  · intro n hn
    replace hn : stateOf row.progress n = some .started := hn
    rw [hprogress] at hn
    exact absurd (h.exclusive.started n hn) hidle
  · intro copy hcopy
    rw [hphase, Phase.copy_proceed hcopy]
    rfl
  · intro copy hk
    show Kept row.progress v.reported copy
    rw [hprogress]
    exact hk
  · show Work row.progress v.reported limits _
    rw [hprogress]
    exact work_proceed hsteps fun m _ => hcurrent m

/-- What a reservation finds is what the call read. -/
theorem Current.lookup_eq {prior progress : Progress} {nodeId : String}
    (hc : Current limits prior progress nodeId) (hk : Kept progress reported prior)
    (hstate : stateOf progress nodeId ∉ [some .started, some .uncertain, some .complete])
    (hretry : attemptsOf progress nodeId ≤ limits.retryReserve) :
    progress.lookup nodeId = prior.lookup nodeId := by
  cases hlookup : progress.lookup nodeId with
  | none =>
    cases hprior : prior.lookup nodeId with
    | none => rfl
    | some record => exact absurd hlookup (hk nodeId record hprior).1
  | some record =>
    rw [stateOf_of_lookup hlookup] at hstate
    rw [attemptsOf_of_lookup hlookup] at hretry
    have hopen : record.state ∈ [NodeState.waiting, .retryable] := by
      cases hs : record.state <;> simp_all
    rcases hc record hlookup hopen with hprior | hused
    · exact hprior.symm
    · omega

theorem Inv.dispatch (h : Inv limits v) {prior : Progress} {nodeId : String} {rest : List String}
    {row : StackRun} (hphase : v.phase call = .between prior nodeId rest)
    (hnew : stateOf prior nodeId ≠ some .waiting) (hrow : v.row = some row)
    (hrunning : row.state = .running) (hallowed : row.attempts < limits.maxAttempts)
    (hstate : stateOf row.progress nodeId ∉ [some .started, some .uncertain, some .complete])
    (hretry : attemptsOf row.progress nodeId ≤ limits.retryReserve) :
    Inv limits ⟨some { row with
        attempts := row.attempts + 1
        progress := row.progress.insert nodeId (dispatchRecord row.progress nodeId) },
      Function.update v.phase call (.awaiting prior nodeId rest), v.reported,
      .dispatched nodeId (stateOf row.progress nodeId) :: v.log⟩ := by
  have hprogress : v.progress = row.progress := by
    rw [View.progress, hrow]
    rfl
  have hledger := h.ledger
  have hwork := h.work call
  have hkept := h.kept call prior (by rw [hphase]; rfl)
  have hholds : (v.phase call).Holds := by rw [hphase]; trivial
  have hidle := h.none_started hholds (by rw [hphase]; rfl)
  rw [hphase, hprogress] at hwork
  rw [hrow, hprogress] at hledger
  rw [hprogress] at hkept hidle
  obtain ⟨hnodup, hcurrent⟩ := hwork
  have hlookup := (hcurrent nodeId List.mem_cons_self).lookup_eq hkept hstate hretry
  have hfound : stateOf row.progress nodeId = stateOf prior nodeId :=
    congrArg (Option.map _) hlookup
  have hwaiting : stateOf row.progress nodeId ≠ some .waiting := hfound ▸ hnew
  have hattempts : attemptsOf row.progress nodeId = attemptsOf prior nodeId :=
    congrArg (fun r : Option NodeRecord => r.elim 0 (·.attempts)) hlookup
  refine h.hold (h.exclusive.others hholds) ?_ ?_ ?_ ?_ ?_ ?_
  · refine hledger.dispatch hallowed ?_ hretry rfl rfl
    simp only [LogEntry.Fresh, List.mem_cons, List.not_mem_nil] at hstate ⊢
    tauto
  · exact fun _ => ⟨_, rfl, by simp [hrunning]⟩
  · have honly : ∀ m, stateOf (row.progress.insert nodeId (dispatchRecord row.progress nodeId)) m =
        some .started → m = nodeId := by
      intro m hm
      by_contra hne
      rw [stateOf_insert, if_neg hne] at hm
      exact hidle m hm
    intro n hn
    obtain rfl := honly n hn
    exact ⟨⟨_, rfl, by simp [hrunning]⟩, fun _ => rfl, honly⟩
  · intro copy hcopy
    rw [hphase]
    exact hcopy
  · intro copy hk
    rw [hprogress] at hk
    exact hk.insert_of_state hwaiting fun hc => hstate (by simp [hc])
  · refine ⟨hnodup, fun m hm => (hcurrent m (List.mem_cons_of_mem _ hm)).insert ?_, fun _ => ?_⟩
    · rintro rfl
      exact (List.nodup_cons.mp hnodup).1 hm
    · refine ⟨dispatchRecord row.progress nodeId, AList.lookup_insert _, rfl, ?_⟩
      show attemptsOf row.progress nodeId + 1 = nodeAttempt prior nodeId
      rw [nodeAttempt, if_neg hnew, hattempts]

theorem Inv.outcome (h : Inv limits v) {prior : Progress} {nodeId : String} {rest : List String}
    {write : Write} (hphase : v.phase call = .returned prior nodeId rest write) :
    stateOf v.progress nodeId ≠ some .complete ∧
      (stateOf prior nodeId ≠ some .waiting → Dispatched v.progress prior nodeId) ∧
      (stateOf prior nodeId = some .waiting →
        Resumed v.progress v.reported prior nodeId write) := by
  have hwork := h.work call
  rw [hphase] at hwork
  obtain ⟨-, -, hdispatched, hresumed⟩ := hwork
  refine ⟨?_, hdispatched, hresumed⟩
  by_cases hwaiting : stateOf prior nodeId = some .waiting
  · have hr := hresumed hwaiting
    cases write with
    | suspend => exact hr.elim
    | allowRetry => exact hr.elim
    | complete outputDigest receiptIds =>
      obtain ⟨record, hprior, hlookup, -⟩ := hr
      rw [stateOf_of_lookup hprior] at hwaiting
      rw [stateOf_of_lookup hlookup, hwaiting]
      simp
  · obtain ⟨record, hlookup, hstarted, -⟩ := hdispatched hwaiting
    rw [stateOf_of_lookup hlookup, hstarted]
    simp

theorem Inv.write (h : Inv limits v) {prior : Progress} {nodeId : String} {rest : List String}
    {write : Write} {row : StackRun} {record : NodeRecord} (state : RunState)
    (hphase : v.phase call = .returned prior nodeId rest write) (hrow : v.row = some row)
    (hledger : Ledger limits log row.attempts (row.progress.insert nodeId record))
    (hrecord : record.state ≠ .started)
    (hbusy : phase.Holds → state = .waiting ∨ state = row.state)
    (hstate : phase.Holds → state ≠ .waiting)
    (hcopy : ∀ copy, phase.copy = some copy → copy = prior)
    (hkept : ∀ copy, Kept row.progress v.reported copy →
      Kept (row.progress.insert nodeId record) v.reported copy)
    (hwork : Work (row.progress.insert nodeId record) v.reported limits phase) :
    Inv limits ⟨some { row with state, progress := row.progress.insert nodeId record },
      Function.update v.phase call phase, v.reported, log⟩ := by
  have hholds : (v.phase call).Holds := by rw [hphase]; trivial
  have hprogress : v.progress = row.progress := by
    rw [View.progress, hrow]
    rfl
  refine h.hold (h.exclusive.others hholds) hledger ?_ ?_ ?_ ?_ hwork
  · intro hp
    obtain ⟨r, hr, hmem⟩ := h.exclusive.busy call hholds
    rw [hrow] at hr
    obtain rfl := Option.some.inj hr
    refine ⟨_, rfl, ?_⟩
    rw [(hbusy hp).resolve_left (hstate hp)]
    exact hmem
  · intro m hm
    replace hm : stateOf (row.progress.insert nodeId record) m = some .started := hm
    rw [stateOf_insert] at hm
    split at hm
    · exact absurd (Option.some.inj hm) hrecord
    · next hne =>
      rw [← hprogress] at hm
      have hown := h.exclusive.owned m hm call hholds
      rw [hphase] at hown
      exact absurd (Option.some.inj hown).symm hne
  · intro copy hc
    rw [hphase, hcopy copy hc]
    rfl
  · intro copy hk
    rw [hprogress] at hk
    exact hkept copy hk

theorem Inv.setAside (h : Inv limits v) {prior : Progress} {nodeId : String} {rest : List String}
    {write : Write} {row : StackRun} {state : RunState} {record : NodeRecord}
    (hphase : v.phase call = .returned prior nodeId rest write) (hrow : v.row = some row)
    (hwrite : ¬ Resumed v.progress v.reported prior nodeId write)
    (hrecord : record.state = .waiting ∨ record.state = .retryable)
    (hattempts : record.attempts = nodeAttempt prior nodeId)
    (hbusy : phase.Holds → state = .waiting ∨ state = row.state)
    (hstate : phase.Holds → state ≠ .waiting)
    (hend : phase.copy = none) (hwork : ∀ progress, Work progress v.reported limits phase) :
    Inv limits ⟨some { row with state, progress := row.progress.insert nodeId record },
      Function.update v.phase call phase, v.reported, v.log⟩ := by
  have hprogress : v.progress = row.progress := by
    rw [View.progress, hrow]
    rfl
  obtain ⟨hcomplete, hdispatched, hresumed⟩ := h.outcome hphase
  obtain ⟨previous, hlookup, hstarted, hprevious⟩ := hdispatched fun hw => hwrite (hresumed hw)
  have hledger := h.ledger
  rw [hrow, hprogress] at hledger
  rw [hprogress] at hcomplete hlookup
  refine h.write state hphase hrow ?_ ?_ hbusy hstate ?_ ?_ (hwork _)
  · refine hledger.rewrite hcomplete ?_ ?_
    · rcases hrecord with hr | hr <;> simp [hr]
    · rw [hattempts, attemptsOf_of_lookup hlookup, hprevious]
  · rcases hrecord with hr | hr <;> simp [hr]
  · intro copy hcopy
    rw [hend] at hcopy
    cases hcopy
  · refine fun copy hk => hk.insert_of_state ?_ hcomplete
    rw [stateOf_of_lookup hlookup, hstarted]
    simp

theorem Inv.complete (h : Inv limits v) {prior : Progress} {nodeId : String} {rest : List String}
    {outputDigest : String} {receiptIds : List String} {row : StackRun}
    {previous record : NodeRecord}
    (hphase : v.phase call = .returned prior nodeId rest (.complete outputDigest receiptIds))
    (hrow : v.row = some row) (hprevious : row.progress.lookup nodeId = some previous)
    (hstate : record.state = .complete) (hattempts : record.attempts = previous.attempts) :
    Inv limits ⟨some { row with progress := row.progress.insert nodeId record },
      Function.update v.phase call (.proceed prior rest), v.reported,
      .completed nodeId :: v.log⟩ := by
  have hprogress : v.progress = row.progress := by
    rw [View.progress, hrow]
    rfl
  obtain ⟨hcomplete, hdispatched, hresumed⟩ := h.outcome hphase
  have hledger := h.ledger
  have hwork := h.work call
  rw [hrow, hprogress] at hledger
  rw [hphase, hprogress] at hwork
  rw [hprogress] at hcomplete hdispatched hresumed
  obtain ⟨hnodup, hcurrent, -, -⟩ := hwork
  have hstay : row.state ≠ .waiting := by
    obtain ⟨r, hr, hmem⟩ := h.exclusive.busy call (by rw [hphase]; trivial)
    rw [hrow] at hr
    obtain rfl := Option.some.inj hr
    rintro heq
    simp [heq] at hmem
  refine h.write row.state hphase hrow ?_ (by simp [hstate]) (fun _ => .inr rfl)
    (fun _ => hstay) (fun copy hc => Phase.copy_proceed hc) ?_ ?_
  · refine hledger.complete hcomplete hstate ?_
    rw [hattempts, attemptsOf_of_lookup hprevious]
  · intro copy hk
    by_cases hwaiting : stateOf prior nodeId = some .waiting
    · obtain ⟨waiting, -, hlookup, hreported⟩ := hresumed hwaiting
      refine hk.insert fun r _ hserved => .inr ⟨?_, ?_⟩
      · rw [stateOf_insert, if_pos rfl, hstate]
      · rcases hserved with hr | ⟨hc, -⟩
        · rw [hlookup] at hr
          exact Option.some.inj hr ▸ hreported
        · exact absurd hc hcomplete
    · obtain ⟨started, hlookup, hstarted, -⟩ := hdispatched hwaiting
      refine hk.insert_of_state ?_ hcomplete
      rw [stateOf_of_lookup hlookup, hstarted]
      simp
  · refine work_proceed (List.nodup_cons.mp hnodup).2 fun m hm => (hcurrent m hm).insert ?_
    rintro rfl
    exact (List.nodup_cons.mp hnodup).1 hm

theorem Inv.close (h : Inv limits v) {state : RunState} (hphase : v.phase call = .closing state) :
    Inv limits ⟨v.row.map (·.setState state), Function.update v.phase call .stopped, v.reported,
      v.log⟩ := by
  have hattempts : (v.row.map (·.setState state)).elim 0 (·.attempts) =
      v.row.elim 0 (·.attempts) := by cases v.row <;> rfl
  have hprogress : (v.row.map (·.setState state)).elim ∅ (·.progress) = v.progress := by
    unfold View.progress
    cases v.row <;> rfl
  by_cases hstate : state = .uncertain
  · refine h.release id (List.Subset.refl _) hattempts hprogress ?_ (by intro prior hp; cases hp)
    rintro ⟨row, hrow, -⟩
    rw [Option.mem_def] at hrow
    exact ⟨_, by rw [hrow]; rfl, by simp [StackRun.setState, hstate]⟩
  · have hholds : (v.phase call).Holds := by rw [hphase]; exact hstate
    have hidle := h.none_started hholds (by rw [hphase]; rfl)
    refine h.hold (h.exclusive.others hholds) ?_ (fun hp => hp.elim) ?_
      (by intro prior hp; cases hp) ?_ trivial
    · rw [hattempts, hprogress]
      exact h.ledger
    · intro n hn
      rw [hprogress] at hn
      exact absurd hn (hidle n)
    · rw [hprogress]
      exact fun _ hk => hk

theorem Inv.reconcile (h : Inv limits v) {nodeId : String} {row : StackRun}
    {previous record : NodeRecord} (hrow : v.row = some row)
    (hprevious : row.progress.lookup nodeId = some previous) (hstarted : previous.state = .started)
    (hidle : ∀ call, (v.phase call).pending ≠ some nodeId) (hstate : record.state = .complete)
    (hattempts : record.attempts = previous.attempts) :
    Inv limits ⟨some { row with state := .paused, progress := row.progress.insert nodeId record },
      v.phase, v.reported, .completed nodeId :: v.log⟩ := by
  have hprogress : v.progress = row.progress := by
    rw [View.progress, hrow]
    rfl
  have hledger := h.ledger
  rw [hrow, hprogress] at hledger
  have hnode : stateOf row.progress nodeId = some .started := by
    rw [stateOf_of_lookup hprevious, hstarted]
  have hcomplete : stateOf row.progress nodeId ≠ some .complete := by simp [hnode]
  -- the started node is owned by a call that is at it, if any call holds the row
  have hnone : ∀ c, ¬ (v.phase c).Holds := fun c hc =>
    hidle c (h.exclusive.owned nodeId (hprogress ▸ hnode) c hc)
  rw [← Function.update_eq_self 0 v.phase]
  refine h.hold (fun c _ => hnone c)
    (hledger.complete hcomplete hstate (by rw [hattempts, attemptsOf_of_lookup hprevious]))
    (fun hp => absurd hp (hnone 0)) ?_ (fun _ hp => hp) ?_ (work_of_not_holds (hnone 0))
  · intro m hm
    replace hm : stateOf (row.progress.insert nodeId record) m = some .started := hm
    rw [stateOf_insert] at hm
    split at hm
    · rw [hstate] at hm
      cases hm
    · next hne =>
      rw [← hprogress] at hm hnode
      exact absurd (h.exclusive.single nodeId m hnode hm) hne
  · intro copy hk
    rw [hprogress] at hk
    exact hk.insert_of_state (by simp [hnode]) hcomplete

theorem Moves.inv {orderly : Prop} {v' : View} (hm : Moves orderly limits v v')
    (horderly : orderly) (h : Inv limits v) : Inv limits v' := by
  cases hm with
  | skip => exact h
  | report decisionId =>
    have hsub := List.subset_cons_self decisionId v.reported
    exact ⟨h.ledger, ⟨h.exclusive.alone, h.exclusive.busy, h.exclusive.started, h.exclusive.owned,
      h.exclusive.single⟩, fun c prior hp => (h.kept c prior hp).mono hsub,
      fun c => (h.work c).mono hsub⟩
  | stop call =>
    exact h.release id (List.Subset.refl _) rfl rfl id (by intro prior hp; cases hp)
  | check call inputDigest hidle =>
    refine h.release id (List.Subset.refl _) rfl rfl id ?_
    intro prior hprior
    obtain rfl := Option.some.inj hprior
    exact fun nodeId record hlookup => ⟨by simp [hlookup], fun _ => .inl hlookup⟩
  | first call prior inputDigest deadline steps hphase hrow hsteps =>
    have hprogress : v.progress = ∅ := by
      rw [View.progress, hrow]
      rfl
    refine h.open hphase ?_ rfl (by rw [hrow]; rfl) hprogress.symm hsteps ?_
    · rintro ⟨row, hmem, -⟩
      rw [hrow] at hmem
      cases hmem
    · intro nodeId record hlookup
      rw [hprogress] at hlookup
      cases hlookup
  | again call prior inputDigest row steps hphase hrow hstate hcurrent hsteps =>
    have hprogress : v.progress = row.progress := by
      rw [View.progress, hrow]
      rfl
    refine h.open hphase ?_ rfl (by rw [hrow]; rfl) hprogress.symm hsteps ?_
    · rintro ⟨r, hmem, hbusy⟩
      rw [hrow] at hmem
      obtain rfl := Option.some.inj hmem
      simp only [List.mem_cons, List.not_mem_nil, or_false] at hbusy hstate
      tauto
    · rw [hprogress]
      exact hcurrent horderly
  | refuse call prior nodeId rest hphase =>
    refine h.advance (by rw [hphase]; trivial) (List.Subset.refl _) ?_
      (by intro prior hp; cases hp) trivial
    intro _ n hn
    rw [hphase] at hn
    cases hn
  | dispatch call prior nodeId rest row hphase hnew hrow hrunning hallowed hstate hretry =>
    exact h.dispatch hphase hnew hrow hrunning hallowed hstate hretry
  | reenter call prior nodeId rest hphase hwaiting =>
    have hwork := h.work call
    rw [hphase] at hwork
    refine h.advance (by rw [hphase]; trivial) (List.Subset.refl _) ?_ ?_
      ⟨hwork.1, fun m hm => hwork.2 m (List.mem_cons_of_mem _ hm), fun hn => absurd hwaiting hn⟩
    · intro _ n hn
      rw [hphase] at hn
      cases hn
    · intro copy hcopy
      rw [hphase]
      exact hcopy
  | answer call prior nodeId rest write hphase hnew =>
    have hwork := h.work call
    rw [hphase] at hwork
    refine h.advance (by rw [hphase]; trivial) (List.Subset.refl _) ?_ ?_
      ⟨hwork.1, hwork.2.1, hwork.2.2, fun hw => absurd hw hnew⟩
    · intro _ n hn
      rwa [hphase] at hn
    · intro copy hcopy
      rw [hphase]
      exact hcopy
  | resume call prior nodeId rest decisionId outputDigest receiptIds hphase hdecision hnew =>
    have hwork := h.work call
    have hkept := h.kept call prior (by rw [hphase]; rfl)
    rw [hphase] at hwork
    refine h.advance (by rw [hphase]; trivial) (List.subset_cons_self _ _) ?_ ?_
      ⟨hwork.1, hwork.2.1, hwork.2.2, fun hwaiting => ?_⟩
    · intro _ n hn
      rwa [hphase] at hn
    · intro copy hcopy
      rw [hphase]
      exact hcopy
    · obtain ⟨record, hprior, hstate⟩ := stateOf_eq_some.mp hwaiting
      rw [hprior] at hdecision
      -- a decision that was not reported was not served
      have hlookup := ((hkept nodeId record hprior).2 hstate).resolve_right <| by
        rintro ⟨-, decision, hmem, hreported⟩
        obtain rfl := Option.some.inj (hmem.symm.trans hdecision)
        exact hnew hreported
      exact ⟨record, hprior, hlookup, decisionId, hdecision, List.mem_cons_self⟩
  | fail call nodeId reported hphase hreported =>
    exact h.advance (Phase.Holds.of_pending hphase) hreported (fun hp => absurd rfl hp)
      (by intro prior hp; cases hp) trivial
  | suspend call prior nodeId rest decisionId hash row record hphase hrow hstate hattempts =>
    exact h.setAside hphase hrow id (.inl hstate) hattempts (fun hp => hp.elim)
      (fun hp => hp.elim) rfl (fun _ => trivial)
  | allowRetry call prior nodeId rest failedReceipts row record hphase hrow hstate hattempts =>
    refine h.setAside hphase hrow id (.inr hstate) hattempts (fun _ => .inr rfl) (fun _ => ?_) rfl
      (fun _ => trivial)
    obtain ⟨r, hr, hmem⟩ := h.exclusive.busy call (by rw [hphase]; trivial)
    rw [hrow] at hr
    obtain rfl := Option.some.inj hr
    rintro heq
    simp [heq] at hmem
  | complete call prior nodeId rest digest receiptIds row previous record hphase hrow hprevious
      hstate hattempts =>
    exact h.complete hphase hrow hprevious hstate hattempts
  | close call state hphase => exact h.close hphase
  | reconcile nodeId row previous record hrow _ hprevious hstarted hidle hstate hattempts =>
    exact h.reconcile hrow hprevious hstarted (hidle horderly) hstate hattempts

end Steps

/-! ## Every run -/

/-- Nothing was started for a proposal. -/
def System.Initial (proposal : Proposal) (s : System) : Prop :=
  s.row proposal = none ∧ s.calls = ∅ ∧ s.log = []

theorem System.Initial.inv {proposal : Proposal} {s : System} {limits : StackLimits}
    (h : s.Initial proposal) : Inv limits (s.view proposal) := by
  obtain ⟨hrow, hcalls, hlog⟩ := h
  have hphase : ∀ call, (s.view proposal).phase call = .idle := by
    intro call
    show (AList.lookup call s.calls).getD .idle = .idle
    rw [hcalls]
    rfl
  have hprogress : (s.view proposal).progress = ∅ := by
    show (s.row proposal).elim ∅ (·.progress) = ∅
    rw [hrow]
    rfl
  have hholds : ∀ call, ¬ ((s.view proposal).phase call).Holds := fun call hc => by
    rw [hphase] at hc
    exact hc
  have hstarted : ∀ n, stateOf (s.view proposal).progress n ≠ some .started := by
    intro n
    rw [hprogress]
    simp
  refine ⟨?_, ⟨fun c _ hc => absurd hc (hholds c), fun c hc => absurd hc (hholds c),
    fun n hn => absurd hn (hstarted n), fun n hn => absurd hn (hstarted n),
    fun n _ hn => absurd hn (hstarted n)⟩, fun c prior hc => ?_,
    fun c => work_of_not_holds (hholds c)⟩
  · show Ledger limits s.log ((s.row proposal).elim 0 (·.attempts)) (s.view proposal).progress
    rw [hlog, hrow, hprogress]
    exact .empty
  · rw [hphase] at hc
    cases hc

/-- In a run whose claims are made with up-to-date copies and whose recoveries find the dispatch
abandoned, the limits are kept and no node is replayed. -/
theorem no_replay (runtime : StackRuntime) (proposal : Proposal) {s : System}
    (hinitial : s.Initial proposal) {events : List StackEvent}
    (horderly : Admissible (System.step runtime proposal) (Orderly proposal) s events) :
    Safe proposal.goal.limits (run (System.step runtime proposal) s events).log := by
  have hinv := @run_invariant_of_admissible _ _ (System.step runtime proposal) (Orderly proposal)
    (fun s => Inv proposal.goal.limits (s.view proposal))
    (fun _ event hs hevent => (step_moves event).inv hevent hs) s events hinitial.inv horderly
  exact hinv.ledger.safe

section Examples

def draftProposal : Proposal where
  proposalId := "stack_draft"
  parentId := none
  goal := {
    goalId := "draft"
    nodes := [{ nodeId := "a", capability := "text.draft@1" },
      { nodeId := "b", capability := "text.draft@1" }]
    deliverables := ["b"]
    limits := { maxAttempts := 8, retryReserve := 1 }
    proposeOnly := false }
  components := ["a", "b"].map fun nodeId => ⟨nodeId, "host", "f", "p", .read, true⟩
  edges := []

def draftRuntime : StackRuntime where
  registry _ := ⟨true, .read⟩
  accepts _ _ := true
  verifies _ _ := true
  outputDigest _ := "o"
  recoveryDigest _ := "r"
  actionId _ nodeId attempt := nodeId ++ toString attempt

def draftReceipt (receiptId actionId : String) : NodeReceipt :=
  ⟨receiptId, actionId, "d", "host", "f", .success, some true, some true, none⟩

/-- A node waits and is resumed; the call that dispatches the next one is lost, and recovered. -/
def recoveredCalls : List StackEvent := [
  .start 0 ⟨"i", [], []⟩ {}, .claim 0 0, .dispatch 0 1, .answer 0 (.waiting (some "d") "h"),
  .record 0,
  .start 1 ⟨"i", [], [("a", .null)]⟩ {}, .claim 1 2, .dispatch 1 3,
  .answer 1 (.success .null [draftReceipt "r1" "a1"]), .record 1, .dispatch 1 4, .crash 1,
  .reconcile ⟨"rec", "stack_draft", "b", "o", ["r2"]⟩ .null
    { reviewed := ["r"], receipts := [draftReceipt "r2" "b1"] }]

theorem no_replay_recovered :
    (run (System.step draftRuntime draftProposal) { runs := ∅ } recoveredCalls).log =
        [.completed "b", .dispatched "b" none, .completed "a", .dispatched "a" none] ∧
      Safe draftProposal.goal.limits
        (run (System.step draftRuntime draftProposal) { runs := ∅ } recoveredCalls).log :=
  ⟨by decide +kernel,
    no_replay draftRuntime draftProposal ⟨rfl, rfl, rfl⟩ (by decide +kernel)⟩

/-- Three calls read the progress before the first of them claims the row. -/
def staleCalls : List StackEvent := [
  .start 0 ⟨"i", [], []⟩ {}, .start 1 ⟨"i", [], []⟩ {}, .start 2 ⟨"i", [], []⟩ {},
  .claim 0 0, .dispatch 0 1, .answer 0 (.waiting (some "d0") "h"), .record 0,
  .claim 1 2, .dispatch 1 3, .answer 1 (.waiting (some "d1") "h"), .record 1,
  .claim 2 4, .dispatch 2 5]

/-- The waiting node is dispatched twice more: each call counts from the copy it read, and forgets
the attempts of the others. -/
theorem stale_copy_replayed :
    ¬ ∀ (runtime : StackRuntime) (proposal : Proposal) (s : System), s.Initial proposal →
      ∀ events, Safe proposal.goal.limits (run (System.step runtime proposal) s events).log := by
  intro h
  have hsafe := h draftRuntime draftProposal { runs := ∅ } ⟨rfl, rfl, rfl⟩ staleCalls
  have hlog : (run (System.step draftRuntime draftProposal) { runs := ∅ } staleCalls).log =
      [.dispatched "a" (some .waiting), .dispatched "a" (some .waiting), .dispatched "a" none] := by
    decide +kernel
  rw [hlog] at hsafe
  have hretries := hsafe.retries "a"
  revert hretries
  decide

end Examples

end AeepRouter.Stack

import AeepRouter.Workflow.Execution

/-!
# What a wave leaves

`Tracks members made p` says that the progress of a workflow accounts for the calls made: it has
their receipts, and every step that was invoked has its output or has failed. A merge keeps it if
the wave is `Orderly`; the two paths ask for different things (`Wave.Orderly`), for the offline one
drops whatever comes after the first step that raises, waits or fails.
-/

namespace AeepRouter.Workflow

open Lib Stack

/-! ## Calls in order -/

/-- The call hands over the receipts of its own invocations, and a call that raises has none. -/
def StepCall.Reports (call : StepCall) : Prop :=
  match call.result with
  | .returned outcome => outcome.receipts = call.made
  | .raised _ => call.made = []

instance (call : StepCall) : Decidable call.Reports := by
  unfold StepCall.Reports
  split <;> infer_instance

def StepCall.waits (call : StepCall) : Bool :=
  match call.result with
  | .returned outcome => outcome.waits
  | .raised _ => false

/-- The call ends an offline wave. -/
def StepCall.stops (call : StepCall) : Bool :=
  match call.result with
  | .returned outcome => outcome.waits || !outcome.ok
  | .raised _ => true

/-- A wave none of whose calls is lost: every call reports its receipts; offline, nothing is invoked
after a member that raises, waits or fails; on the economic path, one member waits at most. -/
structure Wave.Orderly (wave : Wave) : Prop where
  reports : ∀ m ∈ wave.members, m.call.Reports
  offline : wave.economic = false →
    wave.members.Pairwise fun a b => a.call.stops → ¬ b.call.invoked
  economic : wave.economic = true →
    wave.members.Pairwise fun a b => ¬ (a.call.waits ∧ b.call.waits)

instance (wave : Wave) : Decidable wave.Orderly :=
  decidable_of_iff (_ ∧ _ ∧ _) ⟨fun ⟨h1, h2, h3⟩ => ⟨h1, h2, h3⟩, fun h => ⟨h.1, h.2, h.3⟩⟩

def madeOf (members : List Member) : List Receipt := members.flatMap (·.call.made)

def Once (members : List Member) : Prop :=
  members.Pairwise fun a b =>
    a.stepId = b.stepId → a.call.invoked → b.call.invoked → a.call.failed

instance (members : List Member) : Decidable (Once members) := by unfold Once; infer_instance

structure Tracks (members : List Member) (made : List Receipt) (p : Progress) : Prop where
  receipts : p.receipts = made
  once : Once members
  done : ∀ m ∈ members, m.call.invoked → m.stepId ∈ p.outputs ∨ m.call.failed

/-- What a merge leaves accounts for the calls made, the step it waits for apart. -/
def Merged.Tracks (members : List Member) (made : List Receipt) : Merged → Prop
  | .proceed p => Workflow.Tracks members made p
  | .halt p verdict => p.receipts = made ∧ Once members ∧ verdict ≠ .success ∧
    ∀ stepId decisionId, verdict = .waiting stepId decisionId → ∀ m ∈ members, m.call.invoked →
      m.stepId ∈ p.outputs ∨ m.stepId = stepId ∨ m.call.failed

/-- The members of a wave are different steps that are still to be done. -/
structure Pending (p : Progress) (members : List Member) : Prop where
  distinct : (members.map (·.stepId)).Nodup
  fresh : ∀ m ∈ members, m.stepId ∉ p.outputs

section Merge

variable {members wave : List Member} {made : List Receipt} {p : Progress}

/-- Pending steps have not been invoked, or have failed. -/
theorem Tracks.once_append (h : Tracks members made p) (hwave : Pending p wave) :
    Once (members ++ wave) := by
  refine List.pairwise_append.mpr ⟨h.once, ?_, fun a ha b hb hid hinvoked _ => ?_⟩
  · exact (List.pairwise_map.mp hwave.distinct).imp fun hne hid => absurd hid hne
  · exact (h.done a ha hinvoked).resolve_left fun hmem => hwave.fresh b hb (hid ▸ hmem)

theorem made_eq_nil {call : StepCall} (h : ¬ call.invoked) : call.made = [] :=
  not_not.mp fun hne => h (call.made_invoked hne)

theorem madeOf_eq_nil (h : ∀ m ∈ members, ¬ m.call.invoked) : madeOf members = [] :=
  List.flatMap_eq_nil_iff.mpr fun m hm => made_eq_nil (h m hm)

/-- The first member of an offline wave that stops it, after the outputs of those before it. -/
theorem mergeOffline_tracks (hreports : ∀ m ∈ wave, m.call.Reports)
    (horder : wave.Pairwise fun a b => a.call.stops → ¬ b.call.invoked) :
    match mergeOffline p wave with
    | .proceed p' => p'.receipts = p.receipts ++ madeOf wave ∧
      (∀ stepId ∈ p.outputs, stepId ∈ p'.outputs) ∧ ∀ m ∈ wave, m.stepId ∈ p'.outputs
    | .halt p' verdict => p'.receipts = p.receipts ++ madeOf wave ∧
      (∀ stepId ∈ p.outputs, stepId ∈ p'.outputs) ∧ verdict ≠ .success ∧
      ∀ stepId decisionId, verdict = .waiting stepId decisionId → ∀ m ∈ wave, m.call.invoked →
        m.stepId ∈ p'.outputs ∨ m.stepId = stepId := by
  induction wave generalizing p with
  | nil => simp [mergeOffline, madeOf]
  | cons m rest ih =>
    rw [List.pairwise_cons] at horder
    rw [List.forall_mem_cons] at hreports
    obtain ⟨hm, hrest⟩ := hreports
    obtain ⟨hafter, horder⟩ := horder
    have hmade : madeOf (m :: rest) = m.call.made ++ madeOf rest := rfl
    have hlast : m.call.stops → madeOf (m :: rest) = m.call.made := by
      intro hstops
      rw [hmade, madeOf_eq_nil fun b hb => hafter b hb hstops, List.append_nil]
    unfold mergeOffline
    cases hresult : m.call.result with
    | raised type =>
      have hstops : m.call.stops := by simp [StepCall.stops, hresult]
      have hnone : m.call.made = [] := by simpa [StepCall.Reports, hresult] using hm
      simp [hlast hstops, hnone]
    | returned outcome =>
      have hown : outcome.receipts = m.call.made := by simpa [StepCall.Reports, hresult] using hm
      by_cases hwaits : outcome.waits
      · have hstops : m.call.stops := by simp [StepCall.stops, hresult, hwaits]
        simp only [hwaits, if_true, hown, hlast hstops]
        refine ⟨trivial, fun _ h => h, nofun, fun stepId decisionId heq b hb hinvoked => ?_⟩
        obtain ⟨rfl, -⟩ := Verdict.waiting.inj heq
        rcases List.mem_cons.mp hb with rfl | hb
        · exact .inr rfl
        · exact absurd hinvoked (hafter b hb hstops)
      · by_cases hok : outcome.ok
        · simp only [hwaits, hok, Bool.false_eq_true, if_false, not_true_eq_false]
          have hrec := ih (p := ⟨p.outputs.insert m.stepId outcome.output,
            p.receipts ++ outcome.receipts⟩) hrest horder
          have hkeep : ∀ {outputs : Outputs}, (∀ stepId ∈ p.outputs.insert m.stepId outcome.output,
              stepId ∈ outputs) → ∀ stepId ∈ p.outputs, stepId ∈ outputs :=
            fun h stepId hmem => h stepId ((AList.mem_insert _).mpr (.inr hmem))
          have hself : ∀ {outputs : Outputs}, (∀ stepId ∈ p.outputs.insert m.stepId outcome.output,
              stepId ∈ outputs) → m.stepId ∈ outputs :=
            fun h => h m.stepId ((AList.mem_insert _).mpr (.inl rfl))
          rw [hmade, ← List.append_assoc, ← hown]
          split
          · next p' heq =>
            rw [heq] at hrec
            obtain ⟨hreceipts, houtputs, hall⟩ := hrec
            refine ⟨hreceipts, hkeep houtputs, fun b hb => ?_⟩
            rcases List.mem_cons.mp hb with rfl | hb
            · exact hself houtputs
            · exact hall b hb
          · next p' verdict heq =>
            rw [heq] at hrec
            obtain ⟨hreceipts, houtputs, hverdict, hwaiting⟩ := hrec
            refine ⟨hreceipts, hkeep houtputs, hverdict, fun stepId decisionId heq b hb hinvoked => ?_⟩
            rcases List.mem_cons.mp hb with rfl | hb
            · exact .inl (hself houtputs)
            · exact hwaiting stepId decisionId heq b hb hinvoked
        · have hstops : m.call.stops := by simp [StepCall.stops, hresult, hok]
          simp [hwaits, hok, hown, hlast hstops]

/-! ## The economic merge -/

theorem StepCall.waits_or_failed {call : StepCall} {outcome : ExecutionOutcome}
    (h : call.result = .returned outcome) (hstops : call.stops) : call.waits ∨ call.failed := by
  simp only [stops, h, waits, failed] at hstops ⊢
  cases hwaits : outcome.waits
  · simpa [hwaits] using hstops
  · exact .inl rfl

/-- The outputs of an economic wave: those before it, and those of its valid members. -/
theorem sortOut_outputs (outputs : Outputs) (waiting : Option (String × String))
    (invalid : Option String) (members : List Member) :
    (∀ stepId ∈ outputs, stepId ∈ (sortOut outputs waiting invalid members).1) ∧
    ∀ m ∈ members, ¬ m.call.stops → m.stepId ∈ (sortOut outputs waiting invalid members).1 := by
  induction members generalizing outputs waiting invalid with
  | nil => exact ⟨fun _ h => h, nofun⟩
  | cons m rest ih =>
    rw [List.forall_mem_cons]
    unfold sortOut
    cases hresult : m.call.result with
    | raised type =>
      obtain ⟨hkeep, hrest⟩ := ih outputs waiting invalid
      exact ⟨hkeep, fun hgo => absurd (by simp [StepCall.stops, hresult]) hgo, hrest⟩
    | returned outcome =>
      by_cases hwaits : outcome.waits
      · obtain ⟨hkeep, hrest⟩ := ih outputs (some (m.stepId, outcome.decisionId)) invalid
        simp only [hwaits, if_true]
        exact ⟨hkeep, fun hgo => absurd (by simp [StepCall.stops, hresult, hwaits]) hgo, hrest⟩
      · by_cases hok : outcome.ok
        · obtain ⟨hkeep, hrest⟩ := ih (outputs.insert m.stepId outcome.output) waiting invalid
          simp only [hwaits, hok, Bool.false_eq_true, if_false, not_true_eq_false]
          exact ⟨fun stepId h => hkeep stepId ((AList.mem_insert _).mpr (.inr h)),
            fun _ => hkeep _ ((AList.mem_insert _).mpr (.inl rfl)), hrest⟩
        · obtain ⟨hkeep, hrest⟩ := ih outputs waiting (some m.stepId)
          simp only [hwaits, hok, Bool.false_eq_true, if_false, not_false_eq_true, if_true]
          exact ⟨hkeep, fun hgo => absurd (by simp [StepCall.stops, hresult, hok]) hgo, hrest⟩

theorem sortOut_waiting_of_none {members : List Member} (h : ∀ m ∈ members, ¬ m.call.waits)
    (outputs : Outputs) (waiting : Option (String × String)) (invalid : Option String) :
    (sortOut outputs waiting invalid members).2.1 = waiting := by
  induction members generalizing outputs waiting invalid with
  | nil => rfl
  | cons m rest ih =>
    rw [List.forall_mem_cons] at h
    unfold sortOut
    cases hresult : m.call.result with
    | raised type => exact ih h.2 _ _ _
    | returned outcome =>
      have hwaits : ¬ outcome.waits := by simpa [StepCall.waits, hresult] using h.1
      simp only [hwaits, Bool.false_eq_true, if_false]
      split <;> exact ih h.2 _ _ _

theorem sortOut_waiting {members : List Member}
    (h : members.Pairwise fun a b => ¬ (a.call.waits ∧ b.call.waits)) (outputs : Outputs)
    (invalid : Option String) : ∀ m ∈ members, m.call.waits →
      ((sortOut outputs none invalid members).2.1).map (·.1) = some m.stepId := by
  induction members generalizing outputs invalid with
  | nil => nofun
  | cons m rest ih =>
    rw [List.pairwise_cons] at h
    obtain ⟨hfirst, hrest⟩ := h
    rw [List.forall_mem_cons]
    unfold sortOut
    cases hresult : m.call.result with
    | raised type => exact ⟨by simp [StepCall.waits, hresult], ih hrest _ _⟩
    | returned outcome =>
      by_cases hwaits : outcome.waits
      · have hm : m.call.waits := by simp [StepCall.waits, hresult, hwaits]
        have hnone : ∀ b ∈ rest, ¬ b.call.waits := fun b hb hw => hfirst b hb ⟨hm, hw⟩
        simp only [hwaits, if_true]
        rw [sortOut_waiting_of_none hnone]
        exact ⟨fun _ => rfl, fun b hb hw => absurd hw (hnone b hb)⟩
      · simp only [hwaits, Bool.false_eq_true, if_false]
        have hm : m.call.waits → False := by simp [StepCall.waits, hresult, hwaits]
        split <;> exact ⟨fun hw => (hm hw).elim, ih hrest _ _⟩

theorem sortOut_invalid (outputs : Outputs) (waiting : Option (String × String))
    (invalid : Option String) (members : List Member) :
    (sortOut outputs waiting invalid members).2.2 = none →
      invalid = none ∧ ∀ m ∈ members, ¬ m.call.failed := by
  induction members generalizing outputs waiting invalid with
  | nil => exact fun h => ⟨h, nofun⟩
  | cons m rest ih =>
    intro h
    rw [List.forall_mem_cons]
    unfold sortOut at h
    cases hresult : m.call.result with
    | raised type =>
      rw [hresult] at h
      obtain ⟨hinvalid, hrest⟩ := ih _ _ _ h
      exact ⟨hinvalid, by simp [StepCall.failed, hresult], hrest⟩
    | returned outcome =>
      simp only [hresult] at h
      split at h
      · next hwaits =>
        obtain ⟨hinvalid, hrest⟩ := ih _ _ _ h
        exact ⟨hinvalid, by simp [StepCall.failed, hresult, hwaits], hrest⟩
      · split at h
        · obtain ⟨hinvalid, -⟩ := ih _ _ _ h
          cases hinvalid
        · next hok =>
          obtain ⟨hinvalid, hrest⟩ := ih _ _ _ h
          rw [not_not] at hok
          exact ⟨hinvalid, by simp [StepCall.failed, hresult, hok], hrest⟩

theorem returnedReceipts_eq (hreports : ∀ m ∈ wave, m.call.Reports) :
    returnedReceipts wave = madeOf wave := by
  refine List.flatMap_congr fun m hm => ?_
  have hm := hreports m hm
  unfold StepCall.Reports at hm
  cases hresult : m.call.result with
  | returned outcome =>
    rw [hresult] at hm
    exact hm
  | raised type =>
    rw [hresult] at hm
    exact hm.symm

theorem exists_returned (h : firstRaised wave = none) {m : Member} (hm : m ∈ wave) :
    ∃ outcome, m.call.result = .returned outcome := by
  have := List.findSome?_eq_none_iff.mp h m hm
  cases hresult : m.call.result with
  | returned outcome => exact ⟨outcome, rfl⟩
  | raised type =>
    rw [hresult] at this
    cases this

/-! ## The merge of a wave -/

theorem Tracks.merge {wave : Wave} (h : Tracks members made p) (hwave : Pending p wave.members)
    (horder : wave.Orderly) :
    (wave.merge p).Tracks (members ++ wave.members) (made ++ madeOf wave.members) := by
  have honce := h.once_append hwave
  -- what was done before stays done when no output is dropped
  have hold : ∀ {outputs : Outputs}, (∀ stepId ∈ p.outputs, stepId ∈ outputs) → ∀ m ∈ members,
      m.call.invoked → m.stepId ∈ outputs ∨ m.call.failed :=
    fun hkeep m hm hinvoked => (h.done m hm hinvoked).imp_left (hkeep m.stepId)
  unfold Wave.merge
  split
  · next heconomic =>
    have hpair := horder.economic heconomic
    have hreceipts : p.receipts ++ returnedReceipts wave.members =
        made ++ madeOf wave.members := by
      rw [h.receipts, returnedReceipts_eq horder.reports]
    unfold mergeEconomic
    cases hraised : firstRaised wave.members with
    | some first => exact ⟨hreceipts, honce, nofun, nofun⟩
    | none =>
      obtain ⟨hkeep, hvalid⟩ := sortOut_outputs p.outputs none none wave.members
      have hwaits := sortOut_waiting hpair p.outputs none
      have hfailed := sortOut_invalid p.outputs none none wave.members
      have hnew : ∀ m ∈ wave.members, m.stepId ∈ (sortOut p.outputs none none wave.members).1 ∨
          m.call.waits ∨ m.call.failed := by
        intro m hm
        obtain ⟨outcome, hresult⟩ := exists_returned hraised hm
        by_cases hstops : m.call.stops
        · exact .inr (StepCall.waits_or_failed hresult hstops)
        · exact .inl (hvalid m hm hstops)
      simp only
      generalize sortOut p.outputs none none wave.members = sorted at *
      obtain ⟨outputs, waiting, invalid⟩ := sorted
      cases waiting with
      | some step =>
        refine ⟨hreceipts, honce, nofun, fun stepId decisionId heq m hm hinvoked => ?_⟩
        obtain ⟨rfl, -⟩ := Verdict.waiting.inj heq
        rcases List.mem_append.mp hm with hm | hm
        · exact (hold hkeep m hm hinvoked).imp_right .inr
        · rcases hnew m hm with hout | hw | hf
          · exact .inl hout
          · exact .inr (.inl (Option.some.inj (hwaits m hm hw)).symm)
          · exact .inr (.inr hf)
      | none =>
        cases invalid with
        | some stepId => exact ⟨hreceipts, honce, nofun, nofun⟩
        | none =>
          refine ⟨hreceipts, honce, fun m hm hinvoked => ?_⟩
          rcases List.mem_append.mp hm with hm | hm
          · exact hold hkeep m hm hinvoked
          · rcases hnew m hm with hout | hw | hf
            · exact .inl hout
            · cases hwaits m hm hw
            · exact .inr hf
  · next hoffline =>
    have hmerge := mergeOffline_tracks (p := p) horder.reports
      (horder.offline (by simpa using hoffline))
    rw [h.receipts] at hmerge
    cases hresult : mergeOffline p wave.members with
    | proceed p' =>
      rw [hresult] at hmerge
      obtain ⟨hreceipts, hkeep, hall⟩ := hmerge
      refine ⟨hreceipts, honce, fun m hm hinvoked => ?_⟩
      rcases List.mem_append.mp hm with hm | hm
      · exact hold hkeep m hm hinvoked
      · exact .inl (hall m hm)
    | halt p' verdict =>
      rw [hresult] at hmerge
      obtain ⟨hreceipts, hkeep, hverdict, hwaiting⟩ := hmerge
      refine ⟨hreceipts, honce, hverdict, fun stepId decisionId heq m hm hinvoked => ?_⟩
      rcases List.mem_append.mp hm with hm | hm
      · exact (hold hkeep m hm hinvoked).imp_right .inr
      · exact (hwaiting stepId decisionId heq m hm hinvoked).imp_right .inl

end Merge

end AeepRouter.Workflow

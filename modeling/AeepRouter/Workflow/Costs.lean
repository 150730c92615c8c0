import AeepRouter.Workflow.Budget

/-!
# What a wave costs

`cashOf cash receipts` is the actual cash behind some receipts, components of a summary aside. A
progress is `Held` if it accounts for what was spent, within the budget: a wave whose bounds fit
into what is left keeps it so, or ends with a step that waits and can still be afforded
(`Suspends`). Offline, what is dropped after that step must have been free (`Funding.Frugal`).
-/

namespace AeepRouter.Workflow

open Lib Stack Decimal

/-! ## Cash -/

section Cash

variable {cash : Receipt → ℚ} {receipts part : List Receipt}

/-- The actual cash behind some receipts, each counted once. -/
def cashOf (cash : Receipt → ℚ) (receipts : List Receipt) : ℚ :=
  ((independentReceipts receipts).map cash).sum

theorem mem_independentReceipts (h : (receipts.map (·.receiptId)).Nodup) {r : Receipt} :
    r ∈ independentReceipts receipts ↔ r ∈ receipts ∧ ∀ other ∈ receipts,
      r.receiptId ∈ other.componentReceiptIds → r.receiptId = other.receiptId := by
  rw [independentReceipts_of_nodup h, List.mem_filter]
  simp only [decide_eq_true_eq, List.mem_flatMap, List.mem_filter, not_exists, not_and,
    not_not]

/-- A receipt nothing summarizes is not summarized by less. -/
theorem mem_independentReceipts_of_subset (h : (receipts.map (·.receiptId)).Nodup)
    (hpart : (part.map (·.receiptId)).Nodup) (hsub : part ⊆ receipts) {r : Receipt}
    (hr : r ∈ independentReceipts receipts) (hmem : r ∈ part) : r ∈ independentReceipts part := by
  rw [mem_independentReceipts h] at hr
  exact (mem_independentReceipts hpart).mpr ⟨hmem, fun other hother => hr.2 other (hsub hother)⟩

theorem cashOf_nonneg (hcash : ∀ r, 0 ≤ cash r) : 0 ≤ cashOf cash receipts :=
  List.sum_nonneg fun x hx => by
    obtain ⟨r, -, rfl⟩ := List.mem_map.mp hx
    exact hcash r

theorem sum_cashOf (parts : List (List Receipt)) :
    (parts.map (cashOf cash)).sum = ((parts.flatMap independentReceipts).map cash).sum := by
  induction parts with
  | nil => rfl
  | cons part parts ih => simp [cashOf, ih]

/-- What costs something. -/
theorem cashOf_eq_filter : cashOf cash receipts =
    (((independentReceipts receipts).filter (cash · ≠ 0)).map cash).sum := by
  unfold cashOf
  induction independentReceipts receipts with
  | nil => rfl
  | cons r rest ih =>
    by_cases hr : cash r = 0
    · simpa [hr] using ih
    · simpa [hr] using ih

theorem cashOf_le (hcash : ∀ r, 0 ≤ cash r) (h : (receipts.map (·.receiptId)).Nodup)
    (parts : List (List Receipt))
    (hparts : ∀ part ∈ parts, (part.map (·.receiptId)).Nodup ∧ part ⊆ receipts)
    (hall : ∀ r ∈ independentReceipts receipts, cash r = 0 ∨ ∃ part ∈ parts, r ∈ part) :
    cashOf cash receipts ≤ (parts.map (cashOf cash)).sum := by
  have hnodup : ((independentReceipts receipts).filter (cash · ≠ 0)).Nodup := by
    rw [independentReceipts_of_nodup h]
    exact (h.of_map.filter _).filter _
  have hsub : (independentReceipts receipts).filter (cash · ≠ 0) ⊆
      parts.flatMap independentReceipts := by
    intro r hr
    obtain ⟨hr, hne⟩ := List.mem_filter.mp hr
    obtain ⟨part, hpart, hmem⟩ := (hall r hr).resolve_left (by simpa using hne)
    exact List.mem_flatMap.mpr ⟨part, hpart, mem_independentReceipts_of_subset h
      (hparts part hpart).1 (hparts part hpart).2 hr hmem⟩
  obtain ⟨l, hperm, hsublist⟩ := List.subperm_of_subset hnodup hsub
  rw [cashOf_eq_filter, sum_cashOf, ← (hperm.map cash).sum_eq]
  refine (hsublist.map cash).sum_le_sum fun x hx => ?_
  obtain ⟨r, -, rfl⟩ := List.mem_map.mp hx
  exact hcash r

end Cash

/-! ## Merges -/

def StepCall.HandsOver (call : StepCall) : Prop :=
  match call.result with
  | .returned outcome => outcome.receipts = call.made
  | .raised _ => True

instance : DecidablePred StepCall.HandsOver
  | ⟨_, made, .returned outcome, _⟩ => inferInstanceAs (Decidable (outcome.receipts = made))
  | ⟨_, _, .raised _, _⟩ => inferInstanceAs (Decidable True)

section Merges

variable {p : Progress} {members : List Member}

/-- What a merge keeps: all receipts if the workflow goes on; if it waits for a step, those up to
it, and those after it on the economic path. -/
def Merged.Keeps (economic : Bool) (p : Progress) (members : List Member) : Merged → Prop
  | .proceed p' => p'.receipts = p.receipts ++ madeOf members
  | .halt p' verdict => ∀ stepId decisionId, verdict = .waiting stepId decisionId →
    ∃ before m after kept, members = before ++ m :: after ∧ m.stepId = stepId ∧ m.call.waits ∧
      (kept = after ∨ economic = false ∧ kept = []) ∧
      p'.receipts = p.receipts ++ madeOf (before ++ m :: kept)

theorem mergeOffline_keeps (h : ∀ m ∈ members, m.call.HandsOver) :
    (mergeOffline p members).Keeps false p members := by
  induction members generalizing p with
  | nil => exact (List.append_nil _).symm
  | cons m rest ih =>
    rw [List.forall_mem_cons] at h
    obtain ⟨hm, hrest⟩ := h
    unfold mergeOffline
    cases hresult : m.call.result with
    | raised type =>
      intro stepId decisionId heq
      cases heq
    | returned outcome =>
      have hown : outcome.receipts = m.call.made := by simpa [StepCall.HandsOver, hresult] using hm
      simp only
      split_ifs with hwaits hok
      · intro stepId decisionId heq
        obtain ⟨rfl, -⟩ := Verdict.waiting.inj heq
        refine ⟨[], m, rest, [], rfl, rfl, ?_, .inr ⟨rfl, rfl⟩, ?_⟩
        · simpa [StepCall.waits, hresult] using hwaits
        · simp [madeOf, hown]
      · have hrec := ih (p := ⟨p.outputs.insert m.stepId outcome.output,
          p.receipts ++ outcome.receipts⟩) hrest
        cases hmerge : mergeOffline ⟨p.outputs.insert m.stepId outcome.output,
            p.receipts ++ outcome.receipts⟩ rest with
        | proceed p' =>
          rw [hmerge] at hrec
          have hrec : p'.receipts = p.receipts ++ outcome.receipts ++ madeOf rest := hrec
          show p'.receipts = p.receipts ++ madeOf (m :: rest)
          rw [hrec, hown, List.append_assoc]
          rfl
        | halt p' verdict =>
          rw [hmerge] at hrec
          intro stepId decisionId heq
          obtain ⟨before, w, after, kept, rfl, hid, hw, hkept, hreceipts⟩ :=
            hrec stepId decisionId heq
          refine ⟨m :: before, w, after, kept, rfl, hid, hw, hkept, ?_⟩
          rw [hreceipts, hown, List.append_assoc]
          rfl
      · intro stepId decisionId heq
        cases heq

theorem sortOut_waiting_mem (outputs : Outputs) (waiting : Option (String × String))
    (invalid : Option String) (members : List Member) {stepId decisionId : String}
    (h : (sortOut outputs waiting invalid members).2.1 = some (stepId, decisionId)) :
    waiting = some (stepId, decisionId) ∨ ∃ m ∈ members, m.stepId = stepId ∧ m.call.waits := by
  induction members generalizing outputs waiting invalid with
  | nil => exact .inl h
  | cons m rest ih =>
    have hlater : (∃ m ∈ rest, m.stepId = stepId ∧ m.call.waits) →
        ∃ b ∈ m :: rest, b.stepId = stepId ∧ b.call.waits :=
      fun ⟨b, hb, hw⟩ => ⟨b, List.mem_cons_of_mem _ hb, hw⟩
    unfold sortOut at h
    cases hresult : m.call.result with
    | raised type =>
      rw [hresult] at h
      exact (ih _ _ _ h).imp_right hlater
    | returned outcome =>
      simp only [hresult] at h
      split_ifs at h with hwaits hok
      · rcases ih _ _ _ h with heq | hrest
        · obtain ⟨rfl, -⟩ := Prod.mk.inj (Option.some.inj heq)
          exact .inr ⟨m, List.mem_cons_self, rfl, by simpa [StepCall.waits, hresult] using hwaits⟩
        · exact .inr (hlater hrest)
      · exact (ih _ _ _ h).imp_right hlater
      · exact (ih _ _ _ h).imp_right hlater

theorem mergeEconomic_keeps (h : ∀ m ∈ members, m.call.HandsOver) :
    (mergeEconomic p members).Keeps true p members := by
  unfold mergeEconomic
  cases hraised : firstRaised members with
  | some first => nofun
  | none =>
    have hreceipts : returnedReceipts members = madeOf members := by
      refine List.flatMap_congr fun m hm => ?_
      obtain ⟨outcome, hresult⟩ := exists_returned hraised hm
      simpa [StepCall.HandsOver, hresult] using h m hm
    have hwaiting (stepId decisionId : String) :=
      @sortOut_waiting_mem p.outputs none none members stepId decisionId
    simp only [hreceipts]
    generalize sortOut p.outputs none none members = sorted at *
    obtain ⟨outputs, waiting, invalid⟩ := sorted
    cases waiting with
    | some step =>
      intro stepId decisionId heq
      obtain ⟨rfl, rfl⟩ := Verdict.waiting.inj heq
      obtain ⟨m, hm, hid, hw⟩ := (hwaiting _ _ rfl).resolve_left nofun
      obtain ⟨before, after, rfl⟩ := List.append_of_mem hm
      exact ⟨before, m, after, after, rfl, hid, hw, .inl rfl, rfl⟩
    | none =>
      cases invalid with
      | some stepId => nofun
      | none => rfl

theorem Wave.merge_keeps (p : Progress) {wave : Wave} (h : ∀ m ∈ wave.members, m.call.HandsOver) :
    (wave.merge p).Keeps wave.economic p wave.members := by
  obtain ⟨economic, members⟩ := wave
  cases economic with
  | true => exact mergeEconomic_keeps h
  | false => exact mergeOffline_keeps h

end Merges

/-! ## What a wave costs -/

section Costs

variable {cash : Receipt → ℚ} {budget : ℚ} {made : List Receipt} {p : Progress}
  {executed : List Executed}

/-- A progress that accounts for what was spent, within the budget: a receipt it does not hold was
free. -/
structure Held (cash : Receipt → ℚ) (budget : ℚ) (made : List Receipt) (p : Progress) : Prop where
  sublist : p.receipts.Sublist made
  free : ∀ r ∈ independentReceipts made, r ∈ p.receipts ∨ cash r = 0
  within : cashOf cash p.receipts ≤ budget

/-- The workflow waits for a step it started last, whose whole bound it can still afford. -/
def Suspends (cash : Receipt → ℚ) (budget : ℚ) (made : List Receipt) (executed : List Executed)
    (o : WorkflowOutcome) : Prop :=
  ∃ newer w older rest, executed = newer ++ w :: older ∧
    o.waitingStepId = some w.member.stepId ∧
    (∀ x ∈ newer, x.member.stepId ≠ w.member.stepId) ∧ w.terminal = none ∧
    o.receipts.Perm (rest ++ w.member.call.made) ∧ cashOf cash rest + w.bound ≤ budget ∧
    o.receipts.Sublist made ∧ ∀ r ∈ independentReceipts made, r ∈ o.receipts ∨ cash r = 0

theorem madeOf_map (executed : List Executed) :
    madeOf (executed.map (·.member)) = executed.flatMap (·.member.call.made) := by
  rw [madeOf, List.flatMap_map]

theorem nodup_of_sublist {part receipts : List Receipt} (hsub : part.Sublist receipts)
    (h : (receipts.map (·.receiptId)).Nodup) : (part.map (·.receiptId)).Nodup :=
  (hsub.map _).nodup h

theorem eq_zero_of_cashOf_le (hcash : ∀ r, 0 ≤ cash r) (h : cashOf cash made ≤ 0) {r : Receipt}
    (hr : r ∈ independentReceipts made) : cash r = 0 := by
  refine le_antisymm (le_trans ?_ h) (hcash r)
  refine List.single_le_sum (fun x hx => ?_) _ (List.mem_map_of_mem hr)
  obtain ⟨other, -, rfl⟩ := List.mem_map.mp hx
  exact hcash other

/-- Steps add their bounds at most. -/
theorem cashOf_append_le (hcash : ∀ r, 0 ≤ cash r) {base : List Receipt}
    (hnodup : ((base ++ madeOf (executed.map (·.member))).map (·.receiptId)).Nodup)
    (hbounded : ∀ x ∈ executed, cashOf cash x.member.call.made ≤ x.bound) :
    cashOf cash (base ++ madeOf (executed.map (·.member))) ≤
      cashOf cash base + (executed.map (·.bound)).sum := by
  rw [madeOf_map] at hnodup ⊢
  have hpart : ∀ x ∈ executed, x.member.call.made.Sublist
      (base ++ executed.flatMap (·.member.call.made)) := by
    intro x hx
    have hmem : x.member.call.made ∈ executed.map (·.member.call.made) :=
      List.mem_map.mpr ⟨x, hx, rfl⟩
    rw [List.flatMap_def]
    exact (List.sublist_flatten_of_mem hmem).trans (List.sublist_append_right _ _)
  have hle := cashOf_le hcash hnodup (base :: executed.map (·.member.call.made))
    (fun part hmem => ?_) (fun r hr => ?_)
  · refine hle.trans ?_
    rw [List.map_cons, List.sum_cons, List.map_map]
    exact add_le_add_right (List.sum_le_sum hbounded) _
  · rcases List.mem_cons.mp hmem with rfl | hmem
    · exact ⟨nodup_of_sublist (List.sublist_append_left _ _) hnodup,
        List.subset_append_left _ _⟩
    · obtain ⟨x, hx, rfl⟩ := List.mem_map.mp hmem
      exact ⟨nodup_of_sublist (hpart x hx) hnodup, (hpart x hx).subset⟩
  · refine .inr ?_
    have hmem := ((mem_independentReceipts hnodup).mp hr).1
    rcases List.mem_append.mp hmem with hbase | hnew
    · exact ⟨base, List.mem_cons_self, hbase⟩
    · obtain ⟨x, hx, hmem⟩ := List.mem_flatMap.mp hnew
      exact ⟨_, List.mem_cons_of_mem _ (List.mem_map_of_mem hx), hmem⟩

theorem Held.cashOf_made_le (hcash : ∀ r, 0 ≤ cash r) (h : Held cash budget made p)
    (hnodup : (made.map (·.receiptId)).Nodup) : cashOf cash made ≤ cashOf cash p.receipts := by
  have hle := cashOf_le hcash hnodup [p.receipts] (fun part hpart => ?_) fun r hr => ?_
  · simpa using hle
  · obtain rfl := List.mem_singleton.mp hpart
    exact ⟨nodup_of_sublist h.sublist hnodup, h.sublist.subset⟩
  · exact (h.free r hr).symm.imp_right fun hmem => ⟨_, List.mem_singleton_self _, hmem⟩

/-- A step whose receipts are dropped costs nothing if its bound is zero. -/
theorem Held.free_append (hcash : ∀ r, 0 ≤ cash r) (h : Held cash budget made p)
    (hnodup : ((made ++ madeOf (executed.map (·.member))).map (·.receiptId)).Nodup)
    (hbounded : ∀ x ∈ executed, cashOf cash x.member.call.made ≤ x.bound)
    {receipts : List Receipt} (hp : p.receipts ⊆ receipts)
    (hkept : ∀ x ∈ executed, x.member.call.made ⊆ receipts ∨ x.bound = 0) :
    ∀ r ∈ independentReceipts (made ++ madeOf (executed.map (·.member))),
      r ∈ receipts ∨ cash r = 0 := by
  intro r hr
  have hmade : ∀ part : List Receipt, part.Sublist (made ++ madeOf (executed.map (·.member))) →
      r ∈ part → r ∈ independentReceipts part := fun part hpart =>
    mem_independentReceipts_of_subset hnodup (nodup_of_sublist hpart hnodup) hpart.subset hr
  rcases List.mem_append.mp ((mem_independentReceipts hnodup).mp hr).1 with hold | hnew
  · exact (h.free r (hmade made (List.sublist_append_left _ _) hold)).imp_left fun hmem => hp hmem
  · rw [madeOf_map] at hmade hnew
    obtain ⟨x, hx, hmem⟩ := List.mem_flatMap.mp hnew
    rcases hkept x hx with hsub | hzero
    · exact .inl (hsub hmem)
    · have hcalls : x.member.call.made ∈ executed.map (·.member.call.made) :=
        List.mem_map.mpr ⟨x, hx, rfl⟩
      have hpart : x.member.call.made.Sublist
          (made ++ executed.flatMap (·.member.call.made)) := by
        rw [List.flatMap_def]
        exact (List.sublist_flatten_of_mem hcalls).trans (List.sublist_append_right _ _)
      exact .inr (eq_zero_of_cashOf_le hcash (hzero ▸ hbounded x hx) (hmade _ hpart hmem))

/-- A step of an offline wave that may cost something comes after none that may cost something or
waits. -/
def Funding.Frugal (f : Funding) : Prop :=
  f.economic = false →
    f.executed.Pairwise fun a b => b.bound = 0 ∨ a.bound = 0 ∧ ¬ a.member.call.waits

instance (f : Funding) : Decidable f.Frugal := by unfold Funding.Frugal; infer_instance

/-- What is assumed of the steps of a wave. -/
structure Funding.Ordinary (cash : Receipt → ℚ) (f : Funding) : Prop where
  handsOver : ∀ x ∈ f.executed, x.member.call.HandsOver
  bounded : ∀ x ∈ f.executed, cashOf cash x.member.call.made ≤ x.bound
  frugal : f.Frugal

/-- The wave is of different steps, none of which has an outcome from outside yet. -/
structure Funding.Fresh (f : Funding) : Prop where
  distinct : (f.executed.map (·.member.stepId)).Nodup
  pending : ∀ x ∈ f.executed, x.terminal = none

theorem Funding.Ordinary.members {f : Funding} (h : f.Ordinary cash) :
    ∀ m ∈ f.wave.members, m.call.HandsOver := by
  intro m hm
  obtain ⟨x, hx, rfl⟩ := List.mem_map.mp hm
  exact h.handsOver x hx

theorem Funding.Ordinary.bound_nonneg {f : Funding} (hcash : ∀ r, 0 ≤ cash r)
    (h : f.Ordinary cash) : ∀ x ∈ f.executed, 0 ≤ x.bound := fun x hx =>
  (cashOf_nonneg hcash).trans (h.bounded x hx)

/-- A wave begun within the budget stays within it. -/
theorem Held.merge_proceed (hcash : ∀ r, 0 ≤ cash r) (h : Held cash budget made p) {f : Funding}
    (hf : f.Ordinary cash) (hwithin : cashOf cash p.receipts + f.bounds.sum ≤ budget)
    (hnodup : ((made ++ madeOf f.wave.members).map (·.receiptId)).Nodup) {p' : Progress}
    (hmerge : f.wave.merge p = .proceed p') :
    Held cash budget (made ++ madeOf f.wave.members) p' := by
  have hkeeps := Wave.merge_keeps p hf.members
  rw [hmerge] at hkeeps
  have hreceipts : p'.receipts = p.receipts ++ madeOf (f.executed.map (·.member)) := hkeeps
  have hsub : p'.receipts.Sublist (made ++ madeOf (f.executed.map (·.member))) := by
    rw [hreceipts]
    exact h.sublist.append_right _
  refine ⟨hsub, ?_, ?_⟩
  · refine h.free_append hcash hnodup hf.bounded ?_ fun x hx => .inl ?_
    · rw [hreceipts]
      exact List.subset_append_left _ _
    · rw [hreceipts, madeOf_map]
      intro r hr
      exact List.mem_append_right _ (List.mem_flatMap.mpr ⟨x, hx, hr⟩)
  · rw [hreceipts]
    refine (cashOf_append_le hcash ?_ hf.bounded).trans hwithin
    rw [← hreceipts]
    exact nodup_of_sublist hsub hnodup

theorem Held.merge_waiting (hcash : ∀ r, 0 ≤ cash r) (h : Held cash budget made p) {f : Funding}
    (hf : f.Ordinary cash) (hfresh : f.Fresh)
    (hwithin : cashOf cash p.receipts + f.bounds.sum ≤ budget)
    (hnodup : ((made ++ madeOf f.wave.members).map (·.receiptId)).Nodup) {p' : Progress}
    {stepId decisionId : String} (hmerge : f.wave.merge p = .halt p' (.waiting stepId decisionId))
    {o : WorkflowOutcome} (hreceipts : o.receipts = p'.receipts)
    (hid : o.waitingStepId = some stepId) (older : List Executed) :
    Suspends cash budget (made ++ madeOf f.wave.members) (f.executed.reverse ++ older) o := by
  have hkeeps := Wave.merge_keeps p hf.members
  rw [hmerge] at hkeeps
  obtain ⟨before, m, after, kept, hsplit, rfl, hwaits, hkept, hall⟩ := hkeeps _ _ rfl
  rw [← hreceipts] at hall
  -- the steps of the members before, at and after the one that waits
  obtain ⟨xs, ys, hexecuted, rfl, hys⟩ := List.map_eq_append_iff.mp hsplit
  obtain ⟨w, zs, rfl, rfl, rfl⟩ := List.map_eq_cons_iff.mp hys
  obtain ⟨ks, rfl, hks⟩ : ∃ ks : List Executed, kept = ks.map (·.member) ∧
      (ks = zs ∨ f.economic = false ∧ ks = []) := by
    rcases hkept with rfl | ⟨hoffline, rfl⟩
    · exact ⟨zs, rfl, .inl rfl⟩
    · exact ⟨[], rfl, .inr ⟨hoffline, rfl⟩⟩
  have hsub : ks.Sublist zs := by
    rcases hks with rfl | ⟨-, rfl⟩
    · exact List.Sublist.refl _
    · exact List.nil_sublist _
  have hheld : o.receipts = p.receipts ++ madeOf ((xs ++ w :: ks).map (·.member)) := by
    rw [hall, List.map_append, List.map_cons]
  have hsublist : o.receipts.Sublist (made ++ madeOf f.wave.members) := by
    have hsteps : (xs ++ w :: ks).Sublist f.executed := by
      rw [hexecuted]
      exact (hsub.cons_cons w).append_left xs
    rw [hheld, madeOf_map, Funding.wave, madeOf_map]
    exact h.sublist.append (hsteps.flatMap _)
  have hperm : o.receipts.Perm
      (p.receipts ++ madeOf ((xs ++ ks).map (·.member)) ++ w.member.call.made) := by
    rw [hheld]
    simp only [madeOf_map, List.flatMap_append, List.flatMap_cons, List.append_assoc]
    exact ((List.perm_append_comm).append_left _).append_left _
  have hrest : ((p.receipts ++ madeOf ((xs ++ ks).map (·.member))).map (·.receiptId)).Nodup :=
    nodup_of_sublist (List.sublist_append_left _ _)
      ((hperm.map _).nodup_iff.mp (nodup_of_sublist hsublist hnodup))
  have hmem : ∀ x, x ∈ xs ++ ks → x ∈ f.executed := by
    intro x hx
    rw [hexecuted]
    rcases List.mem_append.mp hx with hx | hx
    · exact List.mem_append_left _ hx
    · exact List.mem_append_right _ (List.mem_cons_of_mem _ (hsub.subset hx))
  refine ⟨zs.reverse, w, xs.reverse ++ older, _, ?_, hid, ?_, ?_, hperm, ?_, hsublist, ?_⟩
  · simp [hexecuted]
  · have hdistinct := hfresh.distinct
    rw [hexecuted, List.map_append, List.map_cons] at hdistinct
    have hw := (List.nodup_cons.mp (List.nodup_append.mp hdistinct).2.1).1
    intro x hx heq
    exact hw (List.mem_map.mpr ⟨x, List.mem_reverse.mp hx, heq⟩)
  · exact hfresh.pending w (by simp [hexecuted])
  · have hcost := cashOf_append_le hcash hrest fun x hx => hf.bounded x (hmem x hx)
    have hbounds : ((xs ++ ks).map (·.bound)).sum + w.bound ≤ f.bounds.sum := by
      have hle : (ks.map (·.bound)).sum ≤ (zs.map (·.bound)).sum := by
        refine (hsub.map _).sum_le_sum fun b hb => ?_
        obtain ⟨x, hx, rfl⟩ := List.mem_map.mp hb
        exact hf.bound_nonneg hcash x (by simp [hexecuted, hx])
      simp only [Funding.bounds, hexecuted, List.map_append, List.map_cons, List.sum_append,
        List.sum_cons]
      linarith
    linarith
  · refine h.free_append hcash hnodup hf.bounded ?_ fun x hx => ?_
    · rw [hheld]
      exact List.subset_append_left _ _
    · -- offline, what is dropped comes after a step that waits
      have hin : x ∈ xs ++ w :: ks → x.member.call.made ⊆ o.receipts := by
        intro hx r hr
        rw [hheld, madeOf_map]
        exact List.mem_append_right _ (List.mem_flatMap.mpr ⟨x, hx, hr⟩)
      rw [hexecuted] at hx
      rcases hks with rfl | ⟨hoffline, rfl⟩
      · exact .inl (hin hx)
      · have hpair := hf.frugal hoffline
        rw [hexecuted, List.pairwise_append, List.pairwise_cons] at hpair
        rcases List.mem_append.mp hx with hx | hx
        · exact .inl (hin (List.mem_append_left _ hx))
        · rcases List.mem_cons.mp hx with rfl | hx
          · exact .inl (hin (by simp))
          · exact .inr ((hpair.2.1.1 x hx).resolve_right fun hfree => hfree.2 hwaits)

end Costs

end AeepRouter.Workflow

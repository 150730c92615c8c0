import AeepRouter.Workflow.Costs

/-!
# What a workflow spends

Both paths begin a wave within what is left of the budget, the offline one if the wave is frugal
(`Offer.funding_within`). A session of such waves stays within its budget (`within_budget`) where
the accounting says what was spent and every step costs what it was selected with at most.

The offline path grants every step of a wave all that is left of the budget, and it forgets the
members of a wave after one that waits: `granted_twice`.
-/

namespace AeepRouter.Workflow

open Lib Stack Decimal

/-! ## Rounds -/

section Rounds

variable {terms : Terms} {workflow : WorkflowRequest} {p : Progress} {o : Offer} {economic : Bool}
  {budget : ℚ}

theorem exists_ok_of_mapM {ε α β : Type} {f : α → Except ε β} {l : List α} {bs : List β}
    (h : l.mapM f = .ok bs) : ∀ a ∈ l, ∃ b, f a = .ok b := by
  induction l generalizing bs with
  | nil => nofun
  | cons a l ih =>
    simp only [List.mapM_cons, bind_ok, pure_ok] at h
    obtain ⟨b, hb, bs, hbs, -⟩ := h
    exact List.forall_mem_cons.mpr ⟨⟨b, hb⟩, ih hbs⟩

@[simp] theorem float_zero : float 0 = 0 := Binary.round_zero 53

theorem Offer.maximum_nonneg (step : WorkflowStep) : 0 ≤ o.maximum terms workflow p step := by
  unfold maximum
  cases o.prepared terms workflow p step with
  | error type => rfl
  | ok prepared =>
    cases hmaximum : prepared.maximum with
    | none => simp [hmaximum]
    | some maximum => simpa [hmaximum] using maximum.nonneg

theorem Offer.bound_nonneg (step : WorkflowStep) :
    0 ≤ o.bound terms workflow p economic step := by
  unfold bound
  split
  · exact o.maximum_nonneg step
  · split
    · next route _ =>
      cases hupper : route.upperBound with
      | none => rfl
      | some upper => exact route.nonneg upper hupper
    · rfl

theorem Offer.funding_bounds (hnodup : workflow.ids.Nodup) {wave : Wave}
    (h : (o.round terms workflow p economic).run economic workflow p = .ok wave) :
    ∃ exclusive, o.admittance terms workflow p economic = .ok exclusive ∧
      (o.funding terms economic workflow p wave).bounds =
        (waveOf exclusive (ready workflow p)).map (o.bound terms workflow p economic) := by
  unfold Round.run Offer.round at h
  cases hadmitted : o.admittance terms workflow p economic with
  | error ending => cases ending <;> simp [hadmitted, Ending.admission] at h
  | ok exclusive =>
    simp only [hadmitted] at h
    split at h
    · cases h
    obtain rfl := Except.ok.inj h
    refine ⟨exclusive, rfl, ?_⟩
    simp only [funding, Funding.bounds, List.map_map]
    refine List.map_congr_left fun step hstep => ?_
    have hready := (waveOf_sublist exclusive (ready workflow p)).subset hstep
    rw [ready, List.mem_insertionSort] at hready
    have hmem : step ∈ workflow.steps := List.mem_of_mem_filter (List.mem_of_mem_filter hready)
    have hfind : workflow.steps.find? (·.stepId = step.stepId) = some step := by
      cases hfind : workflow.steps.find? (·.stepId = step.stepId) with
      | none => exact absurd (List.find?_eq_none.mp hfind step hmem) (by simp)
      | some other =>
        have hother := List.mem_of_find?_eq_some hfind
        have hid : other.stepId = step.stepId := by simpa using List.find?_some hfind
        rw [List.inj_on_of_nodup_map hnodup hother hmem hid]
    simp [hfind]

theorem Offer.admitEconomic_ok {exclusive : WorkflowStep → Bool}
    (hbudget : terms.maxCashUsd = some budget)
    (h : o.admitEconomic terms workflow p = .ok exclusive) :
    ∃ spent, terms.accountedCash "USD" p.receipts = some spent ∧
      dec (spent + decSum ((waveOf exclusive (ready workflow p)).map
        (o.maximum terms workflow p))) ≤ budget := by
  simp only [admitEconomic, bind_ok, raiseIf_ok, pure_ok, exists_const, hbudget, ne_eq,
    reduceCtorEq, not_false_eq_true, true_and, not_not, Option.mem_some_iff, exists_eq_left',
    not_lt] at h
  obtain ⟨hcurrency, hknown, -, -, -, -, -, -, -, hsum, -, -, rfl⟩ := h
  rw [hcurrency] at hknown hsum
  obtain ⟨spent, hspent⟩ := Option.ne_none_iff_exists'.mp hknown
  rw [hspent] at hsum
  exact ⟨spent, hspent, hsum⟩

theorem Offer.admitOffline_ok {exclusive : WorkflowStep → Bool}
    (hbudget : terms.maxCashUsd = some budget) (hne : ready workflow p ≠ [])
    (h : o.admitOffline terms workflow p = .ok exclusive) :
    ∃ spent, terms.accountedCash "USD" p.receipts = some spent ∧
      ∀ step ∈ ready workflow p, float (o.bound terms workflow p false step) ≤
        max 0 (float (dec (budget - spent))) := by
  simp only [admitOffline, bind_ok] at h
  obtain ⟨routes, hroutes, -⟩ := h
  have hrouted := exists_ok_of_mapM hroutes
  have hremaining : ∀ step ∈ ready workflow p, ∃ spent,
      terms.accountedCash "USD" p.receipts = some spent ∧
      float (o.bound terms workflow p false step) ≤ max 0 (float (dec (budget - spent))) := by
    intro step hstep
    obtain ⟨route, hroute⟩ := hrouted step hstep
    have hbound : o.bound terms workflow p false step = route.upperBound.getD 0 := by
      simp [bound, hroute]
    simp only [routed, Terms.remaining, hbudget, bind_ok, require_ok] at hroute
    obtain ⟨remaining, hremaining, _, -, _, -, hfind⟩ := hroute
    cases hspent : terms.accountedCash "USD" p.receipts with
    | none => simp [hspent] at hremaining
    | some spent =>
      rw [hspent] at hremaining
      obtain rfl := Except.ok.inj hremaining
      refine ⟨spent, rfl, ?_⟩
      have hwithin := List.find?_some hfind
      rw [hbound]
      cases hupper : route.upperBound with
      | none =>
        rw [Option.getD_none, float_zero]
        exact le_max_left _ _
      | some upper =>
        rw [hupper] at hwithin
        cases hcost : o.maxCost step with
        | none => simpa [hcost, strictestMax, withinLimit] using hwithin
        | some cost =>
          have hmin : float upper ≤ min cost (max 0 (float (dec (budget - spent)))) := by
            simpa [hcost, strictestMax, withinLimit] using hwithin
          exact hmin.trans (min_le_right _ _)
  obtain ⟨step, hstep⟩ := List.exists_mem_of_ne_nil _ hne
  obtain ⟨spent, hspent, -⟩ := hremaining step hstep
  refine ⟨spent, hspent, fun step hstep => ?_⟩
  obtain ⟨other, hother, hle⟩ := hremaining step hstep
  rwa [Option.some.inj (hother.symm.trans hspent)] at hle

end Rounds

/-! ## Waves -/

section Waves

variable {terms : Terms} {workflow : WorkflowRequest} {p : Progress} {o : Offer} {economic : Bool}
  {budget spent : ℚ} {e : ℤ}

/-- The amounts of a budget are multiples of one unit and have fifteen digits at most. -/
structure Denominated (e : ℤ) (budget : ℚ) : Prop where
  nonneg : 0 ≤ budget
  onGrid : OnGrid e budget
  digits : budget < 10 ^ (e + 15)

theorem float_nonneg {q : ℚ} (h : 0 ≤ q) : 0 ≤ float q := Binary.round_nonneg h

/-- Amounts of fifteen digits are told apart. -/
theorem le_of_float_le {x y : ℚ} (hx : OnGrid e x) (hy : OnGrid e y) (h0 : 0 ≤ y)
    (hb : y < 10 ^ (e + 15)) (h : float x ≤ float y) : x ≤ y :=
  Binary.le_of_round_le (d := 15) (by norm_num) hx hy h0 (by exact_mod_cast hb) h

theorem Denominated.digits' (h : Denominated e budget) : budget < 10 ^ (e + precision) := by
  refine h.digits.trans_le (zpow_le_zpow_right₀ (by norm_num) ?_)
  simp [precision]

theorem dec_foldl {xs : List ℚ} (hxs : ∀ x ∈ xs, 0 ≤ x) {a : ℚ} (ha : dec a = a) (ha0 : 0 ≤ a) :
    dec (xs.foldl (fun acc x => dec (acc + x)) a) = xs.foldl (fun acc x => dec (acc + x)) a := by
  induction xs generalizing a with
  | nil => exact ha
  | cons x xs ih =>
    rw [List.forall_mem_cons] at hxs
    have hnonneg : 0 ≤ a + x := add_nonneg ha0 hxs.1
    exact ih hxs.2 (Decimal.round_round (by decide) hnonneg) (dec_nonneg hnonneg)

theorem add_sum_le_of_dec_le (hbudget : Denominated e budget) {xs : List ℚ}
    (hspent : OnGrid e spent) (hspent0 : 0 ≤ spent) (hxs : ∀ x ∈ xs, OnGrid e x ∧ 0 ≤ x)
    (h : dec (spent + decSum xs) ≤ budget) : spent + xs.sum ≤ budget := by
  have hsum0 : 0 ≤ decSum xs := decSum_nonneg fun x hx => (hxs x hx).2
  have hle : decSum xs ≤ budget := by
    refine le_trans ?_ h
    calc decSum xs = dec (decSum xs) :=
          (dec_foldl (fun x hx => (hxs x hx).2) (by simp [dec, Decimal.round]) le_rfl).symm
      _ ≤ dec (spent + decSum xs) := dec_mono hsum0 (by linarith)
  have hexact : xs.sum ≤ budget :=
    (decSum_le_iff hbudget.onGrid hbudget.nonneg hbudget.digits' hxs).mp hle
  obtain ⟨hdec, hgrid, -⟩ := decSum_of_onGrid hxs (hexact.trans hbudget.digits'.le)
  rw [hdec] at h
  exact le_of_dec_le (hspent.add hgrid) hbudget.onGrid hbudget.nonneg hbudget.digits' h

theorem sum_eq_zero_or_mem {xs : List ℚ} (h : xs.Pairwise fun a b => b = 0 ∨ a = 0) :
    xs.sum = 0 ∨ xs.sum ∈ xs := by
  induction xs with
  | nil => exact .inl rfl
  | cons x xs ih =>
    rw [List.pairwise_cons] at h
    rw [List.sum_cons]
    by_cases hx : x = 0
    · rw [hx, zero_add]
      exact (ih h.2).imp_right (List.mem_cons_of_mem _)
    · have hzero : xs.sum = 0 := List.sum_eq_zero fun y hy => (h.1 y hy).resolve_right hx
      rw [hzero, add_zero]
      exact .inr List.mem_cons_self

theorem Offer.funding_within (hnodup : workflow.ids.Nodup)
    (hmax : terms.maxCashUsd = some budget) (hbudget : Denominated e budget) {wave : Wave}
    (hrun : (o.round terms workflow p economic).run economic workflow p = .ok wave)
    (hready : ready workflow p ≠ [])
    (hfrugal : (o.funding terms economic workflow p wave).Frugal)
    (hgrid : ∀ x ∈ (o.funding terms economic workflow p wave).bounds, OnGrid e x)
    (hspent : ∀ spent ∈ terms.accountedCash "USD" p.receipts,
      OnGrid e spent ∧ 0 ≤ spent ∧ spent ≤ budget) :
    ∃ spent, terms.accountedCash "USD" p.receipts = some spent ∧
      spent + (o.funding terms economic workflow p wave).bounds.sum ≤ budget := by
  obtain ⟨exclusive, hadmitted, hbounds⟩ := Offer.funding_bounds hnodup hrun
  have heconomic := (Round.run_ok hnodup hrun).1
  have hpair : economic = false → (o.funding terms economic workflow p wave).bounds.Pairwise
      fun a b => b = 0 ∨ a = 0 := by
    intro h
    exact List.pairwise_map.mpr ((hfrugal (heconomic.trans h)).imp fun hab => hab.imp_right And.left)
  rw [hbounds] at hgrid hpair ⊢
  unfold Offer.admittance at hadmitted
  cases economic with
  | true =>
    obtain ⟨spent, hknown, hsum⟩ := Offer.admitEconomic_ok hmax hadmitted
    obtain ⟨hspentGrid, hspent0, -⟩ := hspent spent hknown
    refine ⟨spent, hknown, add_sum_le_of_dec_le hbudget hspentGrid hspent0 (fun x hx => ?_) hsum⟩
    refine ⟨hgrid x hx, ?_⟩
    obtain ⟨step, -, rfl⟩ := List.mem_map.mp hx
    exact o.bound_nonneg step
  | false =>
    obtain ⟨spent, hknown, hroutes⟩ := Offer.admitOffline_ok hmax hready hadmitted
    obtain ⟨hspentGrid, hspent0, hle⟩ := hspent spent hknown
    refine ⟨spent, hknown, ?_⟩
    have hleft : dec (budget - spent) = budget - spent := by
      refine dec_of_onGrid (hbudget.onGrid.sub hspentGrid) ?_
      rw [abs_of_nonneg (by linarith)]
      exact (sub_le_self budget hspent0).trans hbudget.digits'.le
    rcases sum_eq_zero_or_mem (hpair rfl) with hzero | hmem
    · rw [hzero]
      linarith
    · -- the one step that may cost something was routed within what is left
      have hx := hgrid _ hmem
      obtain ⟨step, hstep, hsum⟩ := List.mem_map.mp hmem
      rw [← hsum] at hx ⊢
      have hfloat := hroutes step ((waveOf_sublist _ _).subset hstep)
      rw [hleft, max_eq_right (float_nonneg (by linarith))] at hfloat
      have hrest := le_of_float_le hx (hbudget.onGrid.sub hspentGrid) (by linarith)
        ((sub_le_self budget hspent0).trans_lt hbudget.digits) hfloat
      linarith

end Waves

/-! ## The loop -/

section Loop

variable {terms : Terms} {cash : Receipt → ℚ} {budget : ℚ} {e : ℤ} {made : List Receipt}
  {p : Progress} {workflow : WorkflowRequest} {economic : Bool} {older : List Executed}

/-- What was accounted for before a wave and the bounds of its steps are within the budget. -/
def Funding.Within (terms : Terms) (budget : ℚ) (f : Funding) : Prop :=
  ∃ spent, terms.accountedCash "USD" f.receipts = some spent ∧ spent + f.bounds.sum ≤ budget

/-- A wave of ordinary steps whose accounting is right and whose amounts are multiples of one
unit. -/
structure Funding.Payable (terms : Terms) (e : ℤ) (cash : Receipt → ℚ) (f : Funding) : Prop
    extends f.Ordinary cash where
  accounted : ∀ spent ∈ terms.accountedCash "USD" f.receipts, spent = cashOf cash f.receipts
  onGrid : ∀ b ∈ f.bounds, OnGrid e b

def madeBy (fundings : List Funding) : List Receipt := fundings.flatMap (madeOf ·.wave.members)

/-- What a call leaves, given the receipts and steps before it. -/
structure Affords (terms : Terms) (cash : Receipt → ℚ) (budget : ℚ) (made : List Receipt)
    (older : List Executed) (fundings : List Funding) (result : Result WorkflowOutcome) : Prop where
  waves : ∀ f ∈ fundings, f.Within terms budget
  total : cashOf cash (made ++ madeBy fundings) ≤ budget
  suspended : ∀ o, result = .ok o → o.status = .waiting →
    Suspends cash budget (made ++ madeBy fundings) (Spending.startedBy fundings ++ older) o

theorem cashOf_onGrid {receipts : List Receipt} (hnodup : (receipts.map (·.receiptId)).Nodup)
    (h : ∀ r ∈ receipts, OnGrid e (cash r)) : OnGrid e (cashOf cash receipts) :=
  OnGrid.sum fun x hx => by
    obtain ⟨r, hr, rfl⟩ := List.mem_map.mp hx
    exact h r ((mem_independentReceipts hnodup).mp hr).1

theorem Affords.none (hcash : ∀ r, 0 ≤ cash r) (h : Held cash budget made p)
    (hnodup : (made.map (·.receiptId)).Nodup) {result : Result WorkflowOutcome}
    (hresult : Settled p result) : Affords terms cash budget made older [] result where
  waves := nofun
  total := by
    rw [madeBy, List.flatMap_nil, List.append_nil]
    exact (h.cashOf_made_le hcash hnodup).trans h.within
  suspended o ho hw := absurd hw (hresult o ho).2

theorem Affords.cons {f : Funding} {fundings : List Funding} {result : Result WorkflowOutcome}
    (hf : f.Within terms budget)
    (h : Affords terms cash budget (made ++ madeOf f.wave.members) (f.executed.reverse ++ older)
      fundings result) : Affords terms cash budget made older (f :: fundings) result := by
  have hmade : made ++ madeBy (f :: fundings) = made ++ madeOf f.wave.members ++ madeBy fundings := by
    simp [madeBy]
  have hstarted : Spending.startedBy (f :: fundings) ++ older =
      Spending.startedBy fundings ++ (f.executed.reverse ++ older) := by
    simp [Spending.startedBy]
  refine ⟨List.forall_mem_cons.mpr ⟨hf, h.waves⟩, hmade ▸ h.total, fun o ho hw => ?_⟩
  rw [hmade, hstarted]
  exact h.suspended o ho hw

theorem Offer.funding_fresh (terms : Terms) (economic : Bool) (o : Offer) {wave : Wave} (h : Pending p wave.members) :
    (o.funding terms economic workflow p wave).Fresh := by
  refine ⟨?_, fun x hx => ?_⟩
  · simpa [Offer.funding, Function.comp_def] using h.distinct
  · obtain ⟨m, -, rfl⟩ := List.mem_map.mp hx
    rfl

theorem fundedLoop_affords (hids : workflow.ids.Nodup) (hmax : terms.maxCashUsd = some budget)
    (hbudget : Denominated e budget) (hcash : ∀ r, 0 ≤ cash r) {offers : List Offer}
    (h : Held cash budget made p)
    (hpay : ∀ f ∈ (fundedLoop terms economic workflow offers p).1, f.Payable terms e cash)
    (hnodup : ((made ++ madeBy (fundedLoop terms economic workflow offers p).1).map
      (·.receiptId)).Nodup)
    (hgrid : ∀ r ∈ made ++ madeBy (fundedLoop terms economic workflow offers p).1,
      OnGrid e (cash r)) :
    Affords terms cash budget made older (fundedLoop terms economic workflow offers p).1
      (fundedLoop terms economic workflow offers p).2 := by
  have hold : (made.map (·.receiptId)).Nodup :=
    nodup_of_sublist (List.sublist_append_left _ _) hnodup
  induction offers generalizing p made older with
  | nil =>
    refine .none hcash h hold ?_
    rw [fundedLoop]
    cases hopening : opening workflow p with
    | none => exact fun o ho => by cases ho
    | some result => exact opening_settled hopening
  | cons o offers ih =>
    rw [fundedLoop] at hpay hnodup hgrid ⊢
    cases hopening : opening workflow p with
    | some result => exact .none hcash h hold (opening_settled hopening)
    | none =>
      have hready : ready workflow p ≠ [] := by
        intro hnil
        simp only [opening, hnil, if_true] at hopening
        split at hopening <;> cases hopening
      cases hrun : (o.round terms workflow p economic).run economic workflow p with
      | error result => exact .none hcash h hold (Round.run_settled hrun)
      | ok wave =>
        obtain ⟨-, hpending⟩ := Round.run_ok hids hrun
        have hwave := Offer.funding_wave terms economic workflow o p wave
        have hfresh : (o.funding terms economic workflow p wave).Fresh :=
          Offer.funding_fresh terms economic o hpending
        have hfunded := Offer.funding_within hids hmax hbudget hrun hready
        have hreceipts : (o.funding terms economic workflow p wave).receipts = p.receipts := rfl
        simp only [hopening, hrun] at hpay hnodup hgrid ⊢
        generalize o.funding terms economic workflow p wave = f at *
        subst hwave
        -- what is spent when the wave begins
        have hheld : OnGrid e (cashOf cash p.receipts) :=
          cashOf_onGrid (nodup_of_sublist h.sublist hold) fun r hr =>
            hgrid r (List.mem_append_left _ (h.sublist.subset hr))
        have hwithin : f.Payable terms e cash → ∃ spent,
            terms.accountedCash "USD" f.receipts = some spent ∧ spent = cashOf cash p.receipts ∧
              spent + f.bounds.sum ≤ budget := by
          intro hf
          have heq := hf.accounted
          rw [hreceipts] at heq ⊢
          obtain ⟨spent, hspent, hsum⟩ := hfunded hf.frugal hf.onGrid fun spent hspent => by
            rw [heq spent hspent]
            exact ⟨hheld, cashOf_nonneg hcash, h.within⟩
          exact ⟨spent, hspent, heq spent hspent, hsum⟩
        cases hmerge : f.wave.merge p with
        | halt p' verdict =>
          simp only [hmerge, List.mem_singleton, forall_eq] at hpay hnodup ⊢
          obtain ⟨spent, hspent, rfl, hsum⟩ := hwithin hpay
          have hnew : ((made ++ madeOf f.wave.members).map (·.receiptId)).Nodup := by
            simpa [madeBy] using hnodup
          refine .cons ⟨_, hspent, hsum⟩ ⟨List.forall_mem_nil _, ?_, fun o ho hw => ?_⟩
          · rw [madeBy, List.flatMap_nil, List.append_nil]
            have hcost := cashOf_append_le hcash hnew hpay.bounded
            have hmade := h.cashOf_made_le hcash hold
            have hbounds : (f.executed.map (·.bound)).sum = f.bounds.sum := rfl
            have hmembers : cashOf cash (made ++ madeOf (f.executed.map (·.member))) =
                cashOf cash (made ++ madeOf f.wave.members) := rfl
            linarith
          · obtain ⟨hkept, -, hstatus⟩ := workflowResult_ok ho
            obtain ⟨stepId, decisionId, rfl, hid, -⟩ := hstatus hw
            have := h.merge_waiting hcash hpay.toOrdinary hfresh hsum hnew hmerge hkept hid older
            simpa [madeBy, Spending.startedBy] using this
        | proceed p' =>
          simp only [hmerge, List.forall_mem_cons] at hpay hnodup hgrid ⊢
          obtain ⟨spent, hspent, rfl, hsum⟩ := hwithin hpay.1
          have hsplit : made ++ madeBy (f :: (fundedLoop terms economic workflow offers p').1) =
              made ++ madeOf f.wave.members ++
                madeBy (fundedLoop terms economic workflow offers p').1 := by
            simp [madeBy]
          rw [hsplit] at hnodup hgrid
          have hnew := nodup_of_sublist (List.sublist_append_left _ _) hnodup
          have hnext := h.merge_proceed hcash hpay.1.toOrdinary hsum hnew hmerge
          exact .cons ⟨_, hspent, hsum⟩ (ih hnext hpay.2 hnodup hgrid hnew)

/-- The steps of a wave have no outcome from outside when it is run. -/
theorem terminal_of_mem_fundedLoop {offers : List Offer} :
    ∀ f ∈ (fundedLoop terms economic workflow offers p).1, ∀ x ∈ f.executed, x.terminal = none := by
  induction offers generalizing p with
  | nil =>
    rw [fundedLoop]
    exact List.forall_mem_nil _
  | cons o offers ih =>
    have hfirst : ∀ wave, ∀ x ∈ (o.funding terms economic workflow p wave).executed,
        x.terminal = none := by
      intro wave x hx
      obtain ⟨m, -, rfl⟩ := List.mem_map.mp hx
      rfl
    rw [fundedLoop]
    cases opening workflow p with
    | some result => exact List.forall_mem_nil _
    | none =>
      cases (o.round terms workflow p economic).run economic workflow p with
      | error result => exact List.forall_mem_nil _
      | ok wave =>
        cases hmerge : wave.merge p with
        | halt p' verdict => simpa [hmerge] using hfirst wave
        | proceed p' =>
          simp only [hmerge, List.forall_mem_cons]
          exact ⟨hfirst wave, ih⟩

theorem report_append {newer older : List Executed} {w : Executed} {terminal : Receipt}
    (h : ∀ x ∈ newer, x.member.stepId ≠ w.member.stepId) :
    report w.member.stepId terminal (newer ++ w :: older) =
      newer ++ { w with terminal := some terminal } :: older := by
  induction newer with
  | nil => simp [report]
  | cons x newer ih =>
    rw [List.forall_mem_cons] at h
    simp [report, h.1, ih h.2]

theorem Held.taken_up (hcash : ∀ r, 0 ≤ cash r) {rest : List Receipt} {call : StepCall}
    {terminal : Receipt} {prior : WorkflowOutcome} {bound : ℚ}
    (hreceipts : p.receipts = prior.receipts ++ [terminal])
    (hperm : prior.receipts.Perm (rest ++ call.made)) (hslack : cashOf cash rest + bound ≤ budget)
    (hsub : prior.receipts.Sublist made)
    (hfree : ∀ r ∈ independentReceipts made, r ∈ prior.receipts ∨ cash r = 0)
    (hnodup : ((made ++ [terminal]).map (·.receiptId)).Nodup)
    (hbounded : cashOf cash (call.made ++ [terminal]) ≤ bound) :
    Held cash budget (made ++ [terminal]) p := by
  have hheld : p.receipts.Sublist (made ++ [terminal]) := by
    rw [hreceipts]
    exact hsub.append_right _
  have hperm : p.receipts.Perm (rest ++ (call.made ++ [terminal])) := by
    rw [hreceipts, ← List.append_assoc]
    exact hperm.append_right _
  have hids := nodup_of_sublist hheld hnodup
  have hparts := (hperm.map _).nodup_iff.mp hids
  refine ⟨hheld, fun r hr => ?_, ?_⟩
  · rw [hreceipts]
    rcases List.mem_append.mp ((mem_independentReceipts hnodup).mp hr).1 with hmem | hmem
    · have hold := mem_independentReceipts_of_subset hnodup
        (nodup_of_sublist (List.sublist_append_left _ _) hnodup) (List.subset_append_left _ _) hr
        hmem
      exact (hfree r hold).imp_left fun hmem => List.mem_append_left _ hmem
    · exact .inl (List.mem_append_right _ hmem)
  · have hle := cashOf_le hcash hids [rest, call.made ++ [terminal]]
      (fun part hpart => ?_) fun r hr => ?_
    · simp only [List.map_cons, List.map_nil, List.sum_cons, List.sum_nil, add_zero] at hle
      linarith
    · rcases List.mem_pair.mp hpart with rfl | rfl
      · exact ⟨nodup_of_sublist (List.sublist_append_left _ _) hparts,
          fun r hr => hperm.mem_iff.mpr (List.mem_append_left _ hr)⟩
      · exact ⟨nodup_of_sublist (List.sublist_append_right _ _) hparts,
          fun r hr => hperm.mem_iff.mpr (List.mem_append_right _ hr)⟩
    · refine .inr ?_
      have hmem := hperm.mem_iff.mp ((mem_independentReceipts hids).mp hr).1
      rcases List.mem_append.mp hmem with hmem | hmem
      · exact ⟨rest, by simp, hmem⟩
      · exact ⟨call.made ++ [terminal], by simp, hmem⟩

end Loop

/-! ## Sessions -/

namespace Spending

variable {terms : Terms} {cash : Receipt → ℚ} {budget : ℚ} {e : ℤ} {workflow : WorkflowRequest}
  {economic : Bool} {s : Spending}

/-- What is assumed: receipts have ids of their own, a call that returns hands over its receipts,
the accounting of a workflow says what was spent, and a step costs at most the bound it was selected
with. -/
structure Covered (terms : Terms) (cash : Receipt → ℚ) (s : Spending) : Prop where
  distinct : (s.session.made.map (·.receiptId)).Nodup
  handsOver : ∀ x ∈ s.executed, x.member.call.HandsOver
  accounted : ∀ f ∈ s.fundings, ∀ spent ∈ terms.accountedCash "USD" f.receipts,
    spent = cashOf cash f.receipts
  bounded : ∀ x ∈ s.executed, cashOf cash x.made ≤ x.bound

/-- Every offline wave is frugal, and the amounts are multiples of one unit. -/
structure Frugal (e : ℤ) (cash : Receipt → ℚ) (s : Spending) : Prop where
  waves : ∀ f ∈ s.fundings, f.Frugal
  bounds : ∀ f ∈ s.fundings, ∀ b ∈ f.bounds, OnGrid e b
  amounts : ∀ r ∈ s.session.made, OnGrid e (cash r)

/-- Every wave was begun within the budget, and no more than it is spent. -/
structure WithinBudget (terms : Terms) (cash : Receipt → ℚ) (budget : ℚ) (s : Spending) : Prop where
  waves : ∀ f ∈ s.fundings, f.Within terms budget
  total : cashOf cash s.session.made ≤ budget

/-- A spending within its budget that can be taken up: the step that waits can still be afforded. -/
structure Solvent (terms : Terms) (cash : Receipt → ℚ) (budget : ℚ) (s : Spending) : Prop
    extends s.WithinBudget terms cash budget where
  waiting : ∀ prior ∈ s.session.waiting,
    prior.waitingDecisionId.getD "" ∉ s.session.reported →
      Suspends cash budget s.session.made s.executed prior

theorem made_conclude (call : List Funding × Result WorkflowOutcome) :
    (s.conclude call).session.made = s.session.made ++ madeBy call.1 := by
  have hwaves : madeBy call.1 = madeOf (membersOf (call.1.map (·.wave))) := by
    simp [madeBy, madeOf, membersOf, List.flatMap_map, List.flatMap_assoc]
  rw [conclude, Session.made, Session.conclude_log, List.flatMap_append, Session.flatMap_made_wave,
    hwaves]
  rfl

theorem mem_executed_conclude {call : List Funding × Result WorkflowOutcome} {f : Funding}
    (hf : f ∈ call.1) {x : Executed} (hx : x ∈ f.executed) : x ∈ (s.conclude call).executed :=
  List.mem_append_left _ (List.mem_reverse.mpr (List.mem_flatMap.mpr ⟨f, hf, hx⟩))

theorem Solvent.conclude {call : List Funding × Result WorkflowOutcome}
    (hwaves : ∀ f ∈ s.fundings, f.Within terms budget)
    (h : Affords terms cash budget s.session.made s.executed call.1 call.2)
    (hused : ∀ prior ∈ s.session.waiting,
      prior.waitingDecisionId.getD "" ∈ s.session.reported) :
    (s.conclude call).Solvent terms cash budget := by
  refine ⟨⟨fun f hf => ?_, ?_⟩, ?_⟩
  · exact (List.mem_append.mp hf).elim (hwaves f) (h.waves f)
  · rw [made_conclude]
    exact h.total
  · rw [made_conclude]
    obtain ⟨fundings, result⟩ := call
    intro prior hprior hnew
    cases result with
    | error error => exact absurd (hused prior hprior) hnew
    | ok outcome =>
      have hprior : prior ∈ if outcome.status = .waiting then some outcome
        else s.session.waiting := hprior
      split at hprior
      · next hstatus =>
        obtain rfl := Option.some.inj hprior
        exact h.suspended _ rfl hstatus
      · exact absurd (hused prior hprior) hnew

theorem Solvent.call (hids : workflow.ids.Nodup) (hmax : terms.maxCashUsd = some budget)
    (hbudget : Denominated e budget) (hcash : ∀ r, 0 ≤ cash r) {preflight : Result Unit}
    {offers : List Offer} {initial : Progress}
    (hwaves : ∀ f ∈ s.fundings, f.Within terms budget)
    (hheld : Held cash budget s.session.made initial)
    (hused : ∀ prior ∈ s.session.waiting,
      prior.waitingDecisionId.getD "" ∈ s.session.reported)
    (hcovered : (s.conclude
      (fundedWorkflow terms economic workflow preflight offers initial)).Covered terms cash)
    (hfrugal : (s.conclude
      (fundedWorkflow terms economic workflow preflight offers initial)).Frugal e cash) :
    (s.conclude (fundedWorkflow terms economic workflow preflight offers initial)).Solvent terms
      cash budget := by
  refine .conclude hwaves ?_ hused
  have hdistinct := hcovered.distinct
  have hamounts := hfrugal.amounts
  rw [made_conclude] at hdistinct hamounts
  unfold fundedWorkflow at hcovered hfrugal hdistinct hamounts ⊢
  cases preflight with
  | error error =>
    exact .none hcash hheld (nodup_of_sublist (List.sublist_append_left _ _) hdistinct)
      fun o ho => by cases ho
  | ok u =>
    refine fundedLoop_affords hids hmax hbudget hcash hheld (fun f hf => ?_) hdistinct hamounts
    have hall : ∀ x ∈ f.executed,
        x ∈ (s.conclude (fundedLoop terms economic workflow offers initial)).executed :=
      fun x hx => mem_executed_conclude hf hx
    have hf' := List.mem_append_right s.fundings hf
    refine ⟨⟨fun x hx => hcovered.handsOver x (hall x hx), fun x hx => ?_, hfrugal.waves f hf'⟩,
      hcovered.accounted f hf', hfrugal.bounds f hf'⟩
    have hbounded := hcovered.bounded x (hall x hx)
    rwa [Executed.made, terminal_of_mem_fundedLoop f hf x hx, Option.toList_none,
      List.append_nil] at hbounded

theorem Solvent.start (hids : workflow.ids.Nodup) (hmax : terms.maxCashUsd = some budget)
    (hbudget : Denominated e budget) (hcash : ∀ r, 0 ≤ cash r) {preflight : Result Unit}
    {offers : List Offer}
    (hcovered : (start terms economic workflow preflight offers).Covered terms cash)
    (hfrugal : (start terms economic workflow preflight offers).Frugal e cash) :
    (start terms economic workflow preflight offers).Solvent terms cash budget := by
  have hempty : Held cash budget [] ⟨∅, []⟩ := ⟨List.Sublist.refl _, nofun, hbudget.nonneg⟩
  exact .call hids hmax hbudget hcash nofun hempty nofun hcovered hfrugal

theorem Solvent.resume (hids : workflow.ids.Nodup) (hmax : terms.maxCashUsd = some budget)
    (hbudget : Denominated e budget) (hcash : ∀ r, 0 ≤ cash r)
    (hs : s.Solvent terms cash budget) {r : FundedResumption}
    (hcovered : (s.resume terms economic workflow r).Covered terms cash)
    (hfrugal : (s.resume terms economic workflow r).Frugal e cash) :
    (s.resume terms economic workflow r).Solvent terms cash budget := by
  unfold Spending.resume at hcovered hfrugal ⊢
  cases hwaiting : s.session.waiting with
  | none => exact hs
  | some prior =>
    simp only [hwaiting] at hcovered hfrugal ⊢
    cases hcheck : (r.resumption []).check workflow s.session prior with
    | error error =>
      refine ⟨⟨hs.waves, hs.total⟩, fun other hother hnew => ?_⟩
      exact hs.waiting other (hwaiting.trans hother) hnew
    | ok decisionId =>
      simp only [hcheck] at hcovered hfrugal ⊢
      simp only [Resumption.check, bind_ok, raiseIf_ok, require_ok, pure_ok, exists_const, not_or,
        ne_eq, not_not] at hcheck
      obtain ⟨⟨-, -, hstep⟩, -, -, -, -, -, -, hnew, rfl⟩ := hcheck
      obtain ⟨newer, w, older, rest, hexecuted, hid, hnewer, hterminal, hperm, hslack, hsub,
        hfree⟩ := hs.waiting prior hwaiting hnew
      have hname : r.stepId = w.member.stepId := Option.some.inj (hstep.symm.trans hid)
      have hreport : report r.stepId r.terminal s.executed =
          newer ++ { w with terminal := some r.terminal } :: older := by
        rw [hname, hexecuted, report_append hnewer]
      have hbounded := hcovered.bounded { w with terminal := some r.terminal }
        (List.mem_append_right _ (by rw [hreport]; simp))
      have hmade : ∀ t : Session, t.log = s.session.log ++ [.reported r.terminal] →
          t.made = s.session.made ++ [r.terminal] := by
        intro t ht
        rw [Session.made, ht, List.flatMap_append]
        rfl
      refine .call hids hmax hbudget hcash hs.waves ?_ ?_ hcovered hfrugal
      · rw [hmade _ rfl]
        have hdistinct := hcovered.distinct
        rw [made_conclude, hmade _ rfl] at hdistinct
        exact .taken_up hcash rfl hperm hslack hsub hfree
          (nodup_of_sublist (List.sublist_append_left _ _) hdistinct) hbounded
      · intro other hother
        obtain rfl : prior = other := Option.some.inj hother
        exact List.mem_cons_self

instance : Decidable (s.Covered terms cash) :=
  decidable_of_iff (_ ∧ _ ∧ _ ∧ _)
    ⟨fun ⟨h1, h2, h3, h4⟩ => ⟨h1, h2, h3, h4⟩, fun h => ⟨h.1, h.2, h.3, h.4⟩⟩

instance : Decidable (s.Frugal e cash) :=
  decidable_of_iff (_ ∧ _ ∧ _) ⟨fun ⟨h1, h2, h3⟩ => ⟨h1, h2, h3⟩, fun h => ⟨h.1, h.2, h.3⟩⟩

end Spending

/-! ## Within the budget -/

/-- Whatever is offered and whatever waves a valid workflow is run in: if after every call the terms
are covered and the waves were frugal, every wave was begun within the budget, and the workflow and
its resumptions spend no more. -/
theorem within_budget (workflow : WorkflowRequest) (hvalid : workflow.validate = .ok ())
    (terms : Terms) (budget : ℚ) (hmax : terms.maxCashUsd = some budget) (e : ℤ)
    (hbudget : Denominated e budget) (cash : Receipt → ℚ) (hcash : ∀ r, 0 ≤ cash r)
    (enabled requirePrepared : Bool) (preflight : Result Unit) (offers : List Offer)
    (resumptions : List FundedResumption)
    (hcovered : ∀ taken ∈ resumptions.inits,
      (Spending.spending terms workflow enabled requirePrepared preflight offers taken).Covered
        terms cash)
    (hfrugal : ∀ taken ∈ resumptions.inits,
      (Spending.spending terms workflow enabled requirePrepared preflight offers taken).Frugal
        e cash) :
    (Spending.spending terms workflow enabled requirePrepared preflight offers
      resumptions).WithinBudget terms cash budget := by
  have hids := (WorkflowRequest.validate_ok hvalid).nodup
  simp only [List.mem_inits] at hcovered hfrugal
  suffices h : ∀ taken, taken <+: resumptions →
      (Spending.spending terms workflow enabled requirePrepared preflight offers taken).Solvent
        terms cash budget from (h resumptions (List.prefix_refl _)).toWithinBudget
  intro taken
  induction taken using List.reverseRecOn with
  | nil =>
    intro h
    exact .start hids hmax hbudget hcash (hcovered [] h) (hfrugal [] h)
  | append_singleton taken r ih =>
    intro h
    have hstep : Spending.spending terms workflow enabled requirePrepared preflight offers
        (taken ++ [r]) = (Spending.spending terms workflow enabled requirePrepared preflight offers
          taken).resume terms enabled workflow r := run_append _ _ _
    have hcovered := hcovered _ h
    have hfrugal := hfrugal _ h
    rw [hstep] at hcovered hfrugal ⊢
    exact (ih ((List.prefix_append taken [r]).trans h)).resume hids hmax hbudget hcash hcovered
      hfrugal

def priceOf (prices : List (String × ℕ)) (r : Receipt) : ℚ := (prices.lookup r.receiptId).getD 0

/-- Terms under which every receipt has a verified charge of its own. -/
def Terms.of (budget : ℚ) (prices : List (String × ℕ)) : Terms where
  maxCashUsd := some budget
  settlementCurrency := "USD"
  accounting r := ⟨.complete, [⟨r.receiptId, some (priceOf prices r), "USD", .verified, ""⟩]⟩

/-- Offline answers: one route for each step, that may run beside others, and its call. -/
def Offer.of (bounds : List (String × ℕ)) (calls : List (String × StepCall)) : Offer where
  maxCost _ := none
  routes step _ := .ok ([⟨some ((bounds.lookup step.stepId).getD 0 : ℕ), false, by simp⟩], "")
  consequential _ _ := false
  prepare _ _ _ := .error "RuntimeError"
  exceeded _ := none
  call step _ := (calls.lookup step.stepId).getD (.of .success step.stepId)

/-- A step that may cost six waits, beside a free one; taken up, it has cost five, and five are left
for the other. -/
theorem within_budget_of_waiting :
    (Spending.spending (.of 10 [("a1", 2), ("a2", 3), ("b2", 4)]) twoSteps false false (.ok ())
      [.of [("a", 6)] [("a", .of .delegated "a1"), ("b", .of .success "b1")]]
      [⟨"a", .null, .ok (), ⟨"a2", [], ""⟩, .ok (),
        [.of [("b", 5)] [("b", .of .success "b2")]]⟩]).WithinBudget
      (.of 10 [("a1", 2), ("a2", 3), ("b2", 4)]) (priceOf [("a1", 2), ("a2", 3), ("b2", 4)]) 10 :=
  within_budget twoSteps (by decide +kernel) _ 10 rfl 0
    ⟨by norm_num, ⟨10, by norm_num⟩, by norm_num⟩ _ (fun r => Nat.cast_nonneg _) _ _ _ _ _
    (by decide +kernel) (by decide +kernel)

theorem granted_twice :
    twoSteps.validate = .ok () ∧
    (Spending.spending (.of 10 [("x", 10), ("y", 10)]) twoSteps false false (.ok ())
      [.of [("a", 10), ("b", 10)] [("a", .of .success "x"), ("b", .of .success "y")]]
      []).Covered (.of 10 [("x", 10), ("y", 10)]) (priceOf [("x", 10), ("y", 10)]) ∧
    ¬ (Spending.spending (.of 10 [("x", 10), ("y", 10)]) twoSteps false false (.ok ())
      [.of [("a", 10), ("b", 10)] [("a", .of .success "x"), ("b", .of .success "y")]]
      []).WithinBudget (.of 10 [("x", 10), ("y", 10)]) (priceOf [("x", 10), ("y", 10)]) 10 := by
  refine ⟨by decide +kernel, by decide +kernel, fun h => ?_⟩
  have htotal := h.total
  revert htotal
  decide +kernel

end AeepRouter.Workflow

import AeepRouter.Store.Links

/-!
# Invocation and release exclude each other

A decision and its hold are two machines kept in step by the intent column. `Step.decision` bounds
the moves of a decision: along the legal transitions, and from `RESERVED` to `INVOKING` only while
the hold is idle. From there two sets of states are closed: `Invoked` (the decision has been
invoked and is never released again) and `Sealed` (its hold is being released, or it is past the
point where an invocation could begin). `Excludes` is the invariant that puts every decision with a
release under way into the second set and every decision with a recorded invocation into the first.
-/

namespace AeepRouter

open Lib

def PreparedDecisionState.invoked (state : PreparedDecisionState) : Bool :=
  state ∈ [.invoking, .awaitingUsage, .settling, .indeterminate, .disputed, .settled]

theorem PreparedDecisionState.invoked_of_transition {a b : PreparedDecisionState}
    (h : b ∈ a.transitions) (ha : a.invoked) : b.invoked := by
  cases a <;> cases b <;> revert h ha <;> decide

/-- Only `PREPARED` leads to `RESERVED`, nothing leads back to `PREPARED`, and only these two lead
to `INVOKING`. -/
theorem PreparedDecisionState.past_of_transition {a b : PreparedDecisionState}
    (h : b ∈ a.transitions) (ha : a ≠ .prepared) :
    b ≠ .prepared ∧ b ≠ .reserved ∧ (b = .invoking → a = .reserved) := by
  cases a <;> cases b <;> revert h ha <;> decide

namespace Store

def preparedState (s : Store) (preparedId : String) : Option PreparedDecisionState :=
  (s.prepared.find? preparedId).map (·.state)

/-- A decision that has been invoked. -/
def Invoked (s : Store) (preparedId : String) : Prop :=
  ∃ state, s.preparedState preparedId = some state ∧ state.invoked

/-- A decision whose hold has a release under way. -/
def Releasing (s : Store) (preparedId : String) : Prop :=
  ∃ row ∈ s.reservations, row.payload.preparedId = preparedId ∧
    row.operationIntent.map (·.type) = some .release

/-- A decision no invocation of which can begin or be under way. -/
def Sealed (s : Store) (preparedId : String) : Prop :=
  ∃ state, s.preparedState preparedId = some state ∧ state ≠ .prepared ∧ state ≠ .invoking ∧
    (state = .reserved → s.Releasing preparedId)

/-! ## The state of a decision -/

variable {s : Store}

theorem preparedState_setPreparedState (preparedId id : String) (state : PreparedDecisionState) :
    (s.setPreparedState preparedId state).preparedState id =
      if id = preparedId then (s.preparedState id).map fun _ => state else s.preparedState id := by
  unfold preparedState setPreparedState
  simp only [Table.find?_modify]
  split
  · next h =>
    subst h
    cases s.prepared.find? id <;> rfl
  · rfl

theorem preparedState_setClaim (preparedId token : String) (claimedAt : Int) (id : String) :
    (s.setClaim preparedId token claimedAt).preparedState id = s.preparedState id := by
  unfold preparedState setClaim
  simp only [Table.find?_modify]
  split
  · next h =>
    subst h
    cases s.prepared.find? id <;> rfl
  · rfl

theorem preparedState_saved {row : PreparedRow} (h : s.prepared.find? row.preparedId = none)
    (id : String) : ({ s with prepared := s.prepared.insert row } : Store).preparedState id =
      if id = row.preparedId then some row.state else s.preparedState id := by
  unfold preparedState
  simp only [Table.find?_insert h]
  split <;> rfl

theorem preparedState_of_find? {preparedId : String} {row : PreparedRow}
    (h : s.prepared.find? preparedId = some row) : s.preparedState preparedId = some row.state := by
  simp [preparedState, h]

/-- The hold of a decision is the only one of that decision. -/
theorem Linked.reservationOf_eq (hs : s.Linked) {preparedId : String} {row payment : PaymentRow}
    (hrow : row ∈ s.reservations) (hid : row.payload.preparedId = preparedId)
    (h : s.reservationOf preparedId = some payment) : payment = row := by
  have hpayment := List.mem_of_find?_eq_some h
  have heq : payment.payload.preparedId = preparedId := by simpa using List.find?_some h
  have hnodup : (s.reservations.rows.map (·.payload.preparedId)).Nodup := by
    simpa [payloads, List.map_map, Function.comp_def] using hs.one_hold
  exact List.inj_on_of_nodup_map hnodup hpayment hrow (heq.trans hid.symm)

end Store

/-! ## What a step does to a decision -/

variable {P : Store → StoreOp → Prop} {s s' : Store}

/-- A step leaves a decision where it is, or moves it along a legal transition: into `INVOKING` only
while its hold is idle. -/
theorem Step.decision (h : Step P s s') {preparedId : String} {state : PreparedDecisionState}
    (hstate : s.preparedState preparedId = some state) :
    s'.preparedState preparedId = some state ∨
    ∃ state', s'.preparedState preparedId = some state' ∧ state' ∈ state.transitions ∧
      (state = .reserved → state' = .invoking →
        ∃ payment ∈ s.reservationOf preparedId, payment.idle) := by
  have hmoved : ∀ {t : Store} (id : String) (target : PreparedDecisionState),
      t.preparedState preparedId = s.preparedState preparedId →
      (id = preparedId → target ∈ state.transitions ∧ (state = .reserved → target = .invoking →
        ∃ payment ∈ s.reservationOf preparedId, payment.idle)) →
      (t.setPreparedState id target).preparedState preparedId = some state ∨
      ∃ state', (t.setPreparedState id target).preparedState preparedId = some state' ∧
        state' ∈ state.transitions ∧ (state = .reserved → state' = .invoking →
          ∃ payment ∈ s.reservationOf preparedId, payment.idle) := by
    intro t id target ht hlegal
    rw [Store.preparedState_setPreparedState, ht, hstate]
    split
    · next hid => exact .inr ⟨target, rfl, hlegal hid.symm⟩
    · exact .inl rfl
  cases h with
  | evidence | keys | heldAgain | changed | intended | authorized | suspended | released =>
    exact .inl hstate
  | saved row hnone =>
    left
    rw [Store.preparedState_saved hnone]
    split
    · next hid =>
      rw [Store.preparedState, hid, hnone] at hstate
      cases hstate
    · exact hstate
  | claimed id token claimedAt => exact .inl ((Store.preparedState_setClaim _ _ _ _).trans hstate)
  | moved transition row hrow hfrom _ hidle =>
    refine hmoved (t := s) transition.preparedId transition.toState rfl fun hid => ?_
    have : row.state = state := by
      rw [← hid, Store.preparedState_of_find? hrow] at hstate
      exact Option.some.inj hstate
    rw [← this, hfrom, ← hid]
    exact ⟨transition.legal, hidle⟩
  | held call prepared _ hadm =>
    refine hmoved (t := s.hold call.reservation) call.reservation.preparedId .reserved rfl
      fun hid => ?_
    have : prepared.state = state := by
      rw [← hid, Store.preparedState_of_find? hadm.found] at hstate
      exact Option.some.inj hstate
    rw [← this, hadm.prepared_state]
    exact ⟨by decide, nofun⟩
  | settled receipt _ row prepared _ hadm =>
    refine hmoved (t := s.setReservation receipt.reservationId receipt.close) receipt.preparedId
      receipt.status.preparedTarget rfl fun hid => ?_
    have : prepared.state = state := by
      rw [← hid, hadm.closes.preparedId, Store.preparedState_of_find? hadm.decision] at hstate
      exact Option.some.inj hstate
    rw [← this]
    exact ⟨preparedSources_legal hadm.prepared_source, fun _ => by cases receipt.status <;> nofun⟩
  | refunded refund t _ hins =>
    obtain ⟨rfl, -⟩ | ⟨rfl, -⟩ := Store.insertRefundReceiptLocked_ok hins <;> exact .inl hstate
  | completed refund record t _ _ _ _ hins =>
    obtain ⟨rfl, -⟩ | ⟨rfl, -⟩ := Store.insertRefundReceiptLocked_ok hins <;> exact .inl hstate

theorem Step.invoked (h : Step P s s') {preparedId : String} (hi : s.Invoked preparedId) :
    s'.Invoked preparedId := by
  obtain ⟨state, hstate, hin⟩ := hi
  obtain hsame | ⟨state', hnew, hlegal, -⟩ := h.decision hstate
  · exact ⟨state, hsame, hin⟩
  · exact ⟨state', hnew, PreparedDecisionState.invoked_of_transition hlegal hin⟩

/-- A release under way stays so, unless its decision leaves `RESERVED`. -/
theorem Step.releasing (h : Step P s s') {preparedId : String} (hr : s.Releasing preparedId)
    (hs : s.Linked) : s'.Releasing preparedId ∨ s'.preparedState preparedId ≠ some .reserved := by
  obtain ⟨row, hrow, hid, hintent⟩ := hr
  -- a rewrite of the columns of one hold, by its effect on the intent of this one
  have hmodify : ∀ {t : Store} (id : String) (f : Table.Rewrite PaymentRow.reservationId),
      t.reservations = s.reservations.modify id f → (f row).payload = row.payload →
      (row.reservationId = id → (f row).operationIntent.map (·.type) = some .release) →
      t.Releasing preparedId := by
    intro t id f ht hp hkeep
    by_cases heq : row.reservationId = id
    · refine ⟨f row, ?_, by rw [hp, hid], hkeep heq⟩
      rw [ht]
      exact Table.mem_modify.mpr ⟨row, hrow, by rw [if_pos heq]⟩
    · refine ⟨row, ?_, hid, hintent⟩
      rw [ht]
      exact Table.mem_modify.mpr ⟨row, hrow, by rw [if_neg heq]⟩
  have hheld : ∀ {t : Store} (call : ReserveCall) (prepared : PreparedRow),
      call.Admitted s prepared → t.reservations = (s.hold call.reservation).reservations →
      t.Releasing preparedId := by
    intro t call prepared hadm ht
    refine ⟨row, ?_, hid, hintent⟩
    rw [ht]
    exact (Table.mem_insert hadm.fresh).mpr (.inl hrow)
  cases h with
  | evidence | keys | saved | claimed | moved | authorized | suspended | released =>
    exact .inl ⟨row, hrow, hid, hintent⟩
  | held call prepared _ hadm => exact .inl (hheld call prepared hadm rfl)
  | heldAgain call prepared _ hadm => exact .inl (hheld call prepared hadm rfl)
  | changed id => exact .inl (hmodify id _ rfl rfl fun _ => hintent)
  | intended call found prepared hfound _ hadm =>
    refine .inl (hmodify call.reservationId _ rfl rfl fun hcall => ?_)
    have heq : row = found := by
      rw [← hcall, Table.find?_of_mem hrow] at hfound
      exact Option.some.inj hfound
    rcases hadm.source with ⟨-, hown⟩ | ⟨-, hnone⟩
    · rw [heq, hown] at hintent
      exact hintent
    · rw [heq, hnone] at hintent
      cases hintent
  | settled receipt _ found prepared _ hadm =>
    by_cases hthis : row.reservationId = receipt.reservationId
    · -- the receipt of this hold closes the decision too
      right
      have heq : row = found := by
        have := hadm.found
        rw [← hthis, Table.find?_of_mem hrow] at this
        exact Option.some.inj this
      have hdecision : receipt.preparedId = preparedId := by
        rw [hadm.closes.preparedId, ← heq, hid]
      rw [← hdecision]
      show (Store.setPreparedState _ _ _).preparedState _ ≠ _
      rw [Store.preparedState_setPreparedState, if_pos rfl]
      cases (Store.preparedState _ receipt.preparedId) with
      | none => nofun
      | some _ => cases receipt.status <;> nofun
    · exact .inl (hmodify receipt.reservationId _ rfl rfl fun h => absurd h hthis)
  | refunded refund t _ hins =>
    obtain ⟨rfl, -⟩ | ⟨rfl, -⟩ := Store.insertRefundReceiptLocked_ok hins <;>
      exact .inl ⟨row, hrow, hid, hintent⟩
  | completed refund record t _ _ _ _ hins =>
    obtain ⟨rfl, -⟩ | ⟨rfl, -⟩ := Store.insertRefundReceiptLocked_ok hins <;>
      exact .inl ⟨row, hrow, hid, hintent⟩

theorem Step.sealed (h : Step P s s') {preparedId : String} (hs : s.Linked)
    (hsealed : s.Sealed preparedId) : s'.Sealed preparedId := by
  obtain ⟨state, hstate, hprepared, hinvoking, hreleasing⟩ := hsealed
  obtain hsame | ⟨state', hnew, hlegal, hidle⟩ := h.decision hstate
  · refine ⟨state, hsame, hprepared, hinvoking, ?_⟩
    rintro rfl
    exact (h.releasing (hreleasing rfl) hs).resolve_right (absurd hsame)
  · obtain ⟨hp, hr, hinv⟩ := PreparedDecisionState.past_of_transition hlegal hprepared
    refine ⟨state', hnew, hp, ?_, fun h => absurd h hr⟩
    rintro rfl
    -- an invocation from `RESERVED` would have found the hold idle
    obtain rfl := hinv rfl
    obtain ⟨row, hrow, hid, hintent⟩ := hreleasing rfl
    obtain ⟨payment, hpayment, -, hnone⟩ := hidle rfl rfl
    obtain rfl := hs.reservationOf_eq hrow hid hpayment
    rw [hnone] at hintent
    cases hintent

/-! ## The invariant -/

/-- A recorded invocation is one of an invoked decision, a full release is one of a released
decision, and a release under way is one of a sealed decision. -/
structure Store.Excludes (s : Store) : Prop where
  linked : s.Linked
  invoked : ∀ transition ∈ s.transitions, transition.toState = .invoking →
    s.Invoked transition.preparedId
  released : ∀ receipt ∈ s.settlements, receipt.status = .released →
    s.preparedState receipt.preparedId = some .released
  sealed : ∀ preparedId, s.Releasing preparedId → s.Sealed preparedId

theorem Store.Excludes.empty : Store.empty.Excludes where
  linked := .empty
  invoked _ h := absurd h Table.not_mem_empty
  released _ h := absurd h Table.not_mem_empty
  sealed _ := fun ⟨_, h, _⟩ => absurd h Table.not_mem_empty

theorem Store.preparedState_moved {t : Store} {preparedId : String}
    {state target : PreparedDecisionState} (h : t.preparedState preparedId = some state) :
    (t.setPreparedState preparedId target).preparedState preparedId = some target := by
  rw [preparedState_setPreparedState, if_pos rfl, h]
  rfl

theorem Step.recorded (h : Step P s s') {transition : PreparedRouteTransition}
    (hmem : transition ∈ s'.transitions) :
    transition ∈ s.transitions ∨
      s'.preparedState transition.preparedId = some transition.toState := by
  cases h with
  | evidence | keys | saved | claimed | heldAgain | changed | intended | authorized | suspended
    | released => exact .inl hmem
  | moved new row hrow _ _ _ _ hnone =>
    rcases (Table.mem_insert hnone).mp hmem with hmem | rfl
    · exact .inl hmem
    · exact .inr (Store.preparedState_moved (Store.preparedState_of_find? hrow))
  | held call prepared _ hadm hnone =>
    rcases (Table.mem_insert hnone).mp hmem with hmem | rfl
    · exact .inl hmem
    · exact .inr (Store.preparedState_moved (t := s.hold call.reservation)
        (Store.preparedState_of_find? hadm.found))
  | settled receipt _ row prepared transitions hadm _ hins =>
    obtain ⟨rfl, -⟩ | ⟨rfl, hnone, -⟩ := immutableInsert_ok.mp hins
    · exact .inl hmem
    · rcases (Table.mem_insert hnone).mp hmem with hmem | rfl
      · exact .inl hmem
      · have hdecision : s.preparedState receipt.preparedId = some prepared.state := by
          rw [hadm.closes.preparedId]
          exact Store.preparedState_of_find? hadm.decision
        exact .inr (Store.preparedState_moved
          (t := s.setReservation receipt.reservationId receipt.close) hdecision)
  | refunded refund t _ hins =>
    obtain ⟨rfl, -⟩ | ⟨rfl, -⟩ := Store.insertRefundReceiptLocked_ok hins <;> exact .inl hmem
  | completed refund record t _ _ _ _ hins =>
    obtain ⟨rfl, -⟩ | ⟨rfl, -⟩ := Store.insertRefundReceiptLocked_ok hins <;> exact .inl hmem

theorem Step.receipted (h : Step P s s') {receipt : SettlementReceipt}
    (hmem : receipt ∈ s'.settlements) (hstatus : receipt.status = .released) :
    receipt ∈ s.settlements ∨ s'.preparedState receipt.preparedId = some .released := by
  cases h with
  | evidence | keys | saved | claimed | moved | held | heldAgain | changed | intended | authorized
    | suspended | released => exact .inl hmem
  | settled new _ row prepared transitions hadm =>
    rcases (Table.mem_insert hadm.fresh.1).mp hmem with hmem | rfl
    · exact .inl hmem
    · right
      have hstate := Store.preparedState_of_find? hadm.decision
      rw [← hadm.closes.preparedId] at hstate
      refine (Store.preparedState_moved (t := s.setReservation _ _) hstate).trans ?_
      rw [hstatus]
      rfl
  | refunded refund t _ hins =>
    obtain ⟨rfl, -⟩ | ⟨rfl, -⟩ := Store.insertRefundReceiptLocked_ok hins <;> exact .inl hmem
  | completed refund record t _ _ _ _ hins =>
    obtain ⟨rfl, -⟩ | ⟨rfl, -⟩ := Store.insertRefundReceiptLocked_ok hins <;> exact .inl hmem

theorem Step.releases (h : Step P s s') {preparedId : String} (hr : s'.Releasing preparedId) :
    s.Releasing preparedId ∨ s'.preparedState preparedId = some .reserved := by
  -- a rewrite of the columns of one hold that claims no release
  have hmodify : ∀ (id : String) (f : Table.Rewrite PaymentRow.reservationId),
      (∀ row ∈ s.reservations, (f row).payload = row.payload ∧
        ((f row).operationIntent = none ∨ (f row).operationIntent = row.operationIntent)) →
      s'.reservations = s.reservations.modify id f → s.Releasing preparedId := by
    rintro id f hf hres
    obtain ⟨row, hrow, hid, hintent⟩ := hr
    rw [hres] at hrow
    obtain ⟨old, hold, heq⟩ := Table.mem_modify.mp hrow
    split at heq
    · obtain ⟨hp, hnone | hsame⟩ := hf old hold
      · rw [heq, hnone] at hintent
        cases hintent
      · exact ⟨old, hold, by rw [← hp, ← heq, hid], by rw [← hsame, ← heq, hintent]⟩
    · exact ⟨old, hold, heq ▸ hid, heq ▸ hintent⟩
  have hheld : ∀ {call : ReserveCall} {prepared : PreparedRow}, call.Admitted s prepared →
      s'.reservations = (s.hold call.reservation).reservations → s.Releasing preparedId := by
    intro call prepared hadm hres
    obtain ⟨row, hrow, hid, hintent⟩ := hr
    rw [hres] at hrow
    rcases (Table.mem_insert hadm.fresh).mp hrow with hrow | rfl
    · exact ⟨row, hrow, hid, hintent⟩
    · cases hintent
  cases h with
  | evidence | keys | saved | claimed | moved | authorized | suspended | released => exact .inl hr
  | held call prepared _ hadm => exact .inl (hheld hadm rfl)
  | heldAgain call prepared _ hadm => exact .inl (hheld hadm rfl)
  | changed id => exact .inl (hmodify id _ (fun _ _ => ⟨rfl, .inr rfl⟩) rfl)
  | settled receipt => exact .inl (hmodify receipt.reservationId _ (fun _ _ => ⟨rfl, .inl rfl⟩) rfl)
  | intended call found prepared hfound hprepared hadm =>
    obtain ⟨row, hrow, hid, hintent⟩ := hr
    obtain ⟨old, hold, heq⟩ := Table.mem_modify.mp hrow
    split at heq
    · next hcall =>
      -- this call claimed the release
      right
      subst heq
      have htype : call.intent.type = .release := Option.some.inj hintent
      have hstate := Store.preparedState_of_find? hprepared
      rw [hadm.prepared_state, htype] at hstate
      have : old = found := by
        rw [← hcall, Table.find?_of_mem hold] at hfound
        exact Option.some.inj hfound
      rw [← this] at hstate
      rw [← hid]
      exact hstate
    · exact .inl ⟨old, hold, heq ▸ hid, heq ▸ hintent⟩
  | refunded refund t _ hins =>
    obtain ⟨rfl, -⟩ | ⟨rfl, -⟩ := Store.insertRefundReceiptLocked_ok hins <;> exact .inl hr
  | completed refund record t _ _ _ _ hins =>
    obtain ⟨rfl, -⟩ | ⟨rfl, -⟩ := Store.insertRefundReceiptLocked_ok hins <;> exact .inl hr

theorem Store.Excludes.step (h : Step P s s') (hs : s.Excludes) : s'.Excludes where
  linked := hs.linked.step h
  invoked transition hmem hto := by
    rcases h.recorded hmem with hold | hnew
    · exact h.invoked (hs.invoked transition hold hto)
    · exact ⟨_, hnew, by rw [hto]; rfl⟩
  released receipt hmem hstatus := by
    rcases h.receipted hmem hstatus with hold | hnew
    · obtain hsame | ⟨_, _, hlegal, _⟩ := h.decision (hs.released receipt hold hstatus)
      · exact hsame
      · cases hlegal
    · exact hnew
  sealed preparedId hr := by
    rcases h.releases hr with hold | hreserved
    · exact h.sealed hs.linked (hs.sealed preparedId hold)
    · exact ⟨_, hreserved, nofun, nofun, fun _ => hr⟩

/-! ## Runs -/

section Runs

variable {crypto : Crypto}

theorem Store.Excludes.run (hs : s.Excludes) (ops : List StoreOp) :
    (Lib.run (Store.apply crypto) s ops).Excludes :=
  Store.run_invariant (P := fun _ _ => True) (fun _ _ h hs => hs.step h) hs (admissible_true s ops)

theorem Store.Invoked.run {preparedId : String} (hs : s.Invoked preparedId) (ops : List StoreOp) :
    (Lib.run (Store.apply crypto) s ops).Invoked preparedId := by
  have hstep : ∀ t t', Step (fun _ _ => True) t t' → t.Invoked preparedId → t'.Invoked preparedId :=
    fun _ _ h => h.invoked
  exact Store.run_invariant hstep hs (admissible_true s ops)

theorem Store.Sealed.run {preparedId : String} (hs : s.Linked) (hsealed : s.Sealed preparedId)
    (ops : List StoreOp) : (Lib.run (Store.apply crypto) s ops).Sealed preparedId := by
  have hstep : ∀ t t', Step (fun _ _ => True) t t' → t.Linked ∧ t.Sealed preparedId →
      t'.Linked ∧ t'.Sealed preparedId := fun _ _ h ht => ⟨ht.1.step h, h.sealed ht.1 ht.2⟩
  exact (Store.run_invariant hstep ⟨hs, hsealed⟩ (admissible_true s ops)).2

theorem Store.apply_of_isOk {op : StoreOp} (h : (op.exec crypto s).isOk) :
    ∃ s', op.exec crypto s = .ok ((), s') ∧ s.apply crypto op = s' := by
  cases hexec : op.exec crypto s with
  | error e =>
    rw [hexec] at h
    cases h
  | ok p => exact ⟨p.2, rfl, by rw [Store.apply, hexec, commit_ok]⟩

theorem Store.Excludes.not_released (hs : s.Excludes) {preparedId : String}
    (hi : s.Invoked preparedId) {receipt : SettlementReceipt} (hmem : receipt ∈ s.settlements)
    (hid : receipt.preparedId = preparedId) : receipt.status ≠ .released := by
  intro hstatus
  obtain ⟨state, hstate, hinvoked⟩ := hi
  rw [← hid, hs.released receipt hmem hstatus, Option.some.injEq] at hstate
  rw [← hstate] at hinvoked
  cases hinvoked

theorem claimPreparedForPaidInvocation_invoked (hs : s.Excludes) {call : PaidInvocation}
    {result : PreparedRouteDecision}
    (h : claimPreparedForPaidInvocation crypto call s = .ok (result, s')) :
    s'.Invoked call.preparedId := by
  obtain ⟨row, payment, token, hrow, -, -, -, hmove⟩ := claimPreparedForPaidInvocation_ok h
  obtain ⟨rfl, hfound⟩ | ⟨rfl, -⟩ := transitionPreparedLocked_ok hmove
  · exact hs.invoked _ (Table.mem_of_find? hfound) rfl
  · exact ⟨_, Store.preparedState_moved (Store.preparedState_of_find? hrow), rfl⟩

theorem claimPaymentIntentV2_releasing {call : IntentCall} {result : PaymentReservationV2}
    {row : PaymentRow} (h : claimPaymentIntentV2 call s = .ok (result, s'))
    (hrow : s.reservations.find? call.reservationId = some row)
    (htype : call.intent.type = .release) : s'.Releasing row.payload.preparedId := by
  simp only [claimPaymentIntentV2, bind_ok, raiseIf_ok, require_ok, exists_const] at h
  obtain ⟨-, found, hfound, prepared, -, h⟩ := h
  obtain rfl : row = found := by
    rw [hrow] at hfound
    exact Option.some.inj hfound
  split at h
  · next hown =>
    simp only [pure_ok, Prod.mk.injEq] at h
    obtain ⟨-, rfl⟩ := h
    refine ⟨row, Table.mem_of_find? hrow, rfl, ?_⟩
    rw [hown.2, Option.map_some, htype]
  · simp only [bind_ok, raiseIf_ok, pure_ok, exists_const, Prod.mk.injEq] at h
    obtain ⟨-, -, -, -, rfl⟩ := h
    refine ⟨call.claimed row, ?_, rfl, congrArg some htype⟩
    have hid := Table.key_of_find? hrow
    exact Table.mem_modify.mpr ⟨row, Table.mem_of_find? hrow, by rw [if_pos hid]⟩

theorem Store.Reachable.excludes (h : s.Reachable crypto) : s.Excludes := by
  obtain ⟨ops, rfl⟩ := h
  exact Store.Excludes.empty.run ops

/-- In every run, a paid invocation rules out a full release for good, and the claim of a release
rules out an invocation for good. -/
theorem invocation_excludes_release (crypto : Crypto) (s : Store) (hs : s.Reachable crypto)
    (later : List StoreOp) :
    (∀ call, ((StoreOp.claimPreparedForPaidInvocation call).exec crypto s).isOk →
      ∀ receipt ∈ (run (Store.apply crypto) (s.apply crypto (.claimPreparedForPaidInvocation call))
        later).settlements, receipt.preparedId = call.preparedId → receipt.status ≠ .released) ∧
    (∀ call row, s.reservations.find? call.reservationId = some row →
      call.intent.type = .release → ((StoreOp.claimPaymentIntent call).exec crypto s).isOk →
      (run (Store.apply crypto) (s.apply crypto (.claimPaymentIntent call)) later).preparedState
        row.payload.preparedId ≠ some .invoking) := by
  constructor
  · intro call hok receipt hmem hid
    obtain ⟨s', hexec, happly⟩ := Store.apply_of_isOk hok
    simp only [StoreOp.exec, StoreM.wrap_ok] at hexec
    obtain ⟨_, hclaim, -⟩ := hexec
    have hi : (s.apply crypto (.claimPreparedForPaidInvocation call)).Invoked call.preparedId :=
      happly ▸ claimPreparedForPaidInvocation_invoked hs.excludes hclaim
    exact (hs.excludes.run (_ :: later)).not_released (hi.run later) hmem hid
  · intro call row hrow htype hok hinvoking
    obtain ⟨s', hexec, happly⟩ := Store.apply_of_isOk hok
    simp only [StoreOp.exec, StoreM.wrap_ok] at hexec
    obtain ⟨_, hclaim, -⟩ := hexec
    have hs' : (s.apply crypto (.claimPaymentIntent call)).Excludes := hs.excludes.run [_]
    have hsealed := hs'.sealed _ (happly ▸ claimPaymentIntentV2_releasing hclaim hrow htype)
    obtain ⟨state, hstate, -, hne, -⟩ := hsealed.run hs'.linked later
    exact hne (Option.some.inj (hstate.symm.trans hinvoking))

/-- An action invoked before its release is asked for, and released before its invocation is. -/
theorem invocation_excludes_release_of_action :
    let crypto := Crypto.ofDigests []
    let s := run (Store.apply crypto) .empty (.importRates :: dollarAction.reserve none none none)
    let invoke := StoreOp.claimPreparedForPaidInvocation dollarAction.invocation
    let release := StoreOp.claimPaymentIntent (dollarAction.intent .release)
    let row := PaymentRow.ofReservation dollarAction.reservation
    (∀ receipt ∈ (run (Store.apply crypto) (s.apply crypto invoke) [release]).settlements,
      receipt.preparedId = dollarAction.invocation.preparedId → receipt.status ≠ .released) ∧
    (run (Store.apply crypto) (s.apply crypto release) [invoke]).preparedState
      row.payload.preparedId ≠ some .invoking := by
  intro crypto s invoke release row
  have hinvoke : (invoke.exec crypto s).isOk := by decide +kernel
  have hrelease : (release.exec crypto s).isOk := by decide +kernel
  have hrow : s.reservations.find? (dollarAction.intent .release).reservationId = some row := by
    decide +kernel
  have hs : s.Reachable crypto := ⟨_, rfl⟩
  clear_value s
  obtain ⟨hinvoked, -⟩ := invocation_excludes_release crypto s hs [release]
  obtain ⟨-, hreleased⟩ := invocation_excludes_release crypto s hs [invoke]
  exact ⟨hinvoked dollarAction.invocation hinvoke,
    hreleased (dollarAction.intent .release) row hrow rfl hrelease⟩

end Runs

end AeepRouter

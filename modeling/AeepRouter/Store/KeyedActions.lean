import AeepRouter.Store.Exclusion

/-!
# One invocation under a key

A caller's key has one record; a prepared decision claimed under the key is bound to it. `KeyChange`
lists what a transaction does to records and bindings, whichever table of operations it belongs to:
it edits one record that is not complete, binds a decision to a key nothing else is bound to, or
drops the record and the binding of a decision that it finds, or leaves, retired. A retired decision
is never invoked and an invoked one never retired, so under a key one decision is invoked at most.
-/

namespace AeepRouter

open Lib

theorem PreparedDecisionState.ne_prepared_of_transition {a b : PreparedDecisionState}
    (h : b ∈ a.transitions) : b ≠ .prepared := by
  cases a <;> cases b <;> revert h <;> decide

namespace Store

/-- A decision that is over without having been invoked. -/
def Retired (s : Store) (preparedId : String) : Prop :=
  s.preparedState preparedId = some .cancelled ∨ s.preparedState preparedId = some .released

def Bound (s : Store) (key preparedId : String) : Prop :=
  ∃ binding ∈ s.actionBindings, binding.idempotencyKey = key ∧ binding.preparedId = preparedId

/-- Bindings have keys of their own, whose records are there. -/
structure Keyed (s : Store) : Prop where
  one_key : ∀ a ∈ s.actionBindings, ∀ b ∈ s.actionBindings,
    a.idempotencyKey = b.idempotencyKey → a = b
  backed : ∀ binding ∈ s.actionBindings, (s.idempotency.find? binding.idempotencyKey).isSome

/-- The decision of a recorded transition has left `PREPARED`. -/
def Begun (s : Store) : Prop :=
  ∀ transition ∈ s.transitions, ∃ state,
    s.preparedState transition.preparedId = some state ∧ state ≠ .prepared

end Store

inductive KeyChange (s s' : Store) : Prop
  | unchanged : s'.idempotency = s.idempotency → s'.actionBindings = s.actionBindings →
      KeyChange s s'
  | opened (record : IdempotencyRecord) : s.idempotency.find? record.idempotencyKey = none →
      s'.idempotency = s.idempotency.insert record → s'.actionBindings = s.actionBindings →
      KeyChange s s'
  | moved (key : String) (record : IdempotencyRecord)
      (f : Table.Rewrite IdempotencyRecord.idempotencyKey) :
      s.idempotency.find? key = some record → record.state ≠ .complete →
      s'.idempotency = s.idempotency.modify key f → s'.actionBindings = s.actionBindings →
      KeyChange s s'
  | dropped (key : String) (record : IdempotencyRecord) :
      s.idempotency.find? key = some record → record.state ≠ .complete → ¬ s.isBound key →
      s'.idempotency = s.idempotency.erase key → s'.actionBindings = s.actionBindings →
      KeyChange s s'
  | bound (call : ActionClaim) :
      (∀ binding ∈ s.actionBindings, binding.preparedId = call.preparedId ∨
        binding.idempotencyKey = call.idempotencyKey →
        binding.preparedId = call.preparedId ∧ binding.idempotencyKey = call.idempotencyKey) →
      s'.idempotency = (call.bind s).idempotency → s'.actionBindings = (call.bind s).actionBindings →
      KeyChange s s'
  | abandoned (binding : PreparedActionIdempotencyRecord) (record : IdempotencyRecord) :
      binding ∈ s.actionBindings →
      s.idempotency.find? binding.idempotencyKey = some record → record.state ≠ .complete →
      s'.idempotency = s.idempotency.erase binding.idempotencyKey →
      s'.actionBindings = s.actionBindings.erase binding.preparedId →
      s'.Retired binding.preparedId → KeyChange s s'

/-! ## What the operations on records change -/

section Exec

variable {s s' : Store}

theorem Store.exists_of_idempotencyIn {key : String} {states : List IdempotencyState}
    (h : s.idempotencyIn key states) (hstates : .complete ∉ states) :
    ∃ record, s.idempotency.find? key = some record ∧ record.state ≠ .complete := by
  obtain ⟨record, hrecord, hstate⟩ := h
  exact ⟨record, hrecord, fun hcomplete => hstates (hcomplete ▸ hstate)⟩

theorem KeyChange.of_idempotencyIn {key : String} {states : List IdempotencyState}
    (h : s.idempotencyIn key states) (hstates : .complete ∉ states)
    (f : Table.Rewrite IdempotencyRecord.idempotencyKey) :
    KeyChange s (s.setIdempotency key f) := by
  obtain ⟨record, hrecord, hstate⟩ := Store.exists_of_idempotencyIn h hstates
  exact .moved key record f hrecord hstate rfl rfl

theorem claimIdempotency_keyChange {key hash : String} {r : Option IdempotencyReport}
    (h : claimIdempotency key hash s = .ok (r, s')) : KeyChange s s' := by
  unfold claimIdempotency at h
  split at h
  · next hnone =>
    cases h
    exact .opened (.new key hash) hnone rfl rfl
  · split at h
    · cases h
    · cases h
      exact .unchanged rfl rfl

theorem completeIdempotency_keyChange {key decisionId status : String} {receiptIds : List String}
    {u : Unit} (h : completeIdempotency key decisionId status receiptIds s = .ok (u, s')) :
    KeyChange s s' := by
  unfold completeIdempotency at h
  split at h
  · next hstate =>
    cases h
    exact .of_idempotencyIn hstate (by decide) _
  · cases h
    exact .unchanged rfl rfl

theorem abandonIdempotency_keyChange {key : String} {u : Unit}
    (h : abandonIdempotency key s = .ok (u, s')) : KeyChange s s' := by
  unfold abandonIdempotency at h
  split at h
  · next hstate =>
    simp only [bind_ok, raiseIf_ok, pure_ok, exists_const, Prod.mk.injEq] at h
    obtain ⟨hfree, -, rfl⟩ := h
    obtain ⟨record, hrecord, hstate⟩ := Store.exists_of_idempotencyIn hstate (by decide)
    exact .dropped key record hrecord hstate hfree rfl rfl
  · cases h
    exact .unchanged rfl rfl

theorem markIdempotencyExecuting_keyChange {key : String} {u : Unit}
    (h : markIdempotencyExecuting key s = .ok (u, s')) : KeyChange s s' := by
  simp only [markIdempotencyExecuting, bind_ok, raiseIf_ok, pure_ok, exists_const,
    Prod.mk.injEq, not_not] at h
  obtain ⟨hstate, -, rfl⟩ := h
  exact .of_idempotencyIn hstate (by decide) _

theorem markIdempotencyIndeterminate_keyChange {key : String} {u : Unit}
    (h : markIdempotencyIndeterminate key s = .ok (u, s')) : KeyChange s s' := by
  unfold markIdempotencyIndeterminate at h
  split at h
  · next hstate =>
    cases h
    exact .of_idempotencyIn hstate (by decide) _
  · cases h
    exact .unchanged rfl rfl

theorem PaymentKeyOp.exec_keyChange {op : PaymentKeyOp} {r : KeyOutcome}
    (h : op.exec s = .ok (r, s')) : KeyChange s s' := by
  cases op with
  | claim operation key digest =>
    simp only [exec, StoreM.wrap_ok, claimPaymentOperation, bind_ok] at h
    obtain ⟨_, ⟨_, -, h⟩, -⟩ := h
    exact claimIdempotency_keyChange h
  | complete operation key resultType resultId =>
    simp only [exec, StoreM.wrap_ok, completePaymentOperation, bind_ok, raiseIf_ok, require_ok,
      exists_const] at h
    obtain ⟨_, ⟨-, key, -, record, hrecord, h⟩, -⟩ := h
    split at h
    · simp only [bind_ok, raiseIf_ok, pure_ok, exists_const, Prod.mk.injEq] at h
      obtain ⟨-, -, rfl⟩ := h
      exact .unchanged rfl rfl
    · next hstate =>
      simp only [pure_ok, Prod.mk.injEq] at h
      obtain ⟨-, rfl⟩ := h
      exact .moved key record _ hrecord hstate rfl rfl
  | markExecuting operation key =>
    simp only [exec, StoreM.wrap_ok, markPaymentOperationExecuting, bind_ok, raiseIf_ok, pure_ok,
      exists_const, Prod.mk.injEq, not_not] at h
    obtain ⟨⟨key, -, hstate, -, rfl⟩, -⟩ := h
    exact .of_idempotencyIn hstate (by decide) _
  | markIndeterminate operation key =>
    simp only [exec, StoreM.wrap_ok, markPaymentOperationIndeterminate, bind_ok] at h
    obtain ⟨_, ⟨_, -, h⟩, -⟩ := h
    exact markIdempotencyIndeterminate_keyChange h
  | abandon operation key =>
    simp only [exec, StoreM.wrap_ok, abandonPaymentOperation, bind_ok] at h
    obtain ⟨_, ⟨_, -, h⟩, -⟩ := h
    exact abandonIdempotency_keyChange h
  | get operation key =>
    simp only [exec, StoreM.wrap_ok, getPaymentOperation, bind_ok, pure_ok, Prod.mk.injEq] at h
    obtain ⟨_, ⟨_, -, -, rfl⟩, -⟩ := h
    exact .unchanged rfl rfl

theorem AbandonCall.retire_retired {call : AbandonCall} {row : PreparedRow} (hs : s.Begun)
    (hrow : s.prepared.find? call.preparedId = some row) (h : call.retire s row = .ok s') :
    s'.Retired call.preparedId ∧ s'.idempotency = s.idempotency ∧
      s'.actionBindings = s.actionBindings := by
  have hstate := Store.preparedState_of_find? hrow
  unfold AbandonCall.retire at h
  split at h
  · next hprepared =>
    simp only [bind_ok, raiseIf_ok, exists_const] at h
    obtain ⟨-, -, hmove⟩ := h
    obtain ⟨rfl, hfound⟩ | ⟨rfl, -⟩ := transitionPreparedLocked_ok hmove
    · -- a transition recorded before would have moved the decision
      obtain ⟨state, hbegun, hne⟩ := hs _ (Table.mem_of_find? hfound)
      rw [hstate, hprepared, Option.some.injEq] at hbegun
      exact absurd hbegun.symm hne
    · exact ⟨.inl (Store.preparedState_moved hstate), rfl, rfl⟩
  · next hreleased =>
    simp only [bind_ok, raiseIf_ok, pure_ok, exists_const] at h
    obtain ⟨-, rfl⟩ := h
    exact ⟨.inr (hreleased ▸ hstate), rfl, rfl⟩
  · cases h

theorem ActionOp.exec_keyChange {op : ActionOp} {r : KeyOutcome} (hs : s.Begun)
    (h : op.exec s = .ok (r, s')) : KeyChange s s' := by
  cases op with
  | claim key hash =>
    simp only [exec, StoreM.wrap_ok] at h
    obtain ⟨_, h, -⟩ := h
    exact claimIdempotency_keyChange h
  | complete key decisionId status receiptIds =>
    simp only [exec, StoreM.wrap_ok] at h
    obtain ⟨_, h, -⟩ := h
    exact completeIdempotency_keyChange h
  | abandon key =>
    simp only [exec, StoreM.wrap_ok] at h
    obtain ⟨_, h, -⟩ := h
    exact abandonIdempotency_keyChange h
  | markExecuting key =>
    simp only [exec, StoreM.wrap_ok] at h
    obtain ⟨_, h, -⟩ := h
    exact markIdempotencyExecuting_keyChange h
  | markIndeterminate key =>
    simp only [exec, StoreM.wrap_ok] at h
    obtain ⟨_, h, -⟩ := h
    exact markIdempotencyIndeterminate_keyChange h
  | claimPrepared call =>
    simp only [exec, StoreM.wrap_ok, claimPreparedDecisionWithActionIdempotency, bind_ok,
      require_ok, ActionClaim.checkKey, raiseIf_ok, exists_const, not_not] at h
    obtain ⟨_, ⟨-, -, row, -, -, -, ⟨-, hbindings⟩, h⟩, -⟩ := h
    have hfree : ∀ binding ∈ s.actionBindings, binding.preparedId = call.preparedId ∨
        binding.idempotencyKey = call.idempotencyKey →
        binding.preparedId = call.preparedId ∧ binding.idempotencyKey = call.idempotencyKey := by
      intro binding hmem hshared
      have hlisted : binding ∈ s.bindingsOf call.preparedId call.idempotencyKey := by
        simpa [Store.bindingsOf, Table.mem_def] using And.intro hmem hshared
      obtain ⟨hid, hkey, -⟩ := hbindings binding hlisted
      exact ⟨hid, hkey⟩
    split at h
    · simp only [bind_ok, raiseIf_ok, pure_ok, exists_const, Prod.mk.injEq] at h
      obtain ⟨-, -, rfl⟩ := h
      exact .bound call hfree rfl rfl
    · simp only [pure_ok, Prod.mk.injEq] at h
      obtain ⟨-, rfl⟩ := h
      exact .bound call hfree rfl rfl
  | bindPrepared call =>
    simp only [exec, StoreM.wrap_ok, bindPreparedActionIdempotency, bind_ok, require_ok] at h
    obtain ⟨_, ⟨-, -, -, -, row, -, -, -, h⟩, -⟩ := h
    split at h
    · cases h
    · simp only [bind_ok, raiseIf_ok, pure_ok, exists_const, Prod.mk.injEq] at h
      obtain ⟨-, -, rfl⟩ := h
      exact .unchanged rfl rfl
    · cases h
  | abandonPrepared call =>
    simp only [exec, StoreM.wrap_ok, abandonPreparedActionIdempotency, bind_ok, raiseIf_ok,
      require_ok, pure_ok, exists_const, Prod.mk.injEq, ne_eq, not_not] at h
    obtain ⟨_, ⟨row, hrow, binding, hbinding, record, hrecord, -, -, hclaimed, t, hretire, -, -, -,
      rfl⟩, -⟩ := h
    obtain ⟨hretired, hrecords, hbindings⟩ := AbandonCall.retire_retired hs hrow hretire
    have hid := Table.key_of_find? hbinding
    refine .abandoned binding record (Table.mem_of_find? hbinding) hrecord ?_ ?_ ?_ ?_
    · rw [hclaimed]
      intro hmissing
      cases hmissing
    · rw [← hrecords]
    · rw [hid, ← hbindings]
    · rw [hid]
      exact hretired
  | completePrepared call =>
    simp only [exec, StoreM.wrap_ok, completePreparedActionIdempotency, bind_ok, raiseIf_ok,
      require_ok, exists_const, Option.filter_eq_some_iff] at h
    obtain ⟨_, ⟨binding, -, row, -, -, receipt, -, -, -, record, ⟨hrecord, -⟩, h⟩, -⟩ := h
    split at h
    · simp only [bind_ok, raiseIf_ok, pure_ok, exists_const, Prod.mk.injEq] at h
      obtain ⟨-, -, rfl⟩ := h
      exact .unchanged rfl rfl
    · next hstate =>
      simp only [pure_ok, Prod.mk.injEq] at h
      obtain ⟨-, rfl⟩ := h
      exact .moved binding.idempotencyKey record _ hrecord hstate rfl rfl

/-- Every transaction changes records and bindings in one of these ways. -/
theorem Store.apply_keyChange (crypto : Crypto) (hs : s.Begun) (op : StoreOp) :
    KeyChange s (s.apply crypto op) := by
  by_cases hkeys : op.onKeys
  · refine commit_induction (.unchanged rfl rfl) fun u s' h => ?_
    cases op with
    | action op =>
      simp only [StoreOp.exec, StoreM.wrap_ok] at h
      obtain ⟨_, h, -⟩ := h
      exact op.exec_keyChange hs h
    | paymentKey op =>
      simp only [StoreOp.exec, StoreM.wrap_ok] at h
      obtain ⟨_, h, -⟩ := h
      exact op.exec_keyChange h
    | _ => cases hkeys
  · obtain ⟨hrecords, hbindings⟩ := Store.apply_keys crypto s hkeys
    exact .unchanged hrecords hbindings

end Exec

/-! ## What the changes keep -/

section Changes

variable {P : Store → StoreOp → Prop} {s s' : Store}

theorem Store.Begun.empty : Store.empty.Begun := fun _ h => absurd h Table.not_mem_empty

theorem Store.Begun.step (hs : s.Begun) (h : Step P s s') : s'.Begun := by
  intro transition hmem
  rcases h.recorded hmem with hold | hnew
  · obtain ⟨state, hstate, hne⟩ := hs transition hold
    obtain hsame | ⟨state', hnext, hlegal, -⟩ := h.decision hstate
    · exact ⟨state, hsame, hne⟩
    · exact ⟨state', hnext, PreparedDecisionState.ne_prepared_of_transition hlegal⟩
  · exact ⟨_, hnew, PreparedDecisionState.ne_prepared_of_transition transition.legal⟩

theorem Step.retired (h : Step P s s') {preparedId : String} (hr : s.Retired preparedId) :
    s'.Retired preparedId := by
  rcases hr with hstate | hstate
  · obtain hsame | ⟨_, _, hlegal, _⟩ := h.decision hstate
    · exact .inl hsame
    · cases hlegal
  · obtain hsame | ⟨_, _, hlegal, _⟩ := h.decision hstate
    · exact .inr hsame
    · cases hlegal

theorem Store.Retired.not_invoked {preparedId : String} (hr : s.Retired preparedId) :
    ¬ s.Invoked preparedId := by
  rintro ⟨state, hstate, hinvoked⟩
  rcases hr with hr | hr <;> rw [hr] at hstate <;> obtain rfl := Option.some.inj hstate <;>
    cases hinvoked

theorem Store.Keyed.empty : Store.empty.Keyed where
  one_key _ h := absurd h Table.not_mem_empty
  backed _ h := absurd h Table.not_mem_empty

namespace KeyChange

theorem isSome_insert {t : Table IdempotencyRecord IdempotencyRecord.idempotencyKey}
    {record : IdempotencyRecord} {key : String}
    (h : (t.find? key).isSome ∨ key = record.idempotencyKey) :
    ((t.insert record).find? key).isSome := by
  rw [Table.edits_insert t record key]
  split
  · cases t.find? record.idempotencyKey <;> rfl
  · next hne => exact h.resolve_right hne

theorem mem_bind {call : ActionClaim} {binding : PreparedActionIdempotencyRecord}
    (h : binding ∈ (call.bind s).actionBindings) :
    binding ∈ s.actionBindings ∨
      binding = ⟨call.preparedId, call.idempotencyKey, call.actionDigest, call.claimedAt⟩ ∧
        s.actionBindings.find? call.preparedId = none :=
  Table.mem_or_new_of_mem_insert h

theorem keyed (h : KeyChange s s') (hs : s.Keyed) : s'.Keyed := by
  cases h with
  | unchanged hr hb => exact ⟨hb ▸ hs.one_key, hr ▸ hb ▸ hs.backed⟩
  | opened record _ hr hb =>
    refine ⟨hb ▸ hs.one_key, fun binding hmem => ?_⟩
    rw [hr]
    exact isSome_insert (.inl (hs.backed binding (hb ▸ hmem)))
  | moved key record f _ _ hr hb =>
    refine ⟨hb ▸ hs.one_key, fun binding hmem => ?_⟩
    have := hs.backed binding (hb ▸ hmem)
    rw [hr, Table.find?_modify]
    split
    · next heq =>
      rw [← heq, Option.isSome_map]
      exact this
    · exact this
  | dropped key record _ _ hfree hr hb =>
    refine ⟨hb ▸ hs.one_key, fun binding hmem => ?_⟩
    rw [hr, Table.find?_erase, if_neg]
    · exact hs.backed binding (hb ▸ hmem)
    · exact fun heq => hfree ⟨binding, hb ▸ hmem, heq⟩
  | bound call hfree hr hb =>
    constructor
    · intro a ha b hb' hkey
      rw [hb] at ha hb'
      rcases mem_bind ha with ha | ⟨rfl, hnone⟩ <;> rcases mem_bind hb' with hb' | ⟨rfl, hnone'⟩
      · exact hs.one_key a ha b hb' hkey
      · exact absurd (hfree a ha (.inr hkey)).1 (Table.find?_eq_none.mp hnone' a ha)
      · exact absurd (hfree b hb' (.inr hkey.symm)).1 (Table.find?_eq_none.mp hnone b hb')
      · rfl
    · intro binding hmem
      rw [hb] at hmem
      rw [hr]
      rcases mem_bind hmem with hmem | ⟨rfl, -⟩
      · exact isSome_insert (.inl (hs.backed binding hmem))
      · exact isSome_insert (.inr rfl)
  | abandoned binding record hmem _ _ hr hb _ =>
    constructor
    · intro a ha b hb' hkey
      rw [hb, Table.mem_erase] at ha hb'
      exact hs.one_key a ha.1 b hb'.1 hkey
    · intro other hother
      rw [hb, Table.mem_erase] at hother
      rw [hr, Table.find?_erase, if_neg]
      · exact hs.backed other hother.1
      · intro heq
        exact hother.2 (congrArg _ (hs.one_key other hother.1 binding hmem heq))

theorem bound_or_retired (h : KeyChange s s') {key preparedId : String}
    (hs : s.Bound key preparedId) : s'.Bound key preparedId ∨ s'.Retired preparedId := by
  obtain ⟨binding, hmem, hkey, hid⟩ := hs
  cases h with
  | unchanged _ hb => exact .inl ⟨binding, hb ▸ hmem, hkey, hid⟩
  | opened _ _ _ hb => exact .inl ⟨binding, hb ▸ hmem, hkey, hid⟩
  | moved _ _ _ _ _ _ hb => exact .inl ⟨binding, hb ▸ hmem, hkey, hid⟩
  | dropped _ _ _ _ _ _ hb => exact .inl ⟨binding, hb ▸ hmem, hkey, hid⟩
  | bound call _ _ hb => exact .inl ⟨binding, hb ▸ Table.mem_insert_of_mem hmem, hkey, hid⟩
  | abandoned other record _ _ _ _ hb hretired =>
    by_cases hthis : preparedId = other.preparedId
    · exact .inr (hthis ▸ hretired)
    · refine .inl ⟨binding, ?_, hkey, hid⟩
      rw [hb]
      exact Table.mem_erase.mpr ⟨hmem, hid ▸ hthis⟩

theorem complete (h : KeyChange s s') {key : String} {record : IdempotencyRecord}
    (hrecord : s.idempotency.find? key = some record) (hstate : record.state = .complete) :
    s'.idempotency.find? key = some record := by
  -- an edit at a key whose record is not complete is one at another key
  have hother : ∀ {k : String} {r : IdempotencyRecord}, s.idempotency.find? k = some r →
      r.state ≠ .complete → key ≠ k := by
    rintro k r hr hne rfl
    rw [hrecord] at hr
    exact hne (Option.some.inj hr ▸ hstate)
  have hinsert : ∀ r, (s.idempotency.insert r).find? key = some record := by
    intro r
    rw [Table.edits_insert s.idempotency r key]
    split
    · next heq =>
      rw [← heq, hrecord]
      rfl
    · exact hrecord
  cases h with
  | unchanged hr => rw [hr, hrecord]
  | opened r _ hr => rw [hr, hinsert]
  | moved k r f hk hne hr => rw [hr, Table.find?_modify_ne (hother hk hne), hrecord]
  | dropped k r hk hne _ hr => rw [hr, Table.find?_erase, if_neg (hother hk hne), hrecord]
  | bound call _ hr => exact hr ▸ hinsert _
  | abandoned binding r _ hk hne hr => rw [hr, Table.find?_erase, if_neg (hother hk hne), hrecord]

end KeyChange

end Changes

/-! ## Runs -/

def ClaimedUnder (crypto : Crypto) (ops : List StoreOp) (key preparedId : String) : Prop :=
  ∃ before call after, ops = before ++ .action (.claimPrepared call) :: after ∧
    call.idempotencyKey = key ∧ call.preparedId = preparedId ∧
    ((StoreOp.action (.claimPrepared call)).exec crypto
      (run (Store.apply crypto) .empty before)).isOk

/-- A prepared decision that enters `INVOKING` in the course of a run. -/
def EntersInvoking (crypto : Crypto) (ops : List StoreOp) (preparedId : String) : Prop :=
  ∃ before after, ops = before ++ after ∧
    (run (Store.apply crypto) .empty before).preparedState preparedId = some .invoking

section Runs

variable {crypto : Crypto} {s : Store} {key preparedId : String}

theorem Store.Begun.run (hs : s.Begun) (ops : List StoreOp) :
    (Lib.run (Store.apply crypto) s ops).Begun := by
  have hstep : ∀ t t', Step (fun _ _ => True) t t' → t.Begun → t'.Begun := fun _ _ h ht => ht.step h
  exact Store.run_invariant hstep hs (admissible_true s ops)

theorem Store.Keyed.run (hs : s.Begun) (hk : s.Keyed) (ops : List StoreOp) :
    (Lib.run (Store.apply crypto) s ops).Keyed := by
  have hstep : ∀ (t : Store) (op : StoreOp), t.Begun ∧ t.Keyed →
      (t.apply crypto op).Begun ∧ (t.apply crypto op).Keyed :=
    fun t op ht => ⟨ht.1.run [op], (Store.apply_keyChange crypto ht.1 op).keyed ht.2⟩
  exact (Lib.run_invariant hstep ops ⟨hs, hk⟩).2

theorem Store.Retired.run (hs : s.Retired preparedId) (ops : List StoreOp) :
    (Lib.run (Store.apply crypto) s ops).Retired preparedId := by
  have hstep : ∀ t t', Step (fun _ _ => True) t t' → t.Retired preparedId → t'.Retired preparedId :=
    fun _ _ h => h.retired
  exact Store.run_invariant hstep hs (admissible_true s ops)

theorem Store.Bound.run (hs : s.Begun) (hb : s.Bound key preparedId) (ops : List StoreOp) :
    (Lib.run (Store.apply crypto) s ops).Bound key preparedId ∨
      (Lib.run (Store.apply crypto) s ops).Retired preparedId := by
  induction ops generalizing s with
  | nil => exact .inl hb
  | cons op ops ih =>
    rcases (Store.apply_keyChange crypto hs op).bound_or_retired hb with hb | hr
    · exact ih (hs.run [op]) hb
    · exact .inr (hr.run ops)

theorem Store.complete_run (hs : s.Begun) {record : IdempotencyRecord}
    (hrecord : s.idempotency.find? key = some record) (hstate : record.state = .complete)
    (ops : List StoreOp) :
    (Lib.run (Store.apply crypto) s ops).idempotency.find? key = some record := by
  induction ops generalizing s with
  | nil => exact hrecord
  | cons op ops ih =>
    exact ih (hs.run [op]) ((Store.apply_keyChange crypto hs op).complete hrecord hstate)

theorem claimPrepared_bound {call : ActionClaim}
    (h : ((StoreOp.action (.claimPrepared call)).exec crypto s).isOk) :
    (s.apply crypto (.action (.claimPrepared call))).Bound call.idempotencyKey call.preparedId := by
  obtain ⟨s', hexec, happly⟩ := Store.apply_of_isOk h
  simp only [StoreOp.exec, ActionOp.exec, StoreM.wrap_ok,
    claimPreparedDecisionWithActionIdempotency, bind_ok, require_ok, ActionClaim.checkKey,
    raiseIf_ok, exists_const, not_not] at hexec
  obtain ⟨_, ⟨_, ⟨-, -, row, -, -, -, ⟨-, hbindings⟩, hexec⟩, -⟩, -⟩ := hexec
  have hbound : (call.bind s).Bound call.idempotencyKey call.preparedId := by
    cases hfind : s.actionBindings.find? call.preparedId with
    | none => exact ⟨_, (Table.mem_insert hfind).mpr (.inr rfl), rfl, rfl⟩
    | some binding =>
      have hmem := Table.mem_of_find? hfind
      have hid : binding.preparedId = call.preparedId := Table.key_of_find? hfind
      have hlisted : binding ∈ s.bindingsOf call.preparedId call.idempotencyKey := by
        simpa [Store.bindingsOf, Table.mem_def, hid] using hmem
      exact ⟨binding, Table.mem_insert_of_mem hmem, (hbindings binding hlisted).2.1, hid⟩
  rw [happly]
  split at hexec
  · simp only [bind_ok, raiseIf_ok, pure_ok, exists_const, Prod.mk.injEq] at hexec
    obtain ⟨-, -, rfl⟩ := hexec
    exact hbound
  · simp only [pure_ok, Prod.mk.injEq] at hexec
    obtain ⟨-, rfl⟩ := hexec
    exact hbound

theorem bound_of_invoked {ops : List StoreOp} (hclaimed : ClaimedUnder crypto ops key preparedId)
    (hinvoking : EntersInvoking crypto ops preparedId) :
    (run (Store.apply crypto) .empty ops).Bound key preparedId := by
  have hinvoked : (run (Store.apply crypto) .empty ops).Invoked preparedId := by
    obtain ⟨before, after, rfl, hstate⟩ := hinvoking
    rw [run_append]
    exact Store.Invoked.run ⟨_, hstate, rfl⟩ after
  obtain ⟨before, call, after, rfl, rfl, rfl, hok⟩ := hclaimed
  have hbegun : (run (Store.apply crypto) .empty before).Begun := Store.Begun.empty.run before
  rw [run_append, run_cons] at hinvoked ⊢
  exact (Store.Bound.run (hbegun.run [_]) (claimPrepared_bound hok) after).resolve_right
    fun hretired => hretired.not_invoked hinvoked

/-- In every run from an empty store: of the decisions claimed under a key at most one enters
`INVOKING`; from then on the key has its record and is bound to that decision alone; and a complete
record never changes. -/
theorem one_invocation_per_key (crypto : Crypto) (ops : List StoreOp) (key : String) :
    (∀ preparedId preparedId', ClaimedUnder crypto ops key preparedId →
      ClaimedUnder crypto ops key preparedId' → EntersInvoking crypto ops preparedId →
      EntersInvoking crypto ops preparedId' → preparedId = preparedId') ∧
    (∀ preparedId later, ClaimedUnder crypto ops key preparedId →
      EntersInvoking crypto ops preparedId →
      ((run (Store.apply crypto) .empty (ops ++ later)).idempotency.find? key).isSome ∧
      (run (Store.apply crypto) .empty (ops ++ later)).Bound key preparedId ∧
      ∀ other, (run (Store.apply crypto) .empty (ops ++ later)).Bound key other →
        other = preparedId) ∧
    (∀ record later, (run (Store.apply crypto) .empty ops).idempotency.find? key = some record →
      record.state = .complete →
      (run (Store.apply crypto) .empty (ops ++ later)).idempotency.find? key = some record) := by
  have hkeyed : ∀ ops, (run (Store.apply crypto) .empty ops).Keyed :=
    Store.Keyed.empty.run Store.Begun.empty
  have hunique : ∀ {ops : List StoreOp} {a b : String},
      (run (Store.apply crypto) .empty ops).Bound key a →
      (run (Store.apply crypto) .empty ops).Bound key b → a = b := by
    rintro ops _ _ ⟨x, hx, hxkey, rfl⟩ ⟨y, hy, hykey, rfl⟩
    rw [(hkeyed ops).one_key x hx y hy (hxkey.trans hykey.symm)]
  refine ⟨fun a b ha hb hia hib => hunique (bound_of_invoked ha hia) (bound_of_invoked hb hib),
    fun preparedId later hclaimed hinvoking => ?_, fun record later hrecord hstate => ?_⟩
  · -- the claim and the invocation are those of the longer run as well
    have hbound : (run (Store.apply crypto) .empty (ops ++ later)).Bound key preparedId := by
      obtain ⟨before, call, after, rfl, hclaim⟩ := hclaimed
      obtain ⟨before', after', hsplit, hstate⟩ := hinvoking
      refine bound_of_invoked ⟨before, call, after ++ later, by simp, hclaim⟩
        ⟨before', after' ++ later, ?_, hstate⟩
      rw [hsplit, List.append_assoc]
    refine ⟨?_, hbound, fun other hother => hunique hother hbound⟩
    obtain ⟨binding, hmem, rfl, -⟩ := hbound
    exact (hkeyed _).backed binding hmem
  · rw [run_append]
    exact Store.complete_run (Store.Begun.empty.run ops) hrecord hstate later

/-- An action claimed under a key and invoked, and an abandonment that comes too late. -/
theorem one_invocation_per_key_of_action :
    let crypto := Crypto.ofDigests []
    let claim := StoreOp.action (.claimPrepared
      ⟨"action", "action", 0, "key", PaidAction.fingerprint⟩)
    let reserve := StoreOp.reservePayment
      ⟨dollarAction.reservation, "action", none, none, true, none, "reserve"⟩
    let invoke := StoreOp.claimPreparedForPaidInvocation dollarAction.invocation
    let abandon := StoreOp.action (.abandonPrepared
      ⟨"action", PaidAction.fingerprint, 1, some "action", "abandon"⟩)
    ((run (Store.apply crypto) .empty
      ([.importRates, .savePreparedDecision dollarAction.decision, claim, reserve, invoke] ++
        [abandon])).idempotency.find? "key").isSome := by
  intro crypto claim reserve invoke abandon
  refine ((one_invocation_per_key crypto _ "key").2.1 "action" _ ?_ ?_).1
  · exact ⟨[.importRates, .savePreparedDecision dollarAction.decision], _, [reserve, invoke], rfl,
      rfl, rfl, by decide +kernel⟩
  · exact ⟨_, [], (List.append_nil _).symm, by decide +kernel⟩

end Runs

end AeepRouter

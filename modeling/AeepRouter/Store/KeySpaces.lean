import AeepRouter.Lib.Noninterference
import AeepRouter.Store.Step

/-!
# The keys of actions and of payment operations

Both kinds of key live in one table of texts. A run of their operations is split into the actions
and the payment operations; two runs with the same actions must give the actions the same results,
whatever payment operations they contain, and conversely. That holds for all runs in which no key
of an action is the text of a payment key (`key_spaces_separate`): an operation on a key the other
side does not use is hidden from it.
-/

namespace AeepRouter

open Lib

/-! ## Operations -/

def ActionOp.key : ActionOp → Option String
  | claim key _ | complete key _ _ _ | abandon key | markExecuting key | markIndeterminate key =>
    some key
  | claimPrepared call => some call.idempotencyKey
  | bindPrepared call => some call.idempotencyKey
  | abandonPrepared _ | completePrepared _ => none

def PaymentKeyOp.key (op : PaymentKeyOp) : Option String :=
  (paymentOperationKey op.name.1 op.name.2).toOption

/-- An operation on the records of keys, or what other operations leave in the other tables. -/
inductive KeyOp where
  | action (op : ActionOp)
  | payment (op : PaymentKeyOp)
  | elsewhere (tables : Store)

namespace KeyOp

def actionKey : KeyOp → Option String
  | action op => op.key
  | _ => none

def paymentKey : KeyOp → Option String
  | payment op => op.key
  | _ => none

/-- The payment operations of a run. -/
def isPayment : KeyOp → Prop
  | payment _ => True
  | _ => False

instance : DecidablePred isPayment := fun op => by cases op <;> unfold isPayment <;> infer_instance

def step (s : Store) : KeyOp → Store
  | action op => commit (op.exec s) s
  | payment op => commit (op.exec s) s
  | elsewhere tables =>
    { tables with idempotency := s.idempotency, actionBindings := s.actionBindings }

/-- What an operation returns or raises. -/
def output (s : Store) : KeyOp → Option (Result KeyOutcome)
  | action op => some ((op.exec s).map Prod.fst)
  | payment op => some ((op.exec s).map Prod.fst)
  | elsewhere _ => none

/-- An operation whose key, as an action, meets a condition and, as a payment, does not. -/
def Separate (p : String → Prop) (op : KeyOp) : Prop :=
  (∀ key ∈ op.actionKey, p key) ∧ ∀ key ∈ op.paymentKey, ¬ p key

end KeyOp

/-! ## Relations of stores -/

/-- A relation of stores that have the same records for the keys that meet a condition and may
change them alike. -/
structure RecordRelation (p : String → Prop) (R : Store → Store → Prop) : Prop where
  records : ∀ {s t}, R s t → s.idempotency.Agree p t.idempotency
  bound : ∀ {s t key}, R s t → p key → (s.isBound key ↔ t.isBound key)
  set : ∀ {s t i j}, R s t → i.Agree p j →
    R { s with idempotency := i } { t with idempotency := j }

section Records

variable {p : String → Prop} {R : Store → Store → Prop} {s t : Store} {key : String}

theorem RecordRelation.edit (hR : RecordRelation p R) (h : R s t) (hp : p key)
    (f : Table.Rewrite IdempotencyRecord.idempotencyKey) :
    R (s.setIdempotency key f) (t.setIdempotency key f) :=
  hR.set h ((hR.records h).edit hp (Table.edits_modify _ _ f) (Table.edits_modify _ _ f))

theorem RecordRelation.idempotencyIn (hR : RecordRelation p R) (h : R s t) (hp : p key)
    (states : List IdempotencyState) : s.idempotencyIn key states ↔ t.idempotencyIn key states := by
  unfold Store.idempotencyIn
  rw [hR.records h key hp]

theorem claimIdempotency_paired (hR : RecordRelation p R) (h : R s t) (hp : p key) (hash : String) :
    Paired R (claimIdempotency key hash s) (claimIdempotency key hash t) := by
  have hrecords := hR.records h
  unfold claimIdempotency
  rw [hrecords key hp]
  split
  · exact .ok none (hR.set h (hrecords.edit hp (Table.edits_insert s.idempotency (.new key hash))
      (Table.edits_insert t.idempotency (.new key hash))))
  · split
    · exact .error _
    · exact .ok _ h

theorem completeIdempotency_paired (hR : RecordRelation p R) (h : R s t) (hp : p key)
    (decisionId status : String) (receiptIds : List String) :
    Paired R (completeIdempotency key decisionId status receiptIds s)
      (completeIdempotency key decisionId status receiptIds t) := by
  unfold completeIdempotency
  simp only [hR.idempotencyIn h hp]
  split
  · exact .ok () (hR.edit h hp _)
  · exact .ok () h

theorem abandonIdempotency_paired (hR : RecordRelation p R) (h : R s t) (hp : p key) :
    Paired R (abandonIdempotency key s) (abandonIdempotency key t) := by
  unfold abandonIdempotency
  simp only [hR.idempotencyIn h hp, hR.bound h hp]
  split
  · refine paired_bind fun _ _ => ?_
    exact .ok () (hR.set h ((hR.records h).edit hp (Table.edits_erase _ _) (Table.edits_erase _ _)))
  · exact .ok () h

theorem markIdempotencyExecuting_paired (hR : RecordRelation p R) (h : R s t) (hp : p key) :
    Paired R (markIdempotencyExecuting key s) (markIdempotencyExecuting key t) := by
  unfold markIdempotencyExecuting
  simp only [hR.idempotencyIn h hp]
  exact paired_bind fun _ _ => .ok () (hR.edit h hp _)

theorem markIdempotencyIndeterminate_paired (hR : RecordRelation p R) (h : R s t) (hp : p key) :
    Paired R (markIdempotencyIndeterminate key s) (markIdempotencyIndeterminate key t) := by
  unfold markIdempotencyIndeterminate
  simp only [hR.idempotencyIn h hp]
  split
  · exact .ok () (hR.edit h hp _)
  · exact .ok () h

theorem Paired.wrap {α β : Type} {m : StoreM α} (h : Paired R (m s) (m t)) (f : α → β) :
    Paired R (m.wrap f s) (m.wrap f t) := h.map f

theorem PaymentKeyOp.exec_paired (hR : RecordRelation p R) (h : R s t) {op : PaymentKeyOp}
    (hp : ∀ key ∈ op.key, p key) : Paired R (op.exec s) (op.exec t) := by
  have hkey : ∀ key, paymentOperationKey op.name.1 op.name.2 = .ok key → p key := by
    intro key hkey
    refine hp key ?_
    unfold PaymentKeyOp.key
    rw [hkey]
    rfl
  cases op with
  | claim operation key digest =>
    simp only [PaymentKeyOp.exec]
    refine Paired.wrap ?_ _
    exact paired_bind fun _ hok => claimIdempotency_paired hR h (hkey _ hok) _
  | complete operation key resultType resultId =>
    simp only [PaymentKeyOp.exec]
    refine Paired.wrap ?_ _
    refine paired_bind fun _ _ => paired_bind fun key hok => ?_
    rw [hR.records h key (hkey key hok)]
    refine paired_bind fun record _ => ?_
    split
    · exact paired_bind fun _ _ => .ok () h
    · exact .ok () (hR.edit h (hkey key hok) _)
  | markExecuting operation key =>
    simp only [PaymentKeyOp.exec]
    refine Paired.wrap ?_ _
    refine paired_bind fun key hok => ?_
    simp only [hR.idempotencyIn h (hkey key hok)]
    exact paired_bind fun _ _ => .ok () (hR.edit h (hkey key hok) _)
  | markIndeterminate operation key =>
    simp only [PaymentKeyOp.exec]
    refine Paired.wrap ?_ _
    exact paired_bind fun _ hok => markIdempotencyIndeterminate_paired hR h (hkey _ hok)
  | abandon operation key =>
    simp only [PaymentKeyOp.exec]
    refine Paired.wrap ?_ _
    exact paired_bind fun _ hok => abandonIdempotency_paired hR h (hkey _ hok)
  | get operation key =>
    simp only [PaymentKeyOp.exec]
    refine Paired.wrap ?_ _
    refine paired_bind fun key hok => ?_
    rw [hR.records h key (hkey key hok)]
    exact .ok _ h

end Records

/-! ## The view of the payment operations -/

/-- Stores a payment operation cannot tell apart: the same records under its keys, and no binding
of an action to one of them. -/
structure PaymentView (p : String → Prop) (s t : Store) : Prop where
  records : s.idempotency.Agree p t.idempotency
  unbound : ∀ binding ∈ s.actionBindings, ¬ p binding.idempotencyKey
  unbound' : ∀ binding ∈ t.actionBindings, ¬ p binding.idempotencyKey

section PaymentView

variable {p : String → Prop} {s t s' : Store}

theorem Store.not_isBound {key : String}
    (h : ∀ binding ∈ s.actionBindings, ¬ p binding.idempotencyKey) (hp : p key) :
    ¬ s.isBound key := by
  rintro ⟨binding, hmem, rfl⟩
  exact h binding hmem hp

theorem paymentView_relation (p : String → Prop) : RecordRelation p (PaymentView p) where
  records h := h.records
  bound h hp := iff_of_false (Store.not_isBound h.unbound hp) (Store.not_isBound h.unbound' hp)
  set h hij := ⟨hij, h.unbound, h.unbound'⟩

/-- A record under another key is out of sight. -/
theorem PaymentView.touches (h : PaymentView p s t) {key : String} (hp : ¬ p key)
    (htouches : s.TouchesKey key s') : PaymentView p s' t := by
  obtain ⟨records, f, rfl, hedits⟩ := htouches
  exact ⟨h.records.edit_left hp hedits, h.unbound, h.unbound'⟩

theorem AbandonCall.retire_keys {call : AbandonCall} {row : PreparedRow}
    (h : call.retire s row = .ok s') :
    s'.idempotency = s.idempotency ∧ s'.actionBindings = s.actionBindings := by
  unfold AbandonCall.retire at h
  split at h
  · simp only [bind_ok, raiseIf_ok, exists_const] at h
    obtain ⟨-, -, hmove⟩ := h
    obtain ⟨rfl, -⟩ | ⟨rfl, -⟩ := transitionPreparedLocked_ok hmove <;> exact ⟨rfl, rfl⟩
  · simp only [bind_ok, raiseIf_ok, pure_ok, exists_const] at h
    obtain ⟨-, rfl⟩ := h
    exact ⟨rfl, rfl⟩
  · cases h

theorem PaymentView.action (h : PaymentView p s t) {op : ActionOp} (hp : ∀ key ∈ op.key, ¬ p key) :
    PaymentView p (commit (op.exec s) s) t := by
  refine commit_induction (P := fun s => PaymentView p s t) h fun outcome s' hexec => ?_
  cases op with
  | claim key hash =>
    simp only [ActionOp.exec, StoreM.wrap_ok] at hexec
    obtain ⟨_, hexec, -⟩ := hexec
    exact h.touches (hp key rfl) (claimIdempotency_touches hexec)
  | complete key decisionId status receiptIds =>
    simp only [ActionOp.exec, StoreM.wrap_ok] at hexec
    obtain ⟨_, hexec, -⟩ := hexec
    exact h.touches (hp key rfl) (completeIdempotency_touches hexec)
  | abandon key =>
    simp only [ActionOp.exec, StoreM.wrap_ok] at hexec
    obtain ⟨_, hexec, -⟩ := hexec
    exact h.touches (hp key rfl) (abandonIdempotency_touches hexec)
  | markExecuting key =>
    simp only [ActionOp.exec, StoreM.wrap_ok] at hexec
    obtain ⟨_, hexec, -⟩ := hexec
    exact h.touches (hp key rfl) (markIdempotencyExecuting_touches hexec)
  | markIndeterminate key =>
    simp only [ActionOp.exec, StoreM.wrap_ok] at hexec
    obtain ⟨_, hexec, -⟩ := hexec
    exact h.touches (hp key rfl) (markIdempotencyIndeterminate_touches hexec)
  | claimPrepared call =>
    have hkey : ¬ p call.idempotencyKey := hp _ rfl
    have hbind : PaymentView p (call.bind s) t := by
      refine ⟨h.records.edit_left hkey (Table.edits_insert s.idempotency
        (.new call.idempotencyKey call.actionDigest)), fun binding hmem => ?_, h.unbound'⟩
      rcases Table.mem_or_eq_of_mem_insert hmem with hmem | rfl
      · exact h.unbound binding hmem
      · exact hkey
    simp only [ActionOp.exec, StoreM.wrap_ok, claimPreparedDecisionWithActionIdempotency, bind_ok,
      require_ok] at hexec
    obtain ⟨_, ⟨-, -, row, -, -, -, -, -, hexec⟩, -⟩ := hexec
    split at hexec
    · simp only [bind_ok, raiseIf_ok, pure_ok, exists_const, Prod.mk.injEq] at hexec
      obtain ⟨-, -, rfl⟩ := hexec
      exact ⟨hbind.records, hbind.unbound, hbind.unbound'⟩
    · simp only [pure_ok, Prod.mk.injEq] at hexec
      obtain ⟨-, rfl⟩ := hexec
      exact hbind
  | bindPrepared call =>
    simp only [ActionOp.exec, StoreM.wrap_ok, bindPreparedActionIdempotency, bind_ok,
      require_ok] at hexec
    obtain ⟨_, ⟨-, -, -, -, row, -, -, -, hexec⟩, -⟩ := hexec
    split at hexec
    · cases hexec
    · simp only [bind_ok, raiseIf_ok, pure_ok, exists_const, Prod.mk.injEq] at hexec
      obtain ⟨-, -, rfl⟩ := hexec
      exact h
    · cases hexec
  | abandonPrepared call =>
    simp only [ActionOp.exec, StoreM.wrap_ok, abandonPreparedActionIdempotency, bind_ok, raiseIf_ok,
      require_ok, pure_ok, exists_const, Prod.mk.injEq] at hexec
    obtain ⟨_, ⟨row, -, binding, hbinding, -, -, -, -, -, r, hretire, retired, -, -, rfl⟩, -⟩ :=
      hexec
    obtain ⟨hrecords, hbindings⟩ := AbandonCall.retire_keys hretire
    have hkey := h.unbound binding (Table.mem_of_find? hbinding)
    refine ⟨?_, fun b hb => ?_, h.unbound'⟩
    · show (r.idempotency.erase _).Agree p t.idempotency
      rw [hrecords]
      exact h.records.edit_left hkey (Table.edits_erase _ _)
    · have hb := (Table.mem_erase.mp hb).1
      rw [hbindings] at hb
      exact h.unbound b hb
  | completePrepared call =>
    simp only [ActionOp.exec, StoreM.wrap_ok, completePreparedActionIdempotency, bind_ok,
      raiseIf_ok, require_ok, exists_const] at hexec
    obtain ⟨_, ⟨binding, hbinding, row, -, -, receipt, -, -, -, record, -, hexec⟩, -⟩ := hexec
    have hkey := h.unbound binding (Table.mem_of_find? hbinding)
    split at hexec
    · simp only [bind_ok, raiseIf_ok, pure_ok, exists_const, Prod.mk.injEq] at hexec
      obtain ⟨-, -, rfl⟩ := hexec
      exact h
    · simp only [pure_ok, Prod.mk.injEq] at hexec
      obtain ⟨-, rfl⟩ := hexec
      exact h.touches hkey (Store.touchesKey_setIdempotency _)

end PaymentView

/-! ## The view of the actions -/

/-- Stores an action cannot tell apart: they differ in the records of other keys, to which no
action is bound. -/
inductive ActionView (p : String → Prop) (s : Store) : Store → Prop where
  | intro (records : Table IdempotencyRecord IdempotencyRecord.idempotencyKey) :
    s.idempotency.Agree p records → (∀ binding ∈ s.actionBindings, p binding.idempotencyKey) →
    ActionView p s { s with idempotency := records }

theorem actionView_relation (p : String → Prop) : RecordRelation p (ActionView p) where
  records h := by
    obtain ⟨records, hagree, -⟩ := h
    exact hagree
  bound h _ := by
    obtain ⟨records, -, -⟩ := h
    exact Iff.rfl
  set h hij := by
    obtain ⟨records, -, hbound⟩ := h
    exact .intro _ hij hbound

section ActionView

variable {p : String → Prop} {s t s' : Store}

theorem ActionView.touches (h : ActionView p s t) {key : String} (hp : ¬ p key)
    (htouches : s.TouchesKey key s') : ActionView p s' t := by
  obtain ⟨records, hagree, hbound⟩ := h
  obtain ⟨records', f, rfl, hedits⟩ := htouches
  exact .intro (s := { s with idempotency := records' }) records
    (hagree.edit_left hp hedits) hbound

theorem Store.transitionPreparedLocked_records (s : Store)
    (records : Table IdempotencyRecord IdempotencyRecord.idempotencyKey)
    (transition : PreparedRouteTransition) (token : Option String) :
    ({ s with idempotency := records } : Store).transitionPreparedLocked transition token =
      (s.transitionPreparedLocked transition token).map
        fun s' => { s' with idempotency := records } := by
  unfold Store.transitionPreparedLocked
  cases s.transitions.find? transition.transitionId with
  | some existing =>
    by_cases h : existing = transition
    · simp [h, Except.map]
    · simp [h, Except.map]
  | none =>
    simp only [bind_map]
    rfl

theorem AbandonCall.retire_records (call : AbandonCall) (s : Store)
    (records : Table IdempotencyRecord IdempotencyRecord.idempotencyKey) (row : PreparedRow) :
    call.retire { s with idempotency := records } row =
      (call.retire s row).map fun s' => { s' with idempotency := records } := by
  unfold AbandonCall.retire
  split
  · simp only [bind_map, Store.transitionPreparedLocked_records]
    rfl
  · simp only [bind_map]
    rfl
  · rfl

theorem ActionOp.exec_paired (h : ActionView p s t) {op : ActionOp} (hp : ∀ key ∈ op.key, p key) :
    Paired (ActionView p) (op.exec s) (op.exec t) := by
  have hR := actionView_relation p
  cases op with
  | claim key hash => exact Paired.wrap (claimIdempotency_paired hR h (hp key rfl) hash) _
  | complete key decisionId status receiptIds =>
    simp only [ActionOp.exec]
    exact Paired.wrap (completeIdempotency_paired hR h (hp key rfl) decisionId status receiptIds) _
  | abandon key =>
    simp only [ActionOp.exec]
    exact Paired.wrap (abandonIdempotency_paired hR h (hp key rfl)) _
  | markExecuting key =>
    simp only [ActionOp.exec]
    exact Paired.wrap (markIdempotencyExecuting_paired hR h (hp key rfl)) _
  | markIndeterminate key =>
    simp only [ActionOp.exec]
    exact Paired.wrap (markIdempotencyIndeterminate_paired hR h (hp key rfl)) _
  | claimPrepared call =>
    obtain ⟨records, hagree, hbound⟩ := h
    have hkey : p call.idempotencyKey := hp _ rfl
    have hagree' : (call.bind s).idempotency.Agree p
        (call.bind { s with idempotency := records }).idempotency :=
      hagree.edit hkey
        (Table.edits_insert s.idempotency (.new call.idempotencyKey call.actionDigest))
        (Table.edits_insert records (.new call.idempotencyKey call.actionDigest))
    have hbound' : ∀ binding ∈ (call.bind s).actionBindings, p binding.idempotencyKey := by
      intro binding hmem
      rcases Table.mem_or_eq_of_mem_insert hmem with hmem | rfl
      · exact hbound binding hmem
      · exact hkey
    have hcheck : call.checkKey { s with idempotency := records } = call.checkKey s := by
      unfold ActionClaim.checkKey
      simp only [hagree _ hkey]
      rfl
    simp only [ActionOp.exec]
    refine Paired.wrap ?_ _
    unfold claimPreparedDecisionWithActionIdempotency
    simp only [hcheck]
    refine paired_bind fun _ _ => paired_bind fun row _ => paired_bind fun _ _ =>
      paired_bind fun _ _ => ?_
    split
    · exact paired_bind fun _ _ => .ok _ (.intro
        (s := (call.bind s).setClaim call.preparedId call.claimToken call.claimedAt) _
        hagree' hbound')
    · exact .ok _ (.intro (s := call.bind s) _ hagree' hbound')
  | bindPrepared call =>
    obtain ⟨records, hagree, hbound⟩ := h
    simp only [ActionOp.exec]
    refine Paired.wrap ?_ _
    unfold bindPreparedActionIdempotency
    refine paired_bind fun _ _ => paired_bind fun _ _ => paired_bind fun row _ =>
      paired_bind fun _ _ => ?_
    have hsame : ({ s with idempotency := records } : Store).bindingsOf call.preparedId
        call.idempotencyKey = s.bindingsOf call.preparedId call.idempotencyKey := rfl
    rw [hsame]
    split
    · exact .error _
    · exact paired_bind fun _ _ => .ok _ (.intro _ hagree hbound)
    · exact .error _
  | abandonPrepared call =>
    obtain ⟨records, hagree, hbound⟩ := h
    simp only [ActionOp.exec]
    refine Paired.wrap ?_ _
    unfold abandonPreparedActionIdempotency
    refine paired_bind fun row _ => paired_bind fun binding hbinding => ?_
    have hkey := hbound binding (Table.mem_of_find? (require_ok.mp hbinding))
    rw [hagree _ hkey]
    refine paired_bind fun record _ => paired_bind fun _ _ => paired_bind fun _ _ =>
      paired_bind fun _ _ => ?_
    rw [call.retire_records s records row]
    cases hretire : call.retire s row with
    | error e => exact .error e
    | ok r =>
      obtain ⟨hrecords, hbindings⟩ := AbandonCall.retire_keys hretire
      refine paired_bind (x := demand (r.prepared.find? call.preparedId)
        "prepared action idempotency binding is unavailable") fun retired _ => ?_
      rw [← hrecords] at hagree
      rw [← hbindings] at hbound
      refine .ok _ (.intro (s := { r with
        actionBindings := r.actionBindings.erase call.preparedId
        idempotency := r.idempotency.erase binding.idempotencyKey }) _
        (hagree.edit hkey (Table.edits_erase _ _) (Table.edits_erase _ _)) fun b hb => ?_)
      exact hbound b (Table.mem_erase.mp hb).1
  | completePrepared call =>
    obtain ⟨records, hagree, hbound⟩ := h
    simp only [ActionOp.exec]
    refine Paired.wrap ?_ _
    unfold completePreparedActionIdempotency
    refine paired_bind fun binding hbinding => paired_bind fun row _ => paired_bind fun _ _ =>
      paired_bind fun receipt _ => paired_bind fun _ _ => ?_
    have hkey := hbound binding (Table.mem_of_find? (require_ok.mp hbinding))
    rw [hagree _ hkey]
    refine paired_bind fun record _ => ?_
    split
    · exact paired_bind fun _ _ => .ok _ (.intro _ hagree hbound)
    · exact .ok _ (.intro (s := s.setIdempotency _ _) _ (hagree.edit hkey
        (Table.edits_modify _ _ _) (Table.edits_modify _ _ _)) hbound)

end ActionView

/-! ## Two runs -/

namespace KeyOp

variable {p : String → Prop}

theorem action_unwinding (p : String → Prop) :
    Unwinding step output (fun op => ¬ op.isPayment) (Separate p) (ActionView p) where
  hidden s t op hop hpayment h := by
    cases op with
    | action op => exact absurd not_false hpayment
    | elsewhere tables => exact absurd not_false hpayment
    | payment op =>
      refine commit_induction (P := fun s => ActionView p s t) h fun r s' hexec => ?_
      obtain ⟨key, hkey, htouches⟩ := op.exec_touches hexec
      refine h.touches (hop.2 key ?_) htouches
      show key ∈ (paymentOperationKey _ _).toOption
      rw [hkey]
      rfl
  keeps s t op hop hpayment h := by
    cases op with
    | action op => exact (ActionOp.exec_paired h hop.1).commit h
    | payment op => exact absurd trivial hpayment
    | elsewhere tables =>
      obtain ⟨records, hagree, hbound⟩ := h
      exact .intro (s := step s (.elsewhere tables)) records hagree hbound
  shows s t op hop hpayment h := by
    cases op with
    | action op => exact congrArg some (ActionOp.exec_paired h hop.1).output
    | payment op => exact absurd trivial hpayment
    | elsewhere tables => rfl

theorem payment_unwinding (p : String → Prop) :
    Unwinding step output isPayment (Separate fun key => ¬ p key) (PaymentView p) where
  hidden s t op hop hpayment h := by
    cases op with
    | action op => exact h.action hop.1
    | payment op => exact absurd trivial hpayment
    | elsewhere tables => exact ⟨h.records, h.unbound, h.unbound'⟩
  keeps s t op hop hpayment h := by
    cases op with
    | action op => cases hpayment
    | payment op =>
      exact (PaymentKeyOp.exec_paired (paymentView_relation p) h
        fun key hkey => not_not.mp (hop.2 key hkey)).commit h
    | elsewhere tables => cases hpayment
  shows s t op hop hpayment h := by
    cases op with
    | action op => cases hpayment
    | payment op =>
      exact congrArg some (PaymentKeyOp.exec_paired (paymentView_relation p) h
        fun key hkey => not_not.mp (hop.2 key hkey)).output
    | elsewhere tables => cases hpayment

end KeyOp

def paymentKeys (ops : List KeyOp) (key : String) : Prop := ∃ op ∈ ops, key ∈ op.paymentKey

instance (ops : List KeyOp) (key : String) : Decidable (paymentKeys ops key) := by
  unfold paymentKeys; infer_instance

/-- Two runs from one store in which no key of an action, used or bound, is a payment key. If the
runs have the same actions, these return and raise the same and leave the same records; if they
have the same payment operations, so do these. -/
theorem key_spaces_separate (s : Store) (ops ops' : List KeyOp)
    (hbound : ∀ binding ∈ s.actionBindings, ¬ paymentKeys (ops ++ ops') binding.idempotencyKey)
    (hops : ∀ op ∈ ops ++ ops', ∀ key ∈ op.actionKey, ¬ paymentKeys (ops ++ ops') key) :
    (ops.filter (fun op => ¬ op.isPayment) = ops'.filter (fun op => ¬ op.isPayment) →
      observed KeyOp.step KeyOp.output (fun op => ¬ op.isPayment) s ops =
        observed KeyOp.step KeyOp.output (fun op => ¬ op.isPayment) s ops' ∧
      (run KeyOp.step s ops).idempotency.Agree (fun key => ¬ paymentKeys (ops ++ ops') key)
        (run KeyOp.step s ops').idempotency) ∧
    (ops.filter (fun op => op.isPayment) = ops'.filter (fun op => op.isPayment) →
      observed KeyOp.step KeyOp.output KeyOp.isPayment s ops =
        observed KeyOp.step KeyOp.output KeyOp.isPayment s ops' ∧
      (run KeyOp.step s ops).idempotency.Agree (paymentKeys (ops ++ ops'))
        (run KeyOp.step s ops').idempotency) := by
  have hseparate : ∀ op ∈ ops ++ ops',
      KeyOp.Separate (fun key => ¬ paymentKeys (ops ++ ops') key) op :=
    fun op hop => ⟨hops op hop, fun key hkey => not_not.mpr ⟨op, hop, hkey⟩⟩
  have hleft := fun op hop => hseparate op (List.mem_append_left ops' hop)
  have hright := fun op hop => hseparate op (List.mem_append_right ops hop)
  constructor
  · intro hsame
    have hview : ActionView (fun key => ¬ paymentKeys (ops ++ ops') key) s s :=
      .intro s.idempotency (fun _ _ => rfl) hbound
    obtain ⟨hshow, t, hrun, hrun'⟩ :=
      (KeyOp.action_unwinding _).noninterference hview hleft hright hsame
    have hR := actionView_relation fun key => ¬ paymentKeys (ops ++ ops') key
    exact ⟨hshow, fun key hkey => (hR.records hrun key hkey).trans
      (hR.records hrun' key hkey).symm⟩
  · intro hsame
    have hview : PaymentView (paymentKeys (ops ++ ops')) s s :=
      ⟨fun _ _ => rfl, hbound, hbound⟩
    obtain ⟨hshow, t, hrun, hrun'⟩ :=
      (KeyOp.payment_unwinding _).noninterference hview hleft hright hsame
    exact ⟨hshow, fun key hkey => (hrun.records key hkey).trans (hrun'.records key hkey).symm⟩

/-- An action and a payment operation that share the text `key`. -/
theorem key_spaces_separate_of_key :
    observed KeyOp.step KeyOp.output (fun op => ¬ op.isPayment) .empty
        [.payment (.claim "reserve" "key" "digest"), .action (.claim "key" "hash")] =
      observed KeyOp.step KeyOp.output (fun op => ¬ op.isPayment) .empty
        [.action (.claim "key" "hash")] :=
  ((key_spaces_separate .empty _ _ (by decide) (by decide)).1 rfl).1

/-- A caller names its action as the reservation of the key `key` is named: each claim is refused
where the other came first. -/
theorem key_spaces_overlap :
    let action := KeyOp.action (.claim "payment:reserve:key" "hash")
    let payment := KeyOp.payment (.claim "reserve" "key" "digest")
    let reused : Err := .configuration
      "idempotency key 'payment:reserve:key' was already used for a different action"
    observed KeyOp.step KeyOp.output (fun op => ¬ op.isPayment) .empty [action] =
        [some (.ok (.report none))] ∧
      observed KeyOp.step KeyOp.output (fun op => ¬ op.isPayment) .empty [payment, action] =
        [some (.error reused)] ∧
      observed KeyOp.step KeyOp.output KeyOp.isPayment .empty [payment] =
        [some (.ok (.report none))] ∧
      observed KeyOp.step KeyOp.output KeyOp.isPayment .empty [action, payment] =
        [some (.error reused)] :=
  ⟨rfl, rfl, rfl, rfl⟩

end AeepRouter

import AeepRouter.Lib.Audit
import AeepRouter.Store.Step

/-!
# The transitions of a decision

Every move of a prepared decision is recorded in `prepared_route_transitions`, which
`listPreparedTransitions` reads by time and id. `StoreOp.exec_recorded` says which links a
transaction records. The links of a decision lead from `PREPARED` to its state in the order they
were recorded; the reader returns them in that order as long as every link is stamped after those
recorded before it (`transitions_chained`).
-/

namespace AeepRouter

open Lib

/-! ## Reading -/

def PreparedRouteTransition.inOrder (a b : PreparedRouteTransition) : Prop :=
  a.occurredAt < b.occurredAt ∨ a.occurredAt = b.occurredAt ∧ a.transitionId ≤ b.transitionId

instance : DecidableRel PreparedRouteTransition.inOrder := fun _ _ => by
  unfold PreparedRouteTransition.inOrder; infer_instance

/-- The links of a decision in the order they were recorded. -/
def Store.linksOf (s : Store) (preparedId : String) : List PreparedRouteTransition :=
  movesOf (·.preparedId) preparedId s.transitions.rows

def Store.listPreparedTransitions (s : Store) (preparedId : String) (limit : ℕ) :
    List PreparedRouteTransition :=
  ((s.linksOf preparedId).insertionSort PreparedRouteTransition.inOrder).take
    (max 1 (min limit 10000))

/-- The links lead from one state to another, each from where the one before it ended. -/
abbrev PreparedDecisionState.Chain (source : PreparedDecisionState)
    (links : List PreparedRouteTransition) (target : PreparedDecisionState) : Prop :=
  Chained PreparedRouteTransition.fromState PreparedRouteTransition.toState source links target

/-- The default limit of the reader. -/
def transitionLimit : ℕ := 1000

def Store.states (s : Store) (preparedId : String) : Option PreparedDecisionState :=
  (s.prepared.find? preparedId).map (·.state)

/-! ## Links a transaction may record -/

structure PlannedLink where
  preparedId : String
  sources : List PreparedDecisionState
  occurredAt : Int
  transitionId : String

def recoverableStates : List PreparedDecisionState := [.invoking, .settling, .indeterminate]

def FreeRecovery.planned (call : FreeRecovery) : PlannedLink × PlannedLink :=
  (⟨call.preparedId, [.invoking, .indeterminate], call.recoveredAt, call.settlingId⟩,
    ⟨call.preparedId, recoverableStates, call.recoveredAt, call.settledId⟩)

def StoreOp.planned : StoreOp → List PlannedLink
  | savePreparedTransition transition =>
    [⟨transition.preparedId, [transition.fromState], transition.occurredAt,
      transition.transitionId⟩]
  | claimPreparedForInvocation call =>
    [⟨call.preparedId, [.prepared], call.invokedAt, call.transitionId⟩]
  | claimPreparedForPaidInvocation call =>
    [⟨call.preparedId, [.reserved], call.invokedAt, call.transitionId⟩]
  | reservePayment call =>
    [⟨call.reservation.preparedId, [.prepared], call.reservation.updatedAt, call.transitionId⟩]
  | saveSettlementReceipt receipt transitionId =>
    [⟨receipt.preparedId, preparedSources receipt.status.preparedTarget, receipt.settledAt,
      transitionId⟩]
  | action (.abandonPrepared call) =>
    [⟨call.preparedId, [.prepared], call.abandonedAt, call.transitionId⟩]
  | settleRecoveredFree call => [call.planned.1, call.planned.2]
  | _ => []

namespace PlannedLink

variable (p : PlannedLink) (s : Store)

def Due : Prop := ∃ state ∈ s.states p.preparedId, state ∈ p.sources

instance : Decidable (p.Due s) := by unfold Due; infer_instance

/-- The link would come after those recorded for the decision. -/
def Follows : Prop :=
  ∀ link ∈ s.linksOf p.preparedId, link.occurredAt < p.occurredAt ∨
    link.occurredAt = p.occurredAt ∧ link.transitionId < p.transitionId

instance : Decidable (p.Follows s) := by unfold Follows; infer_instance

structure Plans (link : PreparedRouteTransition) : Prop where
  preparedId : link.preparedId = p.preparedId
  source : link.fromState ∈ p.sources
  occurredAt : link.occurredAt = p.occurredAt
  transitionId : link.transitionId = p.transitionId

end PlannedLink

/-- Whether a transaction asks for a link that is recorded already. -/
def StoreOp.repeats (s : Store) : StoreOp → Prop
  | savePreparedTransition transition => transition ∈ s.transitions
  | _ => False

instance (s : Store) (op : StoreOp) : Decidable (op.repeats s) := by
  cases op <;> unfold StoreOp.repeats <;> infer_instance

def StoreOp.savesPrepared : StoreOp → Prop
  | savePreparedDecision decision => decision.state = .prepared
  | _ => True

instance (op : StoreOp) : Decidable op.savesPrepared := by
  cases op <;> unfold StoreOp.savesPrepared <;> infer_instance

/-- A transaction that saves decisions as `PREPARED` and stamps the links it is due to record after
those recorded for the decision, and after one another, within what the reader returns. -/
structure Store.InOrder (s : Store) (op : StoreOp) : Prop where
  prepared : op.savesPrepared
  follows : op.repeats s ∨ ∀ p ∈ op.planned, p.Due s → p.Follows s
  ascending : op.planned.Pairwise fun p q => p.transitionId < q.transitionId
  room : ∀ p ∈ op.planned, p.Due s →
    (s.linksOf p.preparedId).length + op.planned.length ≤ transitionLimit

instance (s : Store) (op : StoreOp) : Decidable (s.InOrder op) :=
  decidable_of_iff (op.savesPrepared ∧ (op.repeats s ∨ ∀ p ∈ op.planned, p.Due s → p.Follows s) ∧
    (op.planned.Pairwise fun p q => p.transitionId < q.transitionId) ∧
    ∀ p ∈ op.planned, p.Due s →
      (s.linksOf p.preparedId).length + op.planned.length ≤ transitionLimit)
    ⟨fun h => ⟨h.1, h.2.1, h.2.2.1, h.2.2.2⟩, fun h => ⟨h.1, h.2, h.3, h.4⟩⟩

/-! ## Links a transaction records -/

section Recorded

variable {crypto : Crypto} {s t s' : Store} {op : StoreOp}

theorem Store.states_of_find? {preparedId : String} {row : PreparedRow}
    (h : s.prepared.find? preparedId = some row) : s.states preparedId = some row.state := by
  unfold Store.states
  rw [h]
  rfl

theorem Store.states_setClaim (preparedId token : String) (claimedAt : Int) :
    (s.setClaim preparedId token claimedAt).states = s.states := by
  funext k
  unfold Store.states Store.setClaim
  rw [Table.find?_modify]
  split
  · next h =>
    rw [h, Option.map_map]
    rfl
  · rfl

theorem Store.states_setPreparedState {preparedId : String} {old new : PreparedDecisionState}
    (h : s.states preparedId = some old) :
    (s.setPreparedState preparedId new).states =
      Function.update s.states preparedId (some new) := by
  obtain ⟨row, hrow, -⟩ := Option.map_eq_some_iff.mp h
  funext k
  by_cases hk : k = preparedId
  · subst hk
    rw [Function.update_self]
    unfold Store.states Store.setPreparedState
    rw [Table.find?_modify_self hrow]
    rfl
  · rw [Function.update_of_ne hk]
    unfold Store.states Store.setPreparedState
    rw [Table.find?_modify_ne hk]

theorem Store.states_insert {row : PreparedRow} (h : s.prepared.find? row.preparedId = none) :
    ({ s with prepared := s.prepared.insert row } : Store).states =
      Function.update s.states row.preparedId (some row.state) := by
  funext k
  unfold Store.states
  dsimp only
  rw [Table.find?_insert h]
  by_cases hk : k = row.preparedId
  · rw [if_pos hk, hk, Function.update_self, Option.map_some]
  · rw [if_neg hk, Function.update_of_ne hk]

/-- What a transaction records: links of its plans, in order, that lead each decision from its
state before to its state after. -/
structure Store.Recorded (s : Store) (op : StoreOp) (links : List PreparedRouteTransition)
    (s' : Store) : Prop where
  rows : s'.transitions.rows = s.transitions.rows ++ links
  moves : Moves PreparedRouteTransition.fromState PreparedRouteTransition.toState
    PreparedRouteTransition.preparedId s.states links s'.states
  planned : ∀ link ∈ links, ∃ p ∈ op.planned, p.Due s ∧ p.Follows s ∧ p.Plans link
  ascending : links.Pairwise PreparedRouteTransition.inOrder
  count : links.length ≤ op.planned.length

/-- A transaction that leaves the decisions alone. -/
theorem Store.Recorded.none (htransitions : s'.transitions = s.transitions)
    (hstates : s'.states = s.states) : s.Recorded op [] s' where
  rows := by rw [htransitions, List.append_nil]
  moves := hstates
  planned _ h := nomatch h
  ascending := .nil
  count := Nat.zero_le _

theorem Store.Recorded.one {p : PlannedLink} {link : PreparedRouteTransition}
    (hop : op.planned = [p]) (hp : p.Plans link) (hfollows : p.Follows s)
    (hrows : s'.transitions.rows = s.transitions.rows ++ [link])
    (hsource : s.states link.preparedId = some link.fromState)
    (hstates : s'.states = Function.update s.states link.preparedId (some link.toState)) :
    s.Recorded op [link] s' where
  rows := hrows
  moves := ⟨hsource, hstates⟩
  planned l hl := by
    rw [List.mem_singleton.mp hl, hop]
    exact ⟨p, List.mem_singleton_self p, ⟨_, hp.preparedId ▸ hsource, hp.source⟩, hfollows, hp⟩
  ascending := List.pairwise_singleton _ _
  count := by simp [hop]

/-- A recorded link is not stamped after itself. -/
theorem PlannedLink.Follows.not_mem {p : PlannedLink} {link : PreparedRouteTransition}
    (h : p.Follows s) (hp : p.Plans link) : link ∉ s.transitions := by
  intro hmem
  have hlink : link ∈ s.linksOf p.preparedId :=
    List.mem_filter.mpr ⟨hmem, by simpa using hp.preparedId⟩
  rcases h link hlink with hlt | ⟨-, hlt⟩
  · rw [hp.occurredAt] at hlt
    omega
  · rw [hp.transitionId] at hlt
    exact String.lt_irrefl _ hlt

/-- A move is found again, or recorded from the state of its decision. -/
theorem transitionPreparedLocked_recorded {link : PreparedRouteTransition} {token : Option String}
    (h : s.transitionPreparedLocked link token = .ok s') :
    (s' = s ∧ link ∈ s.transitions) ∨
    (link ∉ s.transitions ∧ s'.transitions.rows = s.transitions.rows ++ [link] ∧
      s.states link.preparedId = some link.fromState ∧
      s'.states = Function.update s.states link.preparedId (some link.toState)) := by
  obtain ⟨rfl, hfound⟩ | ⟨rfl, hnone, ⟨row, hrow, hstate⟩, -⟩ := transitionPreparedLocked_ok h
  · exact .inl ⟨rfl, Table.mem_of_find? hfound⟩
  · have hsource : s.states link.preparedId = some link.fromState := by
      rw [Store.states_of_find? hrow, hstate]
    have hnew : link ∉ s.transitions := fun hmem => Table.find?_eq_none.mp hnone link hmem rfl
    exact .inr ⟨hnew, Table.insert_rows hnone, hsource, Store.states_setPreparedState hsource⟩

theorem Store.Recorded.move {p : PlannedLink} {link : PreparedRouteTransition}
    {token : Option String} (h : t.transitionPreparedLocked link token = .ok s')
    (hprepared : t.prepared = s.prepared) (htransitions : t.transitions = s.transitions)
    (hop : op.planned = [p]) (hp : p.Plans link) (hfollows : p.Follows s) :
    s.Recorded op [link] s' := by
  have hstates : t.states = s.states := by
    unfold Store.states
    rw [hprepared]
  obtain ⟨-, hmem⟩ | ⟨-, hrows, hsource, hstates'⟩ := transitionPreparedLocked_recorded h
  · rw [htransitions] at hmem
    exact absurd hmem (hfollows.not_mem hp)
  · rw [htransitions] at hrows
    rw [hstates] at hsource hstates'
    exact .one hop hp hfollows hrows hsource hstates'

theorem Store.InOrder.follows_of_due (h : s.InOrder op) (hop : ¬ op.repeats s) {p : PlannedLink}
    (hp : p ∈ op.planned) (hdue : p.Due s) : p.Follows s :=
  (h.follows.resolve_left hop) p hp hdue

theorem savePreparedTransition_recorded {transition result : PreparedRouteTransition}
    (horder : s.InOrder (.savePreparedTransition transition))
    (h : savePreparedTransition transition s = .ok (result, s')) :
    ∃ links, s.Recorded (.savePreparedTransition transition) links s' := by
  simp only [savePreparedTransition, bind_ok, raiseIf_ok, pure_ok, exists_const, Prod.mk.injEq] at h
  obtain ⟨-, -, -, t, hmove, -, rfl⟩ := h
  obtain ⟨rfl, -⟩ | ⟨hnew, hrows, hsource, hstates⟩ := transitionPreparedLocked_recorded hmove
  · exact ⟨[], .none rfl rfl⟩
  · have hfollows := horder.follows_of_due hnew (List.mem_singleton_self _)
      ⟨_, hsource, List.mem_singleton_self _⟩
    exact ⟨[transition], .one rfl ⟨rfl, List.mem_singleton_self _, rfl, rfl⟩ hfollows hrows hsource
      hstates⟩

theorem claimPreparedForInvocation_recorded {call : FreeInvocation}
    {result : PreparedRouteDecision} (horder : s.InOrder (.claimPreparedForInvocation call))
    (h : claimPreparedForInvocation call s = .ok (result, s')) :
    ∃ links, s.Recorded (.claimPreparedForInvocation call) links s' := by
  simp only [claimPreparedForInvocation, bind_ok, raiseIf_ok, require_ok, pure_ok, exists_const,
    Prod.mk.injEq, ne_eq, not_not] at h
  obtain ⟨-, row, hrow, hstate, -, -, -, -, amount, -, -, -, t, hmove, -, rfl⟩ := h
  have hdue : s.states call.preparedId = some .prepared := by rw [Store.states_of_find? hrow, hstate]
  exact ⟨_, .move hmove rfl rfl rfl ⟨rfl, List.mem_singleton_self _, rfl, rfl⟩
    (horder.follows_of_due not_false (List.mem_singleton_self _)
      ⟨_, hdue, List.mem_singleton_self _⟩)⟩

theorem claimPreparedForPaidInvocation_recorded {call : PaidInvocation}
    {result : PreparedRouteDecision} (horder : s.InOrder (.claimPreparedForPaidInvocation call))
    (h : claimPreparedForPaidInvocation crypto call s = .ok (result, s')) :
    ∃ links, s.Recorded (.claimPreparedForPaidInvocation call) links s' := by
  obtain ⟨row, payment, token, hrow, hstate, -, -, hmove⟩ := claimPreparedForPaidInvocation_ok h
  have hdue : s.states call.preparedId = some .reserved := by rw [Store.states_of_find? hrow, hstate]
  exact ⟨_, .move hmove rfl rfl rfl ⟨rfl, List.mem_singleton_self _, rfl, rfl⟩
    (horder.follows_of_due not_false (List.mem_singleton_self _)
      ⟨_, hdue, List.mem_singleton_self _⟩)⟩

theorem reservePaymentV2_recorded {call : ReserveCall} {result : PaymentReservationV2}
    (horder : s.InOrder (.reservePayment call))
    (h : reservePaymentV2 crypto call s = .ok (result, s')) :
    ∃ links, s.Recorded (.reservePayment call) links s' := by
  simp only [reservePaymentV2, bind_ok, raiseIf_ok, require_ok, exists_const] at h
  obtain ⟨⟨⟩, -, prepared, hprepared, -, h⟩ := h
  split at h
  · simp only [bind_ok, raiseIf_ok, exists_const] at h
    obtain ⟨-, h⟩ := h
    split at h
    · simp only [pure_ok, Prod.mk.injEq] at h
      obtain ⟨-, rfl⟩ := h
      exact ⟨[], .none rfl rfl⟩
    · simp only [bind_ok, raiseIf_ok, pure_ok, exists_const, Prod.mk.injEq] at h
      obtain ⟨-, -, -, rfl⟩ := h
      exact ⟨[], .none rfl rfl⟩
  · simp only [bind_ok, raiseIf_ok, pure_ok, exists_const, Prod.mk.injEq, ne_eq, not_not,
      ReserveCall.insert] at h
    obtain ⟨hstate, -, t, ⟨-, -, -, -, reservations, -, hmove⟩, -, rfl⟩ := h
    have hdue : s.states call.reservation.preparedId = some .prepared := by
      rw [Store.states_of_find? hprepared, hstate]
    exact ⟨_, .move hmove rfl rfl rfl ⟨rfl, List.mem_singleton_self _, rfl, rfl⟩
      (horder.follows_of_due not_false (List.mem_singleton_self _)
        ⟨_, hdue, List.mem_singleton_self _⟩)⟩

theorem saveSettlementReceipt_recorded {receipt result : SettlementReceipt} {transitionId : String}
    (horder : s.InOrder (.saveSettlementReceipt receipt transitionId))
    (h : saveSettlementReceipt crypto receipt transitionId s = .ok (result, s')) :
    ∃ links, s.Recorded (.saveSettlementReceipt receipt transitionId) links s' := by
  simp only [saveSettlementReceipt, bind_ok, require_ok] at h
  obtain ⟨row, hrow, prepared, hprepared, h⟩ := h
  split at h
  · cases h
  next hbound =>
  simp only [bind_ok] at h
  obtain ⟨⟨⟩, -, h⟩ := h
  split at h
  · simp only [bind_ok, raiseIf_ok, pure_ok, exists_const, Prod.mk.injEq] at h
    obtain ⟨-, -, -, -, rfl⟩ := h
    exact ⟨[], .none rfl rfl⟩
  simp only [bind_ok, raiseIf_ok, exists_const] at h
  obtain ⟨-, h⟩ := h
  split at h
  · next hsources =>
    simp only [SettlementReceipt.insert, bind_ok, pure_ok, Prod.mk.injEq] at h
    obtain ⟨⟨⟩, -, t, ⟨settlements, -, transitions, htransitions, rfl⟩, -, rfl⟩ := h
    have hdecision : receipt.preparedId = row.payload.preparedId := by
      simp only [SettlementReceipt.mismatch, ite_some_eq_none, ne_eq, not_not] at hbound
      exact hbound.2.1
    have hsource : s.states receipt.preparedId = some prepared.state := by
      rw [hdecision, Store.states_of_find? hprepared]
    have hplans : PlannedLink.Plans ⟨receipt.preparedId,
        preparedSources receipt.status.preparedTarget, receipt.settledAt, transitionId⟩
        (receipt.transition transitionId prepared.state hsources) := ⟨rfl, hsources, rfl, rfl⟩
    have hfollows := horder.follows_of_due not_false (List.mem_singleton_self _)
      ⟨_, hsource, hsources⟩
    obtain ⟨-, y, hy, heq⟩ | ⟨rfl, hnone, -⟩ := immutableInsert_ok.mp htransitions
    · -- the link would be stamped after itself
      rw [show y = _ from heq] at hy
      exact absurd (Table.mem_of_find? hy) (hfollows.not_mem hplans)
    · exact ⟨_, .one rfl hplans hfollows (Table.insert_rows hnone) hsource
        (Store.states_setPreparedState (s := s.setReservation _ _) hsource)⟩
  · cases h

theorem settling_mem_recoverableStates : PreparedDecisionState.settling ∈ recoverableStates := by
  decide

/-- The last move of a recovery alone. -/
theorem FreeRecovery.settled_recorded {call : FreeRecovery}
    (horder : s.InOrder (.settleRecoveredFree call))
    (h : s.transitionPreparedLocked call.settled none = .ok s') :
    ∃ links, s.Recorded (.settleRecoveredFree call) links s' := by
  obtain ⟨rfl, -⟩ | ⟨-, hrows, hsource, hstates⟩ := transitionPreparedLocked_recorded h
  · exact ⟨[], .none rfl rfl⟩
  have hdue : call.planned.2.Due s := ⟨_, hsource, settling_mem_recoverableStates⟩
  have hplanned : call.planned.2 ∈ [call.planned.1, call.planned.2] := by simp
  refine ⟨[call.settled], hrows, ⟨hsource, hstates⟩, fun link hlink => ?_,
    List.pairwise_singleton _ _, Nat.le_succ 1⟩
  rw [List.mem_singleton.mp hlink]
  exact ⟨_, hplanned, hdue, horder.follows_of_due not_false hplanned hdue,
    ⟨rfl, settling_mem_recoverableStates, rfl, rfl⟩⟩

theorem settleRecoveredFreePrepared_recorded {call : FreeRecovery}
    {result : PreparedRouteDecision} (horder : s.InOrder (.settleRecoveredFree call))
    (h : settleRecoveredFreePrepared call s = .ok (result, s')) :
    ∃ links, s.Recorded (.settleRecoveredFree call) links s' := by
  obtain rfl | hlast | ⟨source, hlegal, t, hsources, hfirst, hlast⟩ :=
    settleRecoveredFreePrepared_ok h
  · exact ⟨[], .none rfl rfl⟩
  · exact FreeRecovery.settled_recorded horder hlast
  obtain ⟨rfl, -⟩ | ⟨-, hrows, hsource, hstates⟩ := transitionPreparedLocked_recorded hfirst
  · exact FreeRecovery.settled_recorded horder hlast
  have hstate : s.states call.preparedId = some source := hsource
  have hdue : call.planned.1.Due s := ⟨source, hstate, hsources⟩
  have hfollows := horder.follows_of_due not_false List.mem_cons_self hdue
  have hsettling : ∃ p ∈ (StoreOp.settleRecoveredFree call).planned, p.Due s ∧ p.Follows s ∧
      p.Plans (call.settling source hlegal) :=
    ⟨_, List.mem_cons_self, hdue, hfollows, ⟨rfl, hsources, rfl, rfl⟩⟩
  obtain ⟨rfl, -⟩ | ⟨-, hrows', hsource', hstates'⟩ := transitionPreparedLocked_recorded hlast
  · refine ⟨[call.settling source hlegal], hrows, ⟨hsource, hstates⟩, fun link hlink => ?_,
      List.pairwise_singleton _ _, Nat.le_succ 1⟩
    rw [List.mem_singleton.mp hlink]
    exact hsettling
  · rw [hrows, List.append_assoc] at hrows'
    rw [hstates] at hsource' hstates'
    have hids : call.settlingId < call.settledId := List.rel_of_pairwise_cons horder.ascending
      (List.mem_singleton_self _)
    refine ⟨[call.settling source hlegal, call.settled], hrows', ⟨hsource, hsource', hstates'⟩,
      fun link hlink => ?_, List.pairwise_pair.mpr
        (.inr ⟨rfl, String.not_lt.mp (String.lt_asymm hids)⟩), le_rfl⟩
    rcases List.mem_pair.mp hlink with rfl | rfl
    · exact hsettling
    · have hrecoverable : source ∈ recoverableStates := by
        rcases List.mem_pair.mp hsources with rfl | rfl <;> decide
      have hplanned : call.planned.2 ∈ [call.planned.1, call.planned.2] := by simp
      have hdue' : call.planned.2.Due s := ⟨source, hstate, hrecoverable⟩
      exact ⟨_, hplanned, hdue', horder.follows_of_due not_false hplanned hdue',
        ⟨rfl, settling_mem_recoverableStates, rfl, rfl⟩⟩

theorem Store.TouchesKey.recorded {key : String} (h : s.TouchesKey key s') :
    s.Recorded op [] s' := by
  obtain ⟨records, f, rfl, -⟩ := h
  exact .none rfl rfl

theorem ActionOp.exec_recorded {op : ActionOp} {r : KeyOutcome} (horder : s.InOrder (.action op))
    (h : op.exec s = .ok (r, s')) : ∃ links, s.Recorded (.action op) links s' := by
  cases op with
  | claim key hash =>
    simp only [exec, StoreM.wrap_ok] at h
    obtain ⟨_, h, -⟩ := h
    exact ⟨[], (claimIdempotency_touches h).recorded⟩
  | complete key decisionId status receiptIds =>
    simp only [exec, StoreM.wrap_ok] at h
    obtain ⟨_, h, -⟩ := h
    exact ⟨[], (completeIdempotency_touches h).recorded⟩
  | abandon key =>
    simp only [exec, StoreM.wrap_ok] at h
    obtain ⟨_, h, -⟩ := h
    exact ⟨[], (abandonIdempotency_touches h).recorded⟩
  | markExecuting key =>
    simp only [exec, StoreM.wrap_ok] at h
    obtain ⟨_, h, -⟩ := h
    exact ⟨[], (markIdempotencyExecuting_touches h).recorded⟩
  | markIndeterminate key =>
    simp only [exec, StoreM.wrap_ok] at h
    obtain ⟨_, h, -⟩ := h
    exact ⟨[], (markIdempotencyIndeterminate_touches h).recorded⟩
  | claimPrepared call =>
    simp only [exec, StoreM.wrap_ok, claimPreparedDecisionWithActionIdempotency, bind_ok,
      require_ok] at h
    obtain ⟨_, ⟨-, -, row, -, -, -, -, -, h⟩, -⟩ := h
    split at h
    · simp only [bind_ok, raiseIf_ok, pure_ok, exists_const, Prod.mk.injEq] at h
      obtain ⟨-, -, rfl⟩ := h
      exact ⟨[], .none rfl (Store.states_setClaim (s := call.bind s) _ _ _)⟩
    · simp only [pure_ok, Prod.mk.injEq] at h
      obtain ⟨-, rfl⟩ := h
      exact ⟨[], .none rfl rfl⟩
  | bindPrepared call =>
    simp only [exec, StoreM.wrap_ok, bindPreparedActionIdempotency, bind_ok, require_ok] at h
    obtain ⟨_, ⟨-, -, -, -, row, -, -, -, h⟩, -⟩ := h
    split at h
    · cases h
    · simp only [bind_ok, raiseIf_ok, pure_ok, exists_const, Prod.mk.injEq] at h
      obtain ⟨-, -, rfl⟩ := h
      exact ⟨[], .none rfl rfl⟩
    · cases h
  | abandonPrepared call =>
    simp only [exec, StoreM.wrap_ok, abandonPreparedActionIdempotency, bind_ok, raiseIf_ok,
      require_ok, pure_ok, exists_const, Prod.mk.injEq] at h
    obtain ⟨_, ⟨row, hrow, binding, -, record, -, -, -, -, t, hretire, retired, -, -, rfl⟩, -⟩ := h
    have hkeys : ∀ links, s.Recorded (.action (.abandonPrepared call)) links t →
        s.Recorded (.action (.abandonPrepared call)) links { t with
          actionBindings := t.actionBindings.erase call.preparedId
          idempotency := t.idempotency.erase binding.idempotencyKey } :=
      fun links h => ⟨h.rows, h.moves, h.planned, h.ascending, h.count⟩
    unfold AbandonCall.retire at hretire
    split at hretire
    · next hstate =>
      simp only [bind_ok, raiseIf_ok, exists_const] at hretire
      obtain ⟨-, -, hmove⟩ := hretire
      have hdue : s.states call.preparedId = some .prepared := by
        rw [Store.states_of_find? hrow, hstate]
      exact ⟨_, hkeys _ (.move hmove rfl rfl rfl ⟨rfl, List.mem_singleton_self _, rfl, rfl⟩
        (horder.follows_of_due not_false (List.mem_singleton_self _)
          ⟨_, hdue, List.mem_singleton_self _⟩))⟩
    · simp only [bind_ok, raiseIf_ok, pure_ok, exists_const] at hretire
      obtain ⟨-, rfl⟩ := hretire
      exact ⟨[], hkeys [] (.none rfl rfl)⟩
    · cases hretire
  | completePrepared call =>
    simp only [exec, StoreM.wrap_ok, completePreparedActionIdempotency, bind_ok, raiseIf_ok,
      require_ok, exists_const] at h
    obtain ⟨_, ⟨binding, -, row, -, -, receipt, -, -, -, record, -, h⟩, -⟩ := h
    split at h
    · simp only [bind_ok, raiseIf_ok, pure_ok, exists_const, Prod.mk.injEq] at h
      obtain ⟨-, -, rfl⟩ := h
      exact ⟨[], .none rfl rfl⟩
    · simp only [pure_ok, Prod.mk.injEq] at h
      obtain ⟨-, rfl⟩ := h
      exact ⟨[], .none rfl rfl⟩

/-- A decision saved as `PREPARED`, with nothing else changed. -/
structure Store.Created (s s' : Store) : Prop where
  transitions : s'.transitions = s.transitions
  states : ∃ preparedId, s.states preparedId = none ∧
    s'.states = Function.update s.states preparedId (some .prepared)

theorem savePreparedDecision_created {decision result : PreparedRouteDecision}
    (horder : s.InOrder (.savePreparedDecision decision))
    (h : savePreparedDecision decision s = .ok (result, s')) : s' = s ∨ s.Created s' := by
  simp only [savePreparedDecision, bind_ok, raiseIf_ok, require_ok, pure_ok, exists_const,
    Prod.mk.injEq] at h
  obtain ⟨-, prepared, hins, -, -, -, rfl⟩ := h
  obtain ⟨rfl, -⟩ | ⟨rfl, hnone, -⟩ := immutableInsert_ok.mp hins
  · exact .inl rfl
  refine .inr ⟨rfl, decision.preparedId, ?_, ?_⟩
  · unfold Store.states
    rw [show s.prepared.find? decision.preparedId = none from hnone]
    rfl
  · exact (Store.states_insert hnone).trans (congrArg
      (fun state => Function.update s.states decision.preparedId (some state)) horder.prepared)

/-- A successful transaction saves a decision or records links. -/
theorem StoreOp.exec_recorded {u : Unit} (horder : s.InOrder op)
    (h : op.exec crypto s = .ok (u, s')) : s.Created s' ∨ ∃ links, s.Recorded op links s' := by
  cases op with
  | writeEvidence evidence =>
    cases h
    exact .inr ⟨[], .none rfl rfl⟩
  | savePreparedDecision decision =>
    simp only [exec, StoreM.wrap_ok] at h
    obtain ⟨_, h, -⟩ := h
    rcases savePreparedDecision_created horder h with rfl | hcreated
    · exact .inr ⟨[], .none rfl rfl⟩
    · exact .inl hcreated
  | claimPreparedDecision preparedId token claimedAt =>
    simp only [exec, StoreM.wrap_ok, AeepRouter.claimPreparedDecision, bind_ok, raiseIf_ok,
      require_ok, exists_const] at h
    obtain ⟨_, ⟨-, row, -, h⟩, -⟩ := h
    split at h
    · simp only [bind_ok, raiseIf_ok, pure_ok, exists_const, Prod.mk.injEq] at h
      obtain ⟨-, -, rfl⟩ := h
      exact .inr ⟨[], .none rfl (Store.states_setClaim _ _ _)⟩
    · simp only [bind_ok, raiseIf_ok, pure_ok, exists_const, Prod.mk.injEq] at h
      obtain ⟨-, -, -, rfl⟩ := h
      exact .inr ⟨[], .none rfl rfl⟩
  | savePreparedTransition transition =>
    simp only [exec, StoreM.wrap_ok] at h
    obtain ⟨_, h, -⟩ := h
    exact .inr (savePreparedTransition_recorded horder h)
  | claimPreparedForInvocation call =>
    simp only [exec, StoreM.wrap_ok] at h
    obtain ⟨_, h, -⟩ := h
    exact .inr (claimPreparedForInvocation_recorded horder h)
  | claimPreparedForPaidInvocation call =>
    simp only [exec, StoreM.wrap_ok] at h
    obtain ⟨_, h, -⟩ := h
    exact .inr (claimPreparedForPaidInvocation_recorded horder h)
  | reservePayment call =>
    simp only [exec, StoreM.wrap_ok] at h
    obtain ⟨_, h, -⟩ := h
    exact .inr (reservePaymentV2_recorded horder h)
  | transitionPaymentReservation reservationId expectedState updated =>
    simp only [exec, StoreM.wrap_ok, transitionPaymentReservationV2, bind_ok, raiseIf_ok,
      require_ok, exists_const] at h
    obtain ⟨_, ⟨-, -, -, row, -, -, -, h⟩, -⟩ := h
    split at h
    · simp only [bind_ok, raiseIf_ok, pure_ok, exists_const, Prod.mk.injEq] at h
      obtain ⟨-, -, rfl⟩ := h
      exact .inr ⟨[], .none rfl rfl⟩
    · simp only [pure_ok, Prod.mk.injEq] at h
      obtain ⟨-, rfl⟩ := h
      exact .inr ⟨[], .none rfl rfl⟩
  | claimPaymentIntent call =>
    simp only [exec, StoreM.wrap_ok, claimPaymentIntentV2, bind_ok, raiseIf_ok, require_ok,
      exists_const] at h
    obtain ⟨_, ⟨-, row, -, prepared, -, h⟩, -⟩ := h
    split at h
    · simp only [pure_ok, Prod.mk.injEq] at h
      obtain ⟨-, rfl⟩ := h
      exact .inr ⟨[], .none rfl rfl⟩
    · simp only [bind_ok, raiseIf_ok, pure_ok, exists_const, Prod.mk.injEq] at h
      obtain ⟨-, -, -, -, rfl⟩ := h
      exact .inr ⟨[], .none rfl rfl⟩
  | saveSettlementReceipt receipt transitionId =>
    simp only [exec, StoreM.wrap_ok] at h
    obtain ⟨_, h, -⟩ := h
    exact .inr (saveSettlementReceipt_recorded horder h)
  | authorizeRefund call =>
    simp only [exec, StoreM.wrap_ok, authorizeRefundV2, bind_ok, raiseIf_ok, exists_const] at h
    obtain ⟨_, ⟨-, -, h⟩, -⟩ := h
    split at h
    · simp only [bind_ok, raiseIf_ok, pure_ok, exists_const, Prod.mk.injEq] at h
      obtain ⟨-, -, rfl⟩ := h
      exact .inr ⟨[], .none rfl rfl⟩
    · simp only [bind_ok, raiseIf_ok, require_ok, pure_ok, exists_const, Prod.mk.injEq] at h
      obtain ⟨settlement, -, -, -, -, rfl⟩ := h
      exact .inr ⟨[], .none rfl rfl⟩
  | completeRefund refund =>
    simp only [exec, StoreM.wrap_ok, completeRefundV2, bind_ok, raiseIf_ok, require_ok, pure_ok,
      exists_const, Prod.mk.injEq] at h
    obtain ⟨_, ⟨record, -, -, -, t, hins, -, rfl⟩, -⟩ := h
    obtain ⟨rfl, -⟩ | ⟨rfl, -⟩ := Store.insertRefundReceiptLocked_ok hins
    · exact .inr ⟨[], .none rfl rfl⟩
    · exact .inr ⟨[], .none rfl rfl⟩
  | markRefundIndeterminate refundId updatedAt =>
    simp only [exec, StoreM.wrap_ok, markRefundAuthorizationIndeterminate, bind_ok, raiseIf_ok,
      require_ok, pure_ok, exists_const, Prod.mk.injEq] at h
    obtain ⟨_, ⟨stored, -, -, -, rfl⟩, -⟩ := h
    exact .inr ⟨[], .none rfl rfl⟩
  | releaseRefund refundId digest releasedAt =>
    simp only [exec, StoreM.wrap_ok, releaseRefundAuthorizationV2, bind_ok, raiseIf_ok, require_ok,
      pure_ok, exists_const, Prod.mk.injEq] at h
    obtain ⟨_, ⟨stored, -, -, -, -, rfl⟩, -⟩ := h
    exact .inr ⟨[], .none rfl rfl⟩
  | saveRefundReceipt refund =>
    simp only [exec, StoreM.wrap_ok, saveRefundReceiptV2, bind_ok, pure_ok, Prod.mk.injEq] at h
    obtain ⟨_, ⟨t, hins, -, rfl⟩, -⟩ := h
    obtain ⟨rfl, -⟩ | ⟨rfl, -⟩ := Store.insertRefundReceiptLocked_ok hins
    · exact .inr ⟨[], .none rfl rfl⟩
    · exact .inr ⟨[], .none rfl rfl⟩
  | action op =>
    simp only [exec, StoreM.wrap_ok] at h
    obtain ⟨_, h, -⟩ := h
    exact .inr (op.exec_recorded horder h)
  | paymentKey op =>
    simp only [exec, StoreM.wrap_ok] at h
    obtain ⟨_, h, -⟩ := h
    obtain ⟨key, -, htouches⟩ := op.exec_touches h
    exact .inr ⟨[], htouches.recorded⟩
  | settleRecoveredFree call =>
    simp only [exec, StoreM.wrap_ok] at h
    obtain ⟨_, h, -⟩ := h
    exact .inr (settleRecoveredFreePrepared_recorded horder h)

end Recorded

/-! ## Every run -/

/-- The links of every decision lead from `PREPARED` to its state, in the order the reader returns
them, and it returns them all. -/
structure Store.Chained (s : Store) : Prop where
  audited : Audited PreparedRouteTransition.fromState PreparedRouteTransition.toState
    PreparedRouteTransition.preparedId .prepared s.states s.transitions.rows
  ascending : ∀ preparedId, (s.linksOf preparedId).Pairwise PreparedRouteTransition.inOrder
  room : ∀ preparedId, (s.linksOf preparedId).length ≤ transitionLimit

section Runs

variable {crypto : Crypto} {s s' : Store} {op : StoreOp}

theorem Store.Chained.empty : Store.empty.Chained where
  audited := audited_empty
  ascending _ := .nil
  room _ := Nat.zero_le _

theorem Store.Chained.created (h : s.Chained) (hcreated : s.Created s') : s'.Chained := by
  obtain ⟨htransitions, preparedId, hnone, hstates⟩ := hcreated
  have hlinks : s'.linksOf = s.linksOf := by
    unfold Store.linksOf
    rw [htransitions]
  refine ⟨?_, hlinks ▸ h.ascending, hlinks ▸ h.room⟩
  rw [hstates, htransitions]
  exact h.audited.create hnone

theorem Store.Chained.recorded (h : s.Chained) (horder : s.InOrder op)
    {links : List PreparedRouteTransition} (hrecorded : s.Recorded op links s') : s'.Chained := by
  have hlinks : ∀ preparedId, s'.linksOf preparedId =
      s.linksOf preparedId ++ movesOf (·.preparedId) preparedId links := by
    intro preparedId
    unfold Store.linksOf
    rw [hrecorded.rows, movesOf_append]
  refine ⟨?_, fun preparedId => ?_, fun preparedId => ?_⟩
  · rw [hrecorded.rows]
    exact h.audited.moves hrecorded.moves
  · rw [hlinks]
    refine List.pairwise_append.mpr ⟨h.ascending preparedId, hrecorded.ascending.filter _,
      fun a ha b hb => ?_⟩
    obtain ⟨hb, hkey⟩ := List.mem_filter.mp hb
    obtain ⟨p, -, -, hfollows, hplans⟩ := hrecorded.planned b hb
    have hp : p.preparedId = preparedId := hplans.preparedId.symm.trans (of_decide_eq_true hkey)
    unfold PreparedRouteTransition.inOrder
    rw [hplans.occurredAt, hplans.transitionId]
    rcases hfollows a (hp ▸ ha) with hlt | ⟨heq, hlt⟩
    · exact .inl hlt
    · exact .inr ⟨heq, String.not_lt.mp (String.lt_asymm hlt)⟩
  · rw [hlinks, List.length_append]
    have hle : (movesOf (·.preparedId) preparedId links).length ≤ links.length :=
      List.length_filter_le _ _
    cases hmoves : movesOf (·.preparedId) preparedId links with
    | nil => exact h.room preparedId
    | cons b bs =>
      obtain ⟨hb, hkey⟩ := List.mem_filter.mp (hmoves ▸ List.mem_cons_self)
      obtain ⟨p, hp, hdue, -, hplans⟩ := hrecorded.planned b hb
      have hid : p.preparedId = preparedId := hplans.preparedId.symm.trans (of_decide_eq_true hkey)
      have hroom := horder.room p hp hdue
      have hcount := hrecorded.count
      rw [hid] at hroom
      rw [← hmoves]
      omega

theorem Store.Chained.apply (h : s.Chained) (horder : s.InOrder op) :
    (s.apply crypto op).Chained := by
  refine commit_induction h fun u s' hexec => ?_
  obtain hcreated | ⟨links, hrecorded⟩ := StoreOp.exec_recorded horder hexec
  · exact h.created hcreated
  · exact h.recorded horder hrecorded

theorem Store.apply_of_rejected (h : ¬ (op.exec crypto s).isOk) : s.apply crypto op = s := by
  unfold Store.apply
  cases hexec : op.exec crypto s with
  | error e => rfl
  | ok p =>
    rw [hexec] at h
    exact absurd rfl h

/-- The reader returns the links of a decision as they were recorded. -/
theorem Store.Chained.list (h : s.Chained) (preparedId : String) :
    s.listPreparedTransitions preparedId transitionLimit = s.linksOf preparedId := by
  unfold Store.listPreparedTransitions
  rw [(h.ascending preparedId).insertionSort_eq]
  exact List.take_of_length_le (h.room preparedId)

/-- A transaction leads every stored decision along the links it records for it. -/
theorem Store.apply_links (horder : s.InOrder op) :
    ∃ links, (s.apply crypto op).transitions.rows = s.transitions.rows ++ links ∧
      links.length ≤ op.planned.length ∧
      ∀ row ∈ s.prepared, ∃ row' ∈ (s.apply crypto op).prepared,
        row'.preparedId = row.preparedId ∧
        row.state.Chain (movesOf (·.preparedId) row.preparedId links) row'.state := by
  have hfound : ∀ (t : Store) (preparedId : String) (state : PreparedDecisionState),
      t.states preparedId = some state →
      ∃ row ∈ t.prepared, row.preparedId = preparedId ∧ row.state = state := by
    intro t preparedId state h
    obtain ⟨row, hrow, hstate⟩ := Option.map_eq_some_iff.mp h
    exact ⟨row, Table.mem_of_find? hrow, Table.key_of_find? hrow, hstate⟩
  have hstate : ∀ row ∈ s.prepared, s.states row.preparedId = some row.state :=
    fun row hrow => Store.states_of_find? (Table.find?_of_mem hrow)
  unfold Store.apply
  cases hexec : op.exec crypto s with
  | error e =>
    refine ⟨[], (List.append_nil _).symm, Nat.zero_le _, fun row hrow => ?_⟩
    exact ⟨row, hrow, rfl, rfl⟩
  | ok p =>
    obtain ⟨u, s'⟩ := p
    rw [commit_ok]
    obtain ⟨htransitions, preparedId, hnone, hstates⟩ | ⟨links, hrecorded⟩ :=
      StoreOp.exec_recorded horder hexec
    · refine ⟨[], by rw [htransitions, List.append_nil], Nat.zero_le _, fun row hrow => ?_⟩
      have hne : row.preparedId ≠ preparedId := by
        rintro heq
        rw [← heq, hstate row hrow] at hnone
        cases hnone
      obtain ⟨row', hmem, hid, hsame⟩ := hfound s' row.preparedId row.state
        (by rw [hstates, Function.update_of_ne hne, hstate row hrow])
      exact ⟨row', hmem, hid, hsame.symm⟩
    · refine ⟨links, hrecorded.rows, hrecorded.count, fun row hrow => ?_⟩
      obtain ⟨state, hstate', hchain⟩ := hrecorded.moves.chained (hstate row hrow)
      obtain ⟨row', hmem, hid, rfl⟩ := hfound _ _ _ hstate'
      exact ⟨row', hmem, hid, hchain⟩

end Runs

/-- In every store a run in order reaches, the links of a decision lead in the order of the reader
from `PREPARED` to its state; a transaction in order records one link for each step a decision
takes, and a rejected one none. -/
theorem transitions_chained (crypto : Crypto) {ops : List StoreOp} {s : Store}
    (hs : run (Store.apply crypto) .empty ops = s)
    (hops : Admissible (Store.apply crypto) Store.InOrder .empty ops) :
    (∀ row ∈ s.prepared, PreparedDecisionState.prepared.Chain
      (s.listPreparedTransitions row.preparedId transitionLimit) row.state) ∧
    (∀ op, s.InOrder op →
      ∃ links, (s.apply crypto op).transitions.rows = s.transitions.rows ++ links ∧
        links.length ≤ op.planned.length ∧
        ∀ row ∈ s.prepared, ∃ row' ∈ (s.apply crypto op).prepared,
          row'.preparedId = row.preparedId ∧
          row.state.Chain (movesOf (·.preparedId) row.preparedId links) row'.state) ∧
    ∀ op, ¬ (op.exec crypto s).isOk → (s.apply crypto op).transitions = s.transitions := by
  subst hs
  have hchained : (run (Store.apply crypto) .empty ops).Chained :=
    run_invariant_of_admissible (fun _ _ h horder => h.apply horder) .empty hops
  refine ⟨fun row hrow => ?_, fun op horder => Store.apply_links horder, fun op hrejected => ?_⟩
  · rw [hchained.list]
    exact hchained.audited.chain _ _ (Store.states_of_find? (Table.find?_of_mem hrow))
  · rw [Store.apply_of_rejected hrejected]

/-! ## One free action -/

/-- An action verified to cost nothing. -/
def freeDecision : PreparedRouteDecision :=
  { dollarAction.decision with
    basis := none
    expectedCash := ⟨.complete, [⟨"charge", some 0, "USD", .verified, ""⟩]⟩
    maximumCashAuthorization := some ⟨0, "USD", zero_amount_nonneg⟩ }

def freeReceipt : ExecutionReceipt :=
  ⟨"receipt", "decision", "action", "executor", "success",
    [("prepared_id", .string "action"), ("attempt_id", .string "attempt"),
      ("charge_id", .string "charge")]⟩

/-- The action is invoked, loses its caller and is recovered from its receipt. -/
def recoverFree (settlingId settledId : String) : List StoreOp :=
  [.savePreparedDecision freeDecision,
    .claimPreparedDecision "action" "worker" 0,
    .claimPreparedForInvocation
      ⟨"action", "worker", freeDecision.actionDigest, freeDecision.effectivePolicyDigest,
        PaidAction.fingerprint, 1, "transition"⟩,
    .writeEvidence { Evidence.empty with receipts := (∅ : Table _ _).insert freeReceipt },
    .settleRecoveredFree ⟨"action", "receipt", 2, settlingId, settledId⟩]

theorem transitions_chained_of_recovery :
    ∃ row ∈ (run (Store.apply (.ofDigests [])) .empty (recoverFree "a" "b")).prepared.rows,
      row.state = .settled ∧ PreparedDecisionState.prepared.Chain
        ((run (Store.apply (.ofDigests [])) .empty (recoverFree "a" "b")).listPreparedTransitions
          row.preparedId transitionLimit) row.state := by
  have hops : Admissible (Store.apply (.ofDigests [])) Store.InOrder .empty
      (recoverFree "a" "b") := by decide +kernel
  have hsettled : ∃ row ∈ (run (Store.apply (.ofDigests [])) .empty
      (recoverFree "a" "b")).prepared.rows, row.state = .settled := by decide +kernel
  obtain ⟨row, hrow, hstate⟩ := hsettled
  exact ⟨row, hrow, hstate, (transitions_chained (.ofDigests []) rfl hops).1 row hrow⟩

/-- The two links of a recovery share their time; when their random ids sort the other way, the
reader returns the move to `SETTLED` before the move it started from. -/
theorem transitions_out_of_order :
    let s := run (Store.apply (.ofDigests [])) .empty (recoverFree "b" "a")
    s.states "action" = some .settled ∧
      ¬ PreparedDecisionState.prepared.Chain (s.listPreparedTransitions "action" transitionLimit)
        .settled := by
  decide +kernel

end AeepRouter

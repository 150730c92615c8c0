import AeepRouter.Entitlement.Ledger
import AeepRouter.Lib.Audit
import AeepRouter.Lib.Clock

/-!
# An entitlement is consumed once

The receipts of an entitlement are a chain: each was made from the balance the one before it left,
the first from the maximum, and the last leaves what the row says. Conservation follows, whatever is
redeemed, replayed or released in between.
-/

namespace AeepRouter

open Lib

/-- The receipts of an entitlement among some, in the order they were made. -/
abbrev receiptsAmong (entitlementId : String) (receipts : List EntitlementRedemptionReceipt) :
    List EntitlementRedemptionReceipt :=
  movesOf EntitlementRedemptionReceipt.entitlementId entitlementId receipts

theorem receiptsAmong_append (entitlementId : String)
    (receipts receipts' : List EntitlementRedemptionReceipt) :
    receiptsAmong entitlementId (receipts ++ receipts') =
      receiptsAmong entitlementId receipts ++ receiptsAmong entitlementId receipts' :=
  movesOf_append _ _ _ _

def EntitlementStore.receiptsOf (s : EntitlementStore) (entitlementId : String) :
    List EntitlementRedemptionReceipt :=
  receiptsAmong entitlementId s.redemptions.rows

/-- The receipts account for what is left of every entitlement. -/
structure EntitlementStore.Conserves (s : EntitlementStore) : Prop where
  chained : ∀ row ∈ s.entitlements,
    Chained EntitlementRedemptionReceipt.before (·.remainingQuantity) row.payload.maximumQuantity
      (s.receiptsOf row.entitlementId) row.remainingQuantity
  known : ∀ r ∈ s.redemptions, (s.entitlements.find? r.entitlementId).isSome
  once : ∀ r ∈ s.redemptions, ∀ r' ∈ s.redemptions, r.attemptId = r'.attemptId → r = r'

section Step

variable {digests : EntitlementDigests} {s s' : EntitlementStore} {now : Int}

theorem EntitlementStore.Conserves.empty : EntitlementStore.empty.Conserves where
  chained _ hrow := absurd hrow Table.not_mem_empty
  known _ hr := absurd hr Table.not_mem_empty
  once _ hr := absurd hr Table.not_mem_empty

theorem EntitlementRow.isSome_modify {t : Table EntitlementRow EntitlementRow.entitlementId}
    {f : Table.Rewrite (α := EntitlementRow) EntitlementRow.entitlementId} {id id' : String}
    (h : (t.find? id').isSome) : ((t.modify id f).find? id').isSome := by
  rw [Table.find?_modify]
  split
  · next hid => rwa [Option.isSome_map, ← hid]
  · exact h

theorem EntitlementStep.conserves (h : EntitlementStep digests now s s') (hs : s.Conserves) :
    s'.Conserves := by
  cases h with
  | stay evidence => exact ⟨hs.chained, hs.known, hs.once⟩
  | granted entitlement hfree =>
    set new : EntitlementRow := ⟨entitlement, entitlement.maximumQuantity, .active, 0⟩
    have hfree' : s.entitlements.find? new.entitlementId = none := hfree
    refine ⟨fun row hrow => ?_, fun r hr => ?_, hs.once⟩
    · rcases (Table.mem_insert hfree').mp hrow with hrow | rfl
      · exact hs.chained row hrow
      · have hnone : s.receiptsOf new.entitlementId = [] := by
          refine List.filter_eq_nil_iff.mpr fun r hr hkey => ?_
          have hknown := hs.known r hr
          have hkey' : r.entitlementId = new.entitlementId := of_decide_eq_true hkey
          rw [hkey', hfree'] at hknown
          cases hknown
        show Chained _ _ _ (s.receiptsOf new.entitlementId) _
        rw [hnone]
        rfl
    · show ((s.entitlements.insert new).find? r.entitlementId).isSome
      rw [Table.find?_insert hfree']
      split
      · rfl
      · exact hs.known r hr
  | redeemed row attemptId quantity hpositive hfits hrow hactive hexpires hnew hfree =>
    set receipt := row.receipt digests attemptId quantity now hpositive hfits
    have hfree' : s.redemptions.find? receipt.redemptionId = none := hfree
    have hlog : ∀ id, receiptsAmong id (s.redemptions.insert receipt).rows =
        s.receiptsOf id ++ receiptsAmong id [receipt] := by
      intro id
      rw [Table.insert_rows hfree', receiptsAmong_append]
      rfl
    refine ⟨fun row' hrow' => ?_, fun r hr => ?_, fun r hr r' hr' hsame => ?_⟩
    · obtain ⟨old, hold, rfl⟩ := Table.mem_modify.mp hrow'
      have hchain := hs.chained old hold
      by_cases hid : old.entitlementId = row.entitlementId
      · obtain rfl : old = row := Table.eq_of_key_eq hold (Table.mem_of_find? hrow) hid
        rw [if_pos rfl]
        show Chained _ _ _ (receiptsAmong old.entitlementId (s.redemptions.insert receipt).rows) _
        have hself : receiptsAmong old.entitlementId [receipt] = [receipt] :=
          movesOf_cons_self EntitlementRedemptionReceipt.entitlementId receipt []
        rw [hlog, hself, chained_append]
        exact ⟨old.remainingQuantity, hchain, add_sub_cancel _ _, rfl⟩
      · rw [if_neg hid]
        show Chained _ _ _ (receiptsAmong old.entitlementId (s.redemptions.insert receipt).rows) _
        have hother : receiptsAmong old.entitlementId [receipt] = [] :=
          movesOf_cons_ne EntitlementRedemptionReceipt.entitlementId (Ne.symm hid) []
        rw [hlog, hother, List.append_nil]
        exact hchain
    · refine EntitlementRow.isSome_modify ?_
      rcases (Table.mem_insert hfree').mp hr with hr | rfl
      · exact hs.known r hr
      · exact Option.isSome_of_mem hrow
    · rcases (Table.mem_insert hfree').mp hr with hr | rfl
      · rcases (Table.mem_insert hfree').mp hr' with hr' | rfl
        · exact hs.once r hr r' hr' hsame
        · exact absurd hsame (hnew r hr)
      · rcases (Table.mem_insert hfree').mp hr' with hr' | rfl
        · exact absurd hsame.symm (hnew r' hr')
        · rfl
  | released entitlementId =>
    refine ⟨fun row hrow => ?_, fun r hr => EntitlementRow.isSome_modify (hs.known r hr), hs.once⟩
    obtain ⟨old, hold, rfl⟩ := Table.mem_modify.mp hrow
    have hchain := hs.chained old hold
    split
    · exact hchain
    · exact hchain

/-- An entitlement that gives out nothing more. -/
def EntitlementRow.Closed (now : Int) (row : EntitlementRow) : Prop :=
  row.state ≠ .active ∨ row.payload.expiresAt ≤ now

def EntitlementStore.ClosedWith (entitlementId : String)
    (receipts : List EntitlementRedemptionReceipt) (now : Int) (s : EntitlementStore) : Prop :=
  s.receiptsOf entitlementId = receipts ∧
    ∃ row, s.entitlements.find? entitlementId = some row ∧ row.Closed now

theorem EntitlementStep.closed {entitlementId : String}
    {receipts : List EntitlementRedemptionReceipt} (h : EntitlementStep digests now s s')
    (hs : s.ClosedWith entitlementId receipts now) : s'.ClosedWith entitlementId receipts now := by
  obtain ⟨hreceipts, row, hrow, hclosed⟩ := hs
  cases h with
  | stay evidence => exact ⟨hreceipts, row, hrow, hclosed⟩
  | granted entitlement hfree =>
    refine ⟨hreceipts, row, ?_, hclosed⟩
    set new : EntitlementRow := ⟨entitlement, entitlement.maximumQuantity, .active, 0⟩
    have hfree' : s.entitlements.find? new.entitlementId = none := hfree
    show (s.entitlements.insert new).find? entitlementId = some row
    rw [Table.find?_insert hfree', if_neg, hrow]
    rintro rfl
    cases hrow.symm.trans hfree'
  | redeemed drawn attemptId quantity hpositive hfits hdrawn hactive hexpires hnew hfree =>
    have hne : entitlementId ≠ drawn.entitlementId := by
      rintro rfl
      obtain rfl := Option.some.inj (hrow.symm.trans hdrawn)
      rcases hclosed with hstate | hexpired
      · exact hstate hactive
      · exact absurd hexpired (not_le.mpr hexpires)
    refine ⟨?_, row, (Table.find?_modify_ne hne).trans hrow, hclosed⟩
    set receipt := drawn.receipt digests attemptId quantity now hpositive hfits
    have hfree' : s.redemptions.find? receipt.redemptionId = none := hfree
    show receiptsAmong entitlementId (s.redemptions.insert receipt).rows = receipts
    have hother : receiptsAmong entitlementId [receipt] = [] :=
      movesOf_cons_ne EntitlementRedemptionReceipt.entitlementId hne.symm []
    rw [Table.insert_rows hfree', receiptsAmong_append, hother, List.append_nil]
    exact hreceipts
  | released released =>
    by_cases hid : entitlementId = released
    · subst hid
      exact ⟨hreceipts, _, Table.find?_modify_self hrow, .inl nofun⟩
    · exact ⟨hreceipts, row, (Table.find?_modify_ne hid).trans hrow, hclosed⟩

end Step

/-! ## Runs -/

section Runs

variable {digests : EntitlementDigests} {s : EntitlementStore} {op : EntitlementOp} {now later : Int}

theorem EntitlementStore.ClosedWith.of_later {entitlementId : String}
    {receipts : List EntitlementRedemptionReceipt} (hle : now ≤ later)
    (hs : s.ClosedWith entitlementId receipts now) : s.ClosedWith entitlementId receipts later := by
  obtain ⟨hreceipts, row, hrow, hclosed⟩ := hs
  exact ⟨hreceipts, row, hrow, hclosed.imp_right fun h => h.trans hle⟩

/-- A redemption repeated exactly returns its receipt and changes nothing, whatever has happened
since. -/
theorem redeemEntitlement_replay (hs : s.Conserves) {r : EntitlementRedemptionReceipt}
    (hr : r ∈ s.redemptions) (now : Int) :
    redeemEntitlement digests r.entitlementId r.attemptId r.quantityConsumed now s = .ok (r, s) := by
  have hfind : s.receiptOf? r.attemptId = some r := by
    cases h : s.receiptOf? r.attemptId with
    | none => exact absurd (decide_eq_true rfl) (List.find?_eq_none.mp h r hr)
    | some r' =>
      have hsame := List.find?_some h
      rw [hs.once r' (List.mem_of_find?_eq_some h) r hr (of_decide_eq_true hsame)]
  unfold redeemEntitlement
  rw [dif_pos r.positive, hfind]
  simp only [bind_ok, raiseIf_ok, exists_const, pure_ok]
  exact ⟨by tauto, trivial⟩

theorem EntitlementStore.Conserves.balance_after (hs : s.Conserves) {row : EntitlementRow}
    (hrow : row ∈ s.entitlements) {r : EntitlementRedemptionReceipt}
    {pre post : List EntitlementRedemptionReceipt} (hsplit : s.redemptions.rows = pre ++ r :: post)
    (hr : r.entitlementId = row.entitlementId) :
    row.payload.maximumQuantity =
      ((receiptsAmong row.entitlementId (pre ++ [r])).map (·.quantityConsumed)).sum +
        r.remainingQuantity := by
  have hchain := hs.chained row hrow
  have hlast : receiptsAmong row.entitlementId [r] = [r] := by
    rw [← hr]
    exact movesOf_cons_self EntitlementRedemptionReceipt.entitlementId r []
  have hparts : s.receiptsOf row.entitlementId =
      receiptsAmong row.entitlementId (pre ++ [r]) ++
        receiptsAmong row.entitlementId post := by
    unfold receiptsOf
    rw [hsplit, ← receiptsAmong_append, List.append_assoc, List.singleton_append]
  rw [hparts, chained_append] at hchain
  obtain ⟨left, hfirst, -⟩ := hchain
  obtain rfl : r.remainingQuantity = left := by
    rw [receiptsAmong_append, hlast, chained_append] at hfirst
    obtain ⟨_, -, -, hleft⟩ := hfirst
    exact hleft
  exact hfirst.sum fun _ => rfl

/-- Over every run under a clock that does not go back: the receipts of an entitlement and what is
left of it add up to its maximum, each attempt has one receipt, each receipt tells the balance it
left, an exact replay returns the receipt and changes nothing, and no receipt is added once the
entitlement is released, consumed or expired. -/
theorem entitlement_conserved (digests : EntitlementDigests) (start : Int)
    (events : List (TimedEvent EntitlementOp))
    (hadm : Admissible (Timed.step (EntitlementStore.apply digests))
      (Timed.Meets fun now _ op => op.Dated now) ⟨start, .empty⟩ events) :
    let s := (run (Timed.step (EntitlementStore.apply digests)) ⟨start, .empty⟩ events).state
    (∀ row ∈ s.entitlements,
      ((s.receiptsOf row.entitlementId).map (·.quantityConsumed)).sum + row.remainingQuantity =
        row.payload.maximumQuantity) ∧
    (∀ r ∈ s.redemptions, ∀ r' ∈ s.redemptions, r.attemptId = r'.attemptId → r = r') ∧
    (∀ row ∈ s.entitlements, ∀ pre r post, s.redemptions.rows = pre ++ r :: post →
      r.entitlementId = row.entitlementId → r.remainingQuantity = row.payload.maximumQuantity -
        ((receiptsAmong row.entitlementId (pre ++ [r])).map
          (·.quantityConsumed)).sum) ∧
    (∀ r ∈ s.redemptions, ∀ now,
      redeemEntitlement digests r.entitlementId r.attemptId r.quantityConsumed now s =
        .ok (r, s)) ∧
    ∀ before after, events = before ++ after →
      let b := run (Timed.step (EntitlementStore.apply digests)) ⟨start, .empty⟩ before
      ∀ row ∈ b.state.entitlements,
        row.state = .released ∨ row.state = .consumed ∨ row.payload.expiresAt ≤ b.now →
        s.receiptsOf row.entitlementId = b.state.receiptsOf row.entitlementId := by
  intro s
  have hs : s.Conserves := Timed.run_invariant (fun _ s => s.Conserves) (fun _ _ _ _ hs => hs)
    (fun _ _ _ hs hop => EntitlementStore.apply_induction (P := EntitlementStore.Conserves) hop hs
      fun _ h => h.conserves hs) hadm .empty
  refine ⟨fun row hrow => ((hs.chained row hrow).sum fun _ => rfl).symm, hs.once,
    fun row hrow pre r post hsplit hr => ?_, fun r hr now => redeemEntitlement_replay hs hr now, ?_⟩
  · exact eq_sub_of_add_eq' (hs.balance_after hrow hsplit hr).symm
  · rintro before after rfl b row hrow hclosed
    obtain ⟨-, hafter⟩ := admissible_append.mp hadm
    have hwith : b.state.ClosedWith row.entitlementId (b.state.receiptsOf row.entitlementId)
        b.now := by
      refine ⟨rfl, row, Table.find?_of_mem hrow, ?_⟩
      rcases hclosed with hstate | hstate | hexpired
      · exact .inl (by rw [hstate]; nofun)
      · exact .inl (by rw [hstate]; nofun)
      · exact .inr hexpired
    have hafter' := Timed.run_invariant (EntitlementStore.ClosedWith row.entitlementId _)
      (fun _ _ _ hle hs => hs.of_later hle)
      (fun _ _ _ hs hop => EntitlementStore.apply_induction hop hs fun _ h => h.closed hs) hafter
      hwith
    have hrun : s = (run (Timed.step (EntitlementStore.apply digests)) b after).state := by
      rw [← run_append]
    rw [hrun]
    exact hafter'.1

/-- Ten calls, good until an instant. -/
def tenCalls (expiresAt : Int) : ExecutionEntitlement where
  entitlementId := "entitlement"
  issuerPrincipalDigest := "sha256:0000000000000000000000000000000000000000000000000000000000000001"
  beneficiaryPrincipalDigest :=
    "sha256:0000000000000000000000000000000000000000000000000000000000000001"
  backingResourceId := "pool"
  backingResourceFingerprint :=
    "sha256:0000000000000000000000000000000000000000000000000000000000000002"
  capability := "tool.call"
  actionDigest := "sha256:0000000000000000000000000000000000000000000000000000000000000003"
  maximumQuantity := 10
  unit := "call"
  expiresAt := expiresAt
  nonce := "0123456789abcdef"
  transferabilityBasis := .selfOnly
  authorizationEvidenceId := none
  signature := ""
  rest := ""
  positive := by norm_num
  personal _ := rfl
  authorized h := absurd rfl h

/-- Digests that tell attempts apart. -/
def plainDigests : EntitlementDigests := ⟨fun e => e.entitlementId, fun _ a _ _ => a, id⟩

/-- Two redemptions, a replay of the first, a conflicting one, a release and a late redemption. -/
def tenCallEvents : List (TimedEvent EntitlementOp) :=
  [.act (.save (tenCalls 20)), .act (.redeem "entitlement" "first" 3 0), .elapse 5,
    .act (.redeem "entitlement" "second" 4 5), .act (.redeem "entitlement" "first" 3 5),
    .act (.redeem "entitlement" "first" 2 5), .act (.release "entitlement" 2 5),
    .act (.redeem "entitlement" "third" 1 5)]

theorem entitlement_conserved_of_ten :
    let s := (run (Timed.step (EntitlementStore.apply plainDigests)) ⟨0, .empty⟩
      tenCallEvents).state
    ∀ row ∈ s.entitlements,
      ((s.receiptsOf row.entitlementId).map (·.quantityConsumed)).sum + row.remainingQuantity =
        row.payload.maximumQuantity :=
  (entitlement_conserved plainDigests 0 tenCallEvents (by decide +kernel)).1

end Runs

end AeepRouter

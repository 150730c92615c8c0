import AeepRouter.Entitlement.Ledger

/-!
# x402 batches

`commit` turns an entitlement into a batch record, `accumulate` adds a redemption receipt to it and
`reconcile` compares it with a claimed quantity. The records are values: `model_copy` changes one
without running its validator.
-/

namespace AeepRouter.X402

open Lib

/-! ## Records -/

inductive X402BatchState where
  | committed
  | accumulating
  | redeemed
  | released
  | disputed
  deriving DecidableEq, Repr

namespace X402BatchState

def text : X402BatchState → String
  | committed => "committed"
  | accumulating => "accumulating"
  | redeemed => "redeemed"
  | released => "released"
  | disputed => "disputed"

def accumulates : X402BatchState → Bool
  | committed | accumulating => true
  | redeemed | released | disputed => false

end X402BatchState

@[ext] structure X402CapacityCommitment where
  entitlementId : String
  entitlementDigest : String
  beneficiaryPrincipalDigest : String
  backingResourceFingerprint : String
  capability : String
  actionDigest : String
  maximumQuantity : ℚ
  unit : String
  expiresAt : Int
  nonce : String
  authorizationEvidenceId : String
  signature : String
  positive : 0 < maximumQuantity

instance : DecidableEq X402CapacityCommitment := fun _ _ =>
  decidable_of_iff _ X402CapacityCommitment.ext_iff.symm

structure X402BatchRecord where
  commitment : X402CapacityCommitment
  state : X402BatchState
  accumulatedQuantity : ℚ
  remainingQuantity : ℚ
  redemptionEvidenceDigests : List String
  releasedQuantity : ℚ
  disputeReason : Option String
  deriving DecidableEq

def X402BatchRecord.quantitiesBalance (record : X402BatchRecord) : Result X402BatchRecord := do
  raiseIf (dec (record.accumulatedQuantity + record.remainingQuantity) ≠
      record.commitment.maximumQuantity)
    (.value "x402 accumulated and remaining quantities must balance")
  raiseIf (record.remainingQuantity < record.releasedQuantity)
    (.value "x402 release exceeds remaining quantity")
  raiseIf (record.state = .disputed ∧ (record.disputeReason = none ∨ record.disputeReason = some ""))
    (.value "x402 dispute requires a reason")
  pure record

/-! ## Operations -/

def commit (digests : EntitlementDigests) (entitlement : ExecutionEntitlement) (enabled : Bool) :
    Result X402BatchRecord := do
  raiseIf (¬ enabled) (.value "x402 capacity binding is disabled")
  raiseIf (entitlement.transferabilityBasis.personal)
    (.value "self-only capacity cannot be serialized as x402")
  let authorizationEvidenceId ← require entitlement.authorizationEvidenceId
    (.value "x402 capacity commitment requires provider authority evidence")
  checkReceiptId entitlement.entitlementId
  checkReceiptId authorizationEvidenceId
  let commitment : X402CapacityCommitment :=
    { entitlementId := entitlement.entitlementId
      entitlementDigest := digests.entitlement entitlement
      beneficiaryPrincipalDigest := entitlement.beneficiaryPrincipalDigest
      backingResourceFingerprint := entitlement.backingResourceFingerprint
      capability := entitlement.capability
      actionDigest := entitlement.actionDigest
      maximumQuantity := entitlement.maximumQuantity
      unit := entitlement.unit
      expiresAt := entitlement.expiresAt
      nonce := entitlement.nonce
      authorizationEvidenceId := authorizationEvidenceId
      signature := entitlement.signature
      positive := entitlement.positive }
  X402BatchRecord.quantitiesBalance
    { commitment := commitment
      state := .committed
      accumulatedQuantity := 0
      remainingQuantity := commitment.maximumQuantity
      redemptionEvidenceDigests := []
      releasedQuantity := 0
      disputeReason := none }

def accumulate (record : X402BatchRecord) (receipt : EntitlementRedemptionReceipt) :
    Result X402BatchRecord := do
  raiseIf (¬ record.state.accumulates)
    (.value ("cannot accumulate a " ++ record.state.text ++ " x402 batch"))
  raiseIf (receipt.entitlementId ≠ record.commitment.entitlementId)
    (.value "redemption does not match x402 commitment")
  raiseIf (receipt.evidenceDigest ∈ record.redemptionEvidenceDigests)
    (.value "x402 redemption evidence replay")
  let consumed := dec (record.accumulatedQuantity + receipt.quantityConsumed)
  raiseIf (record.commitment.maximumQuantity < consumed)
    (.value "x402 accumulation exceeds maximum authorization")
  let remaining := dec (record.commitment.maximumQuantity - consumed)
  raiseIf (receipt.remainingQuantity ≠ remaining)
    (.value "x402 redemption remaining quantity conflicts")
  pure
    { record with
      state := if remaining = 0 then .redeemed else .accumulating
      accumulatedQuantity := consumed
      remainingQuantity := remaining
      redemptionEvidenceDigests := record.redemptionEvidenceDigests ++ [receipt.evidenceDigest] }

def reconcile (record : X402BatchRecord) (claimed : ℚ) (releaseRemaining : Bool) :
    Result X402BatchRecord := do
  raiseIf (claimed < 0) (.value "x402 reconciliation quantity must be finite and non-negative")
  if record.commitment.maximumQuantity < claimed ∨ record.accumulatedQuantity < claimed then
    pure { record with
      state := .disputed
      disputeReason := some "claimed quantity exceeds authorized observed consumption" }
  else if claimed ≠ record.accumulatedQuantity then
    pure { record with
      state := .disputed
      disputeReason := some "claimed quantity conflicts with redemption evidence" }
  else if releaseRemaining ∧ record.remainingQuantity ≠ 0 then
    pure { record with state := .released, releasedQuantity := record.remainingQuantity }
  else
    pure { record with state := if record.remainingQuantity = 0 then .redeemed else .accumulating }

/-! ## Runs -/

inductive BatchOp where
  | accumulate (receipt : EntitlementRedemptionReceipt)
  | reconcile (claimed : ℚ) (releaseRemaining : Bool)
  deriving DecidableEq

structure Batch where
  record : X402BatchRecord
  applied : List EntitlementRedemptionReceipt
  deriving DecidableEq

/-- The batch after a call, which keeps the record it had when the call raises. -/
def Batch.step (b : Batch) : BatchOp → Batch
  | .accumulate receipt =>
    match X402.accumulate b.record receipt with
    | .ok record => ⟨record, b.applied ++ [receipt]⟩
    | .error _ => b
  | .reconcile claimed releaseRemaining =>
    match X402.reconcile b.record claimed releaseRemaining with
    | .ok record => { b with record := record }
    | .error _ => b

/-- A quantity the decimal context keeps as it is: 28 digits hold it. -/
def Exact (q : ℚ) : Prop := dec q = q

instance : DecidablePred Exact := fun q => inferInstanceAs (Decidable (dec q = q))

/-- A closed record agreed upon with something left and nothing to release, which `reconcile` opens
again. -/
def X402BatchRecord.Reopens (record : X402BatchRecord) (claimed : ℚ) (releaseRemaining : Bool) :
    Prop :=
  ¬ record.state.accumulates ∧ claimed = record.accumulatedQuantity ∧
    record.remainingQuantity ≠ 0 ∧ ¬ releaseRemaining

instance (record : X402BatchRecord) (claimed : ℚ) (releaseRemaining : Bool) :
    Decidable (record.Reopens claimed releaseRemaining) := by
  unfold X402BatchRecord.Reopens
  infer_instance

/-- The calls after which a batch is in order. -/
def BatchOp.Sound (b : Batch) : BatchOp → Prop
  | accumulate receipt =>
    Exact (b.record.accumulatedQuantity + receipt.quantityConsumed) ∧
      Exact (b.record.commitment.maximumQuantity -
        (b.record.accumulatedQuantity + receipt.quantityConsumed))
  | reconcile claimed releaseRemaining => ¬ b.record.Reopens claimed releaseRemaining

instance (b : Batch) (op : BatchOp) : Decidable (op.Sound b) := by
  cases op <;> unfold BatchOp.Sound <;> infer_instance

/-- The record accounts for the receipts it was given. -/
structure Batch.InOrder (b : Batch) : Prop where
  sum : b.record.accumulatedQuantity = (b.applied.map (·.quantityConsumed)).sum
  balance : b.record.accumulatedQuantity + b.record.remainingQuantity =
    b.record.commitment.maximumQuantity
  released : b.record.releasedQuantity ≤ b.record.remainingQuantity
  unreleased : b.record.state.accumulates → b.record.releasedQuantity = 0
  digests : b.record.redemptionEvidenceDigests = b.applied.map (·.evidenceDigest)
  distinct : b.record.redemptionEvidenceDigests.Nodup

section Steps

variable {b : Batch} {record : X402BatchRecord}

theorem accumulate_ok {receipt : EntitlementRedemptionReceipt}
    (h : accumulate b.record receipt = .ok record) :
    b.record.state.accumulates ∧ receipt.evidenceDigest ∉ b.record.redemptionEvidenceDigests ∧
      receipt.remainingQuantity = dec (b.record.commitment.maximumQuantity -
        dec (b.record.accumulatedQuantity + receipt.quantityConsumed)) ∧
      record = { b.record with
        state := if receipt.remainingQuantity = 0 then .redeemed else .accumulating
        accumulatedQuantity := dec (b.record.accumulatedQuantity + receipt.quantityConsumed)
        remainingQuantity := receipt.remainingQuantity
        redemptionEvidenceDigests :=
          b.record.redemptionEvidenceDigests ++ [receipt.evidenceDigest] } := by
  simp only [accumulate, bind_ok, raiseIf_ok, exists_const, pure_ok, not_not, ne_eq] at h
  obtain ⟨hstate, -, hfresh, -, hremaining, rfl⟩ := h
  exact ⟨hstate, hfresh, hremaining, by rw [hremaining]⟩

theorem Batch.InOrder.accumulate {receipt : EntitlementRedemptionReceipt} (hb : b.InOrder)
    (hsound : (BatchOp.accumulate receipt).Sound b)
    (h : accumulate b.record receipt = .ok record) :
    Batch.InOrder ⟨record, b.applied ++ [receipt]⟩ := by
  obtain ⟨hstate, hfresh, hremaining, rfl⟩ := accumulate_ok h
  obtain ⟨hsum, hrest⟩ := hsound
  unfold Exact at hsum hrest
  rw [hsum, hrest] at hremaining
  have hunreleased := hb.unreleased hstate
  refine ⟨?_, ?_, ?_, fun _ => hunreleased, ?_, ?_⟩
  · show dec _ = _
    rw [hsum, hb.sum]
    simp
  · show dec _ + receipt.remainingQuantity = _
    rw [hsum, hremaining]
    ring
  · show b.record.releasedQuantity ≤ receipt.remainingQuantity
    rw [hunreleased]
    exact receipt.nonneg
  · show b.record.redemptionEvidenceDigests ++ [receipt.evidenceDigest] = _
    rw [hb.digests, List.map_append]
    rfl
  · show (b.record.redemptionEvidenceDigests ++ [receipt.evidenceDigest]).Nodup
    rw [← List.concat_eq_append]
    exact hb.distinct.concat hfresh

theorem commit_ok {digests : EntitlementDigests} {entitlement : ExecutionEntitlement}
    {enabled : Bool} (h : commit digests entitlement enabled = .ok record) :
    record.commitment.maximumQuantity = entitlement.maximumQuantity ∧
      record.state = .committed ∧ record.accumulatedQuantity = 0 ∧
      record.remainingQuantity = record.commitment.maximumQuantity ∧
      record.redemptionEvidenceDigests = [] ∧ record.releasedQuantity = 0 := by
  simp only [commit, X402BatchRecord.quantitiesBalance, bind_ok, raiseIf_ok, require_ok,
    exists_const, pure_ok] at h
  obtain ⟨-, -, -, -, ⟨⟩, -, ⟨⟩, -, -, -, -, rfl⟩ := h
  exact ⟨rfl, rfl, rfl, rfl, rfl, rfl⟩

theorem reconcile_ok {claimed : ℚ} {releaseRemaining : Bool}
    (h : reconcile b.record claimed releaseRemaining = .ok record) :
    (∃ reason, record = { b.record with state := .disputed, disputeReason := some reason }) ∨
      claimed = b.record.accumulatedQuantity ∧
        (b.record.remainingQuantity ≠ 0 ∧
            record = { b.record with
              state := .released
              releasedQuantity := b.record.remainingQuantity } ∨
          (b.record.remainingQuantity = 0 ∨ ¬ releaseRemaining) ∧
            record = { b.record with
              state := if b.record.remainingQuantity = 0 then .redeemed else .accumulating }) := by
  unfold reconcile at h
  simp only [bind_ok, raiseIf_ok, exists_const] at h
  obtain ⟨-, h⟩ := h
  split at h
  · exact .inl ⟨_, (pure_ok.mp h).symm⟩
  split at h
  · exact .inl ⟨_, (pure_ok.mp h).symm⟩
  rename_i hclaimed
  refine .inr ⟨not_not.mp hclaimed, ?_⟩
  split at h <;> rename_i hrelease
  · exact .inl ⟨hrelease.2, (pure_ok.mp h).symm⟩
  · refine .inr ⟨?_, (pure_ok.mp h).symm⟩
    by_cases hremaining : b.record.remainingQuantity = 0
    · exact .inl hremaining
    · exact .inr fun htrue => hrelease ⟨htrue, hremaining⟩

theorem Batch.InOrder.commit {digests : EntitlementDigests} {entitlement : ExecutionEntitlement}
    {enabled : Bool} (h : commit digests entitlement enabled = .ok record) :
    Batch.InOrder ⟨record, []⟩ := by
  obtain ⟨-, -, hnone, hall, hdigests, hreleased⟩ := commit_ok h
  refine ⟨hnone, ?_, ?_, fun _ => hreleased, hdigests, ?_⟩
  · show record.accumulatedQuantity + record.remainingQuantity = _
    rw [hnone, hall, zero_add]
  · show record.releasedQuantity ≤ record.remainingQuantity
    rw [hreleased, hall]
    exact record.commitment.positive.le
  · show record.redemptionEvidenceDigests.Nodup
    rw [hdigests]
    exact List.nodup_nil

theorem accumulates_of_reconcile {claimed : ℚ} {releaseRemaining : Bool}
    (hsound : (BatchOp.reconcile claimed releaseRemaining).Sound b)
    (h : reconcile b.record claimed releaseRemaining = .ok record)
    (hopen : record.state.accumulates) : b.record.state.accumulates := by
  rcases reconcile_ok h with ⟨reason, rfl⟩ | ⟨hclaimed, ⟨-, rfl⟩ | ⟨hkept, rfl⟩⟩
  · exact absurd hopen (by simp [X402BatchState.accumulates])
  · exact absurd hopen (by simp [X402BatchState.accumulates])
  · by_contra hclosed
    by_cases hremaining : b.record.remainingQuantity = 0
    · simp [hremaining, X402BatchState.accumulates] at hopen
    · exact hsound ⟨hclosed, hclaimed, hremaining, hkept.resolve_left hremaining⟩

theorem Batch.InOrder.reconcile {claimed : ℚ} {releaseRemaining : Bool} (hb : b.InOrder)
    (hsound : (BatchOp.reconcile claimed releaseRemaining).Sound b)
    (h : reconcile b.record claimed releaseRemaining = .ok record) :
    Batch.InOrder ⟨record, b.applied⟩ := by
  have hopen := accumulates_of_reconcile hsound h
  rcases reconcile_ok h with ⟨reason, rfl⟩ | ⟨-, ⟨-, rfl⟩ | ⟨-, rfl⟩⟩
  · exact ⟨hb.sum, hb.balance, hb.released, fun ho => hb.unreleased (hopen ho), hb.digests,
      hb.distinct⟩
  · refine ⟨hb.sum, hb.balance, le_rfl, fun ho => ?_, hb.digests, hb.distinct⟩
    exact absurd ho (by simp [X402BatchState.accumulates])
  · exact ⟨hb.sum, hb.balance, hb.released, fun ho => hb.unreleased (hopen ho), hb.digests,
      hb.distinct⟩

/-- What a call that succeeds does to the batch, a call does. -/
theorem Batch.step_induction {P : Batch → Prop} {op : BatchOp} (hb : P b)
    (haccumulate : ∀ receipt record, op = .accumulate receipt →
      X402.accumulate b.record receipt = .ok record → P ⟨record, b.applied ++ [receipt]⟩)
    (hreconcile : ∀ claimed releaseRemaining record, op = .reconcile claimed releaseRemaining →
      X402.reconcile b.record claimed releaseRemaining = .ok record → P ⟨record, b.applied⟩) :
    P (b.step op) := by
  cases op with
  | accumulate receipt =>
    simp only [Batch.step]
    split
    · exact haccumulate _ _ rfl ‹_›
    · exact hb
  | reconcile claimed releaseRemaining =>
    simp only [Batch.step]
    split
    · exact hreconcile _ _ _ rfl ‹_›
    · exact hb

theorem Batch.InOrder.step {op : BatchOp} (hb : b.InOrder) (hsound : op.Sound b) :
    (b.step op).InOrder := by
  refine Batch.step_induction hb ?_ ?_
  · rintro receipt record rfl h
    exact hb.accumulate hsound h
  · rintro claimed releaseRemaining record rfl h
    exact hb.reconcile hsound h

theorem Batch.step_commitment (b : Batch) (op : BatchOp) :
    (b.step op).record.commitment = b.record.commitment := by
  refine @Batch.step_induction b (fun next => next.record.commitment = b.record.commitment) op rfl
    ?_ ?_
  · rintro receipt record - h
    obtain ⟨-, -, -, rfl⟩ := accumulate_ok h
    rfl
  · rintro claimed releaseRemaining record - h
    rcases reconcile_ok h with ⟨reason, rfl⟩ | ⟨-, ⟨-, rfl⟩ | ⟨-, rfl⟩⟩ <;> rfl

/-- A closed batch that was given `receipts` in all. -/
def Batch.ClosedWith (receipts : List EntitlementRedemptionReceipt) (b : Batch) : Prop :=
  ¬ b.record.state.accumulates ∧ b.applied = receipts

theorem Batch.ClosedWith.step {receipts : List EntitlementRedemptionReceipt} {op : BatchOp}
    (hb : b.ClosedWith receipts) (hsound : op.Sound b) : (b.step op).ClosedWith receipts := by
  refine Batch.step_induction hb ?_ ?_
  · rintro receipt record - h
    exact absurd (accumulate_ok h).1 hb.1
  · rintro claimed releaseRemaining record rfl h
    exact ⟨fun hopen => hb.1 (accumulates_of_reconcile hsound h hopen), hb.2⟩

end Steps

/-! ## The batch as a whole -/

section Runs

/-- In a run of sound calls the record accounts for its receipts, and a closed one takes no more. -/
theorem batch_accounts (digests : EntitlementDigests) (entitlement : ExecutionEntitlement)
    (enabled : Bool) (record : X402BatchRecord)
    (hcommit : commit digests entitlement enabled = .ok record) (ops : List BatchOp)
    (hsound : Admissible Batch.step (fun b op => op.Sound b) ⟨record, []⟩ ops) :
    let b := run Batch.step ⟨record, []⟩ ops
    b.record.accumulatedQuantity = (b.applied.map (·.quantityConsumed)).sum ∧
      b.record.accumulatedQuantity + b.record.remainingQuantity =
        record.commitment.maximumQuantity ∧
      b.record.accumulatedQuantity + b.record.releasedQuantity ≤
        record.commitment.maximumQuantity ∧
      (b.applied.map (·.evidenceDigest)).Nodup ∧
      ∀ before after, ops = before ++ after →
        ¬ (run Batch.step ⟨record, []⟩ before).record.state.accumulates →
          b.applied = (run Batch.step ⟨record, []⟩ before).applied ∧
            ∀ receipt, (accumulate b.record receipt).toOption = none := by
  have horder : (run Batch.step ⟨record, []⟩ ops).InOrder :=
    run_invariant_of_admissible (fun _ _ hb hop => hb.step hop) (.commit hcommit) hsound
  have hfixed : (run Batch.step ⟨record, []⟩ ops).record.commitment = record.commitment :=
    @run_invariant _ _ _ (fun b : Batch => b.record.commitment = record.commitment)
      (fun b op hb => (b.step_commitment op).trans hb) _ ops rfl
  have hbalance := hfixed ▸ horder.balance
  refine ⟨horder.sum, hbalance, ?_, ?_, ?_⟩
  · have hreleased := horder.released
    linarith
  · exact horder.digests ▸ horder.distinct
  · rintro before after rfl hclosed
    have hafter := (admissible_append.mp hsound).2
    have hstill : Batch.ClosedWith (run Batch.step ⟨record, []⟩ before).applied
        (run Batch.step ⟨record, []⟩ (before ++ after)) := by
      rw [run_append]
      exact run_invariant_of_admissible (fun _ _ hb hop => hb.step hop) ⟨hclosed, rfl⟩ hafter
    refine ⟨hstill.2, fun receipt => ?_⟩
    cases h : accumulate (run Batch.step ⟨record, []⟩ (before ++ after)).record receipt with
    | error e => rfl
    | ok next => exact absurd (accumulate_ok h).1 hstill.1

theorem ten_calls_pos : (0 : ℚ) < 10 := by norm_num

theorem four_calls_pos : (0 : ℚ) < 4 := by norm_num

theorem six_calls_pos : (0 : ℚ) < 6 := by norm_num

theorem small_call_pos : (0 : ℚ) < 1 / 10 ^ 28 := by norm_num

/-- Ten calls the provider lets another principal make. -/
def lentCalls : ExecutionEntitlement where
  entitlementId := "entitlement"
  issuerPrincipalDigest := "sha256:0000000000000000000000000000000000000000000000000000000000000001"
  beneficiaryPrincipalDigest :=
    "sha256:0000000000000000000000000000000000000000000000000000000000000004"
  backingResourceId := "pool"
  backingResourceFingerprint :=
    "sha256:0000000000000000000000000000000000000000000000000000000000000002"
  capability := "tool.call"
  actionDigest := "sha256:0000000000000000000000000000000000000000000000000000000000000003"
  maximumQuantity := 10
  unit := "call"
  expiresAt := 20
  nonce := "0123456789abcdef"
  transferabilityBasis := .providerAuthorized
  authorizationEvidenceId := some "evidence"
  signature := ""
  rest := ""
  positive := ten_calls_pos
  personal := nofun
  authorized _ := by decide

/-- The record `commit` makes of them. -/
def lentBatch : X402BatchRecord where
  commitment :=
    { entitlementId := "entitlement"
      entitlementDigest := "entitlement"
      beneficiaryPrincipalDigest := lentCalls.beneficiaryPrincipalDigest
      backingResourceFingerprint := lentCalls.backingResourceFingerprint
      capability := "tool.call"
      actionDigest := lentCalls.actionDigest
      maximumQuantity := 10
      unit := "call"
      expiresAt := 20
      nonce := "0123456789abcdef"
      authorizationEvidenceId := "evidence"
      signature := ""
      positive := ten_calls_pos }
  state := .committed
  accumulatedQuantity := 0
  remainingQuantity := 10
  redemptionEvidenceDigests := []
  releasedQuantity := 0
  disputeReason := none

/-- Digests that tell attempts apart. -/
def batchDigests : EntitlementDigests := ⟨fun e => e.entitlementId, fun _ a _ _ => a, id⟩

def lentReceipt (evidence : String) (consumed remaining : ℚ) (hconsumed : 0 < consumed)
    (hremaining : 0 ≤ remaining) : EntitlementRedemptionReceipt where
  redemptionId := evidence
  entitlementId := "entitlement"
  attemptId := evidence
  quantityConsumed := consumed
  remainingQuantity := remaining
  status := if remaining = 0 then .consumed else .partially
  evidenceDigest := evidence
  timestamp := 0
  positive := hconsumed
  nonneg := hremaining

/-- Four of ten calls are made, and the rest released. -/
def releasedBatch : List BatchOp :=
  [.accumulate (lentReceipt "first" 4 6 four_calls_pos six_calls_pos.le), .reconcile 4 true]

theorem batch_accounts_of_released :
    (run Batch.step ⟨lentBatch, []⟩ releasedBatch).record.accumulatedQuantity +
        (run Batch.step ⟨lentBatch, []⟩ releasedBatch).record.releasedQuantity ≤
      lentBatch.commitment.maximumQuantity := by
  have hcommit : commit batchDigests lentCalls true = .ok lentBatch := by decide +kernel
  have hsound : Admissible Batch.step (fun b op => op.Sound b) ⟨lentBatch, []⟩ releasedBatch := by
    decide +kernel
  obtain ⟨-, -, hreleased, -⟩ := batch_accounts batchDigests lentCalls true lentBatch hcommit
    releasedBatch hsound
  exact hreleased

/-- Reconciling a released batch again opens it, and what was released is spent. -/
theorem released_batch_reopened :
    commit batchDigests lentCalls true = .ok lentBatch ∧
      (run Batch.step ⟨lentBatch, []⟩ releasedBatch).record.state = .released ∧
      let b := run Batch.step ⟨lentBatch, []⟩ (releasedBatch ++ [.reconcile 4 false,
        .accumulate (lentReceipt "second" 6 0 six_calls_pos zero_amount_nonneg)])
      b.applied.length = 2 ∧ 10 < b.record.accumulatedQuantity + b.record.releasedQuantity := by
  decide +kernel

theorem small_receipt_lost :
    let b := run Batch.step ⟨lentBatch, []⟩
      [.accumulate (lentReceipt "first" 4 6 four_calls_pos six_calls_pos.le),
        .accumulate (lentReceipt "second" (1 / 10 ^ 28) 6 small_call_pos six_calls_pos.le)]
    b.applied.length = 2 ∧
      b.record.accumulatedQuantity ≠ (b.applied.map (·.quantityConsumed)).sum := by
  decide +kernel

end Runs

end AeepRouter.X402

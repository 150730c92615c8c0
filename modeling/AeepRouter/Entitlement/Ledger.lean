import AeepRouter.Store.State

/-!
# Execution entitlements

`save_execution_entitlement` grants a quantity, `redeem_entitlement` consumes part of it for one
attempt, and `release_execution_entitlement` closes it. The balance stands in the row of the
entitlement, the receipts in a table of their own.
-/

namespace AeepRouter

open Lib

/-! ## Records -/

/-- `CapacityAuthorizationEvidence`; `rest` is the text of the fields no transaction reads. -/
structure CapacityAuthorizationEvidence where
  evidenceId : String
  resourceId : String
  resourceFingerprint : String
  issuerPrincipalDigest : String
  authorizedBeneficiaryDigest : Option String
  expiresAt : Int
  rest : String
  deriving DecidableEq, Repr

inductive CapacityTransferability where
  | selfOnly
  | samePrincipal
  | providerAuthorized
  | transferable
  deriving DecidableEq, Repr

def CapacityTransferability.personal : CapacityTransferability → Bool
  | selfOnly | samePrincipal => true
  | providerAuthorized | transferable => false

structure ExecutionEntitlement where
  entitlementId : String
  issuerPrincipalDigest : String
  beneficiaryPrincipalDigest : String
  backingResourceId : String
  backingResourceFingerprint : String
  capability : String
  actionDigest : String
  maximumQuantity : ℚ
  unit : String
  expiresAt : Int
  nonce : String
  transferabilityBasis : CapacityTransferability
  authorizationEvidenceId : Option String
  signature : String
  rest : String
  positive : 0 < maximumQuantity
  personal : transferabilityBasis.personal →
    issuerPrincipalDigest = beneficiaryPrincipalDigest
  authorized : ¬ transferabilityBasis.personal → authorizationEvidenceId.any (· ≠ "")
  deriving DecidableEq

inductive EntitlementState where
  | active
  | released
  | consumed
  | expired
  deriving DecidableEq, Repr

def EntitlementState.text : EntitlementState → String
  | active => "active"
  | released => "released"
  | consumed => "consumed"
  | expired => "expired"

structure EntitlementRow where
  payload : ExecutionEntitlement
  remainingQuantity : ℚ
  state : EntitlementState
  version : ℕ
  deriving DecidableEq

def EntitlementRow.entitlementId (row : EntitlementRow) : String := row.payload.entitlementId

inductive EntitlementRedemptionStatus where
  | partially
  | consumed
  deriving DecidableEq, Repr

/-- The lengths of the ids a receipt takes. -/
def checkReceiptId (id : String) : Result Unit := do
  raiseIf (id.length < 1) (.value "String should have at least 1 character")
  raiseIf (200 < id.length) (.value "String should have at most 200 characters")

@[ext] structure EntitlementRedemptionReceipt where
  redemptionId : String
  entitlementId : String
  attemptId : String
  quantityConsumed : ℚ
  remainingQuantity : ℚ
  status : EntitlementRedemptionStatus
  evidenceDigest : String
  timestamp : Int
  positive : 0 < quantityConsumed
  nonneg : 0 ≤ remainingQuantity

instance : DecidableEq EntitlementRedemptionReceipt := fun _ _ =>
  decidable_of_iff _ EntitlementRedemptionReceipt.ext_iff.symm

namespace EntitlementRedemptionReceipt

/-- The balance the receipt was made from. -/
def before (receipt : EntitlementRedemptionReceipt) : ℚ :=
  receipt.quantityConsumed + receipt.remainingQuantity

end EntitlementRedemptionReceipt

structure EntitlementStore where
  evidence : Table CapacityAuthorizationEvidence (·.evidenceId)
  entitlements : Table EntitlementRow EntitlementRow.entitlementId
  redemptions : Table EntitlementRedemptionReceipt (·.redemptionId)

/-- A store just created. -/
def EntitlementStore.empty : EntitlementStore := ⟨∅, ∅, ∅⟩

/-- The digests a redemption computes: of an entitlement, of the evidence of a redemption (from the
entitlement's digest, the attempt, the quantity and what remains), and SHA-256 of a text. -/
structure EntitlementDigests where
  entitlement : ExecutionEntitlement → String
  redemption : String → String → ℚ → ℚ → String
  sha256 : String → String

/-- `_payment_operation_result_id("redemption", attempt_id)`. -/
def EntitlementDigests.redemptionId (digests : EntitlementDigests) (attemptId : String) : String :=
  "redemption_" ++ digests.sha256 ("redemption\x00" ++ attemptId)

/-! ## Transactions -/

abbrev EntitlementM (α : Type) := EntitlementStore → Result (α × EntitlementStore)

def saveCapacityAuthorizationEvidence (evidence : CapacityAuthorizationEvidence) :
    EntitlementM CapacityAuthorizationEvidence := fun s => do
  let table ← immutableInsert "capacity_authorization_evidence" id (fun _ _ => False) s.evidence
    evidence
  pure (evidence, { s with evidence := table })

/-- The evidence an entitlement names, when it names any, covers it. -/
def EntitlementStore.requireEvidence (s : EntitlementStore) (entitlement : ExecutionEntitlement) :
    Result Unit :=
  match entitlement.authorizationEvidenceId with
  | none => pure ()
  | some evidenceId =>
    -- the empty text is false in Python
    if evidenceId = "" then pure ()
    else do
      let evidence ← demand (s.evidence.find? evidenceId)
        "entitlement authorization evidence is missing"
      refuseIf (evidence.resourceId ≠ entitlement.backingResourceId ∨
          evidence.resourceFingerprint ≠ entitlement.backingResourceFingerprint ∨
          evidence.issuerPrincipalDigest ≠ entitlement.issuerPrincipalDigest ∨
          evidence.expiresAt < entitlement.expiresAt)
        "entitlement authorization evidence does not match"

section Transactions

variable (digests : EntitlementDigests)

def saveExecutionEntitlement (entitlement : ExecutionEntitlement) :
    EntitlementM ExecutionEntitlement := fun s => do
  s.requireEvidence entitlement
  match s.entitlements.rows.find? fun row => row.payload.entitlementId = entitlement.entitlementId ∨
      row.payload.nonce = entitlement.nonce with
  | some stored =>
    refuseIf (digests.entitlement stored.payload ≠ digests.entitlement entitlement)
      "entitlement ID or nonce was reused with different data"
    pure (stored.payload, s)
  | none =>
    -- the foreign key, which the empty text escapes above
    raiseIf (∃ evidenceId ∈ entitlement.authorizationEvidenceId,
      s.evidence.find? evidenceId = none) .integrity
    let row : EntitlementRow := ⟨entitlement, entitlement.maximumQuantity, .active, 0⟩
    pure (entitlement, { s with entitlements := s.entitlements.insert row })

def EntitlementRow.receipt (row : EntitlementRow) (attemptId : String) (requested : ℚ) (now : Int)
    (hpositive : 0 < requested) (hfits : requested ≤ row.remainingQuantity) :
    EntitlementRedemptionReceipt where
  redemptionId := digests.redemptionId attemptId
  entitlementId := row.entitlementId
  attemptId := attemptId
  quantityConsumed := requested
  remainingQuantity := row.remainingQuantity - requested
  status := if row.remainingQuantity - requested = 0 then .consumed else .partially
  evidenceDigest := digests.redemption (digests.entitlement row.payload) attemptId requested
    (row.remainingQuantity - requested)
  timestamp := now
  positive := hpositive
  nonneg := sub_nonneg.mpr hfits

/-- The row of an entitlement after a redemption. -/
def EntitlementRow.drawn (remaining : ℚ) :
    Table.Rewrite (α := EntitlementRow) EntitlementRow.entitlementId where
  toFun row :=
    { row with
      remainingQuantity := remaining
      state := if remaining = 0 then .consumed else .active
      version := row.version + 1 }
  keeps _ := rfl

def EntitlementRow.release : Table.Rewrite (α := EntitlementRow) EntitlementRow.entitlementId where
  toFun row := { row with state := .released, version := row.version + 1 }
  keeps _ := rfl

def EntitlementStore.receiptOf? (s : EntitlementStore) (attemptId : String) :
    Option EntitlementRedemptionReceipt :=
  s.redemptions.rows.find? fun receipt => receipt.attemptId = attemptId

def redeemActive (row : EntitlementRow) (attemptId : String) (requested : ℚ) (now : Int)
    (hpositive : 0 < requested) : EntitlementM EntitlementRedemptionReceipt := fun s =>
  if hfits : requested ≤ row.remainingQuantity then do
    let receipt := row.receipt digests attemptId requested now hpositive hfits
    checkReceiptId receipt.entitlementId
    checkReceiptId receipt.attemptId
    raiseIf (s.redemptions.find? receipt.redemptionId).isSome .integrity
    pure (receipt, { s with
      redemptions := s.redemptions.insert receipt
      entitlements := s.entitlements.modify row.entitlementId
        (EntitlementRow.drawn receipt.remainingQuantity) })
  else .error (.configuration "redemption exceeds entitlement maximum")

/-- `redeem_entitlement`; the quantity is finite, as any other is refused like one that is not
positive. An entitlement found expired is marked so, and the exception raised next rolls the mark
back. -/
def redeemEntitlement (entitlementId attemptId : String) (quantity : ℚ) (now : Int) :
    EntitlementM EntitlementRedemptionReceipt := fun s =>
  if hpositive : 0 < quantity then
    match s.receiptOf? attemptId with
    | some replay => do
      refuseIf (replay.entitlementId ≠ entitlementId ∨ replay.quantityConsumed ≠ quantity)
        "redemption attempt was reused with different data"
      pure (replay, s)
    | none => do
      let row ← demand (s.entitlements.find? entitlementId) "execution entitlement does not exist"
      refuseIf (row.payload.expiresAt ≤ now) "execution entitlement is expired"
      refuseIf (row.state ≠ .active) ("execution entitlement is " ++ row.state.text)
      redeemActive digests row attemptId quantity now hpositive s
  else .error (.configuration "redemption quantity must be finite and positive")

end Transactions

def releaseExecutionEntitlement (entitlementId : String) (expectedVersion now : Int) :
    EntitlementM Unit := fun s => do
  let row ← demand (s.entitlements.find? entitlementId) "execution entitlement does not exist"
  if row.state = .released then
    pure ((), s)
  else
    refuseIf (row.payload.expiresAt ≤ now) "cannot release expired entitlement"
    refuseIf (row.state ≠ .active) ("cannot release " ++ row.state.text ++ " entitlement")
    refuseIf ((row.version : Int) ≠ expectedVersion)
      "execution entitlement compare-and-set failed"
    pure ((), { s with entitlements := s.entitlements.modify entitlementId EntitlementRow.release })

/-! ## The machine -/

inductive EntitlementOp where
  | saveEvidence (evidence : CapacityAuthorizationEvidence)
  | save (entitlement : ExecutionEntitlement)
  | redeem (entitlementId attemptId : String) (quantity : ℚ) (now : Int)
  | release (entitlementId : String) (expectedVersion now : Int)

/-- The store after a transaction, which a failure leaves as it was. -/
def EntitlementStore.apply (digests : EntitlementDigests) (s : EntitlementStore) :
    EntitlementOp → EntitlementStore
  | .saveEvidence evidence => commit (saveCapacityAuthorizationEvidence evidence s) s
  | .save entitlement => commit (saveExecutionEntitlement digests entitlement s) s
  | .redeem entitlementId attemptId quantity now =>
    commit (redeemEntitlement digests entitlementId attemptId quantity now s) s
  | .release entitlementId expectedVersion now =>
    commit (releaseExecutionEntitlement entitlementId expectedVersion now s) s

/-! ## What a successful call did -/

section Inversion

variable {digests : EntitlementDigests} {s s' : EntitlementStore} {now : Int}

/-- The ways the balances change. -/
inductive EntitlementStep (digests : EntitlementDigests) (now : Int) (s : EntitlementStore) :
    EntitlementStore → Prop where
  | stay (evidence : Table CapacityAuthorizationEvidence (·.evidenceId)) :
      EntitlementStep digests now s { s with evidence := evidence }
  | granted (entitlement : ExecutionEntitlement) :
      s.entitlements.find? entitlement.entitlementId = none →
      EntitlementStep digests now s { s with
        entitlements := s.entitlements.insert ⟨entitlement, entitlement.maximumQuantity, .active, 0⟩ }
  | redeemed (row : EntitlementRow) (attemptId : String) (quantity : ℚ) (hpositive : 0 < quantity)
      (hfits : quantity ≤ row.remainingQuantity) :
      s.entitlements.find? row.entitlementId = some row → row.state = .active →
      now < row.payload.expiresAt → (∀ r ∈ s.redemptions, r.attemptId ≠ attemptId) →
      s.redemptions.find? (digests.redemptionId attemptId) = none →
      EntitlementStep digests now s { s with
        redemptions := s.redemptions.insert
          (row.receipt digests attemptId quantity now hpositive hfits)
        entitlements := s.entitlements.modify row.entitlementId
          (EntitlementRow.drawn (row.remainingQuantity - quantity)) }
  | released (entitlementId : String) :
      EntitlementStep digests now s
        { s with entitlements := s.entitlements.modify entitlementId EntitlementRow.release }

theorem saveExecutionEntitlement_ok {entitlement r : ExecutionEntitlement}
    (h : saveExecutionEntitlement digests entitlement s = .ok (r, s')) :
    EntitlementStep digests now s s' := by
  simp only [saveExecutionEntitlement, bind_ok] at h
  obtain ⟨⟨⟩, -, h⟩ := h
  split at h
  · simp only [bind_ok, raiseIf_ok, exists_const, pure_ok, Prod.mk.injEq] at h
    obtain ⟨-, -, rfl⟩ := h
    exact .stay _
  · next hfree =>
    simp only [bind_ok, raiseIf_ok, exists_const, pure_ok, Prod.mk.injEq] at h
    obtain ⟨-, -, rfl⟩ := h
    refine .granted entitlement (Table.find?_eq_none.mpr fun row hrow hkey => ?_)
    have hno := List.find?_eq_none.mp hfree row hrow
    exact hno (decide_eq_true (.inl hkey))

theorem redeemActive_ok {row : EntitlementRow} {attemptId : String} {quantity : ℚ}
    {hpositive : 0 < quantity} {r : EntitlementRedemptionReceipt}
    (h : redeemActive digests row attemptId quantity now hpositive s = .ok (r, s')) :
    ∃ hfits : quantity ≤ row.remainingQuantity,
      r = row.receipt digests attemptId quantity now hpositive hfits ∧
      s.redemptions.find? r.redemptionId = none ∧
      s' = { s with
        redemptions := s.redemptions.insert r
        entitlements := s.entitlements.modify row.entitlementId
          (EntitlementRow.drawn r.remainingQuantity) } := by
  unfold redeemActive at h
  split at h
  · next hfits =>
    simp only [bind_ok, raiseIf_ok, exists_const, pure_ok, Prod.mk.injEq,
      Option.not_isSome_iff_eq_none] at h
    obtain ⟨⟨⟩, -, ⟨⟩, -, hfree, rfl, rfl⟩ := h
    exact ⟨hfits, rfl, hfree, rfl⟩
  · cases h

theorem redeemEntitlement_ok {entitlementId attemptId : String} {quantity : ℚ}
    {r : EntitlementRedemptionReceipt}
    (h : redeemEntitlement digests entitlementId attemptId quantity now s = .ok (r, s')) :
    EntitlementStep digests now s s' := by
  unfold redeemEntitlement at h
  split at h
  · next hpositive =>
    split at h
    · simp only [bind_ok, raiseIf_ok, exists_const, pure_ok, Prod.mk.injEq] at h
      obtain ⟨-, -, rfl⟩ := h
      exact .stay _
    · next hnew =>
      simp only [bind_ok, require_ok, raiseIf_ok, exists_const, not_le, ne_eq, not_not] at h
      obtain ⟨row, hrow, hexpires, hactive, h⟩ := h
      obtain rfl := Table.key_of_find? hrow
      obtain ⟨hfits, rfl, hfree, rfl⟩ := redeemActive_ok h
      refine .redeemed row attemptId quantity hpositive hfits hrow hactive hexpires ?_ hfree
      intro receipt hreceipt
      simpa using List.find?_eq_none.mp hnew receipt hreceipt
  · cases h

theorem releaseExecutionEntitlement_ok {entitlementId : String} {expectedVersion at' : Int} {u : Unit}
    (h : releaseExecutionEntitlement entitlementId expectedVersion at' s = .ok (u, s')) :
    EntitlementStep digests now s s' := by
  simp only [releaseExecutionEntitlement, bind_ok, require_ok] at h
  obtain ⟨row, hrow, h⟩ := h
  split at h
  · simp only [pure_ok, Prod.mk.injEq] at h
    obtain ⟨-, rfl⟩ := h
    exact .stay _
  · simp only [bind_ok, raiseIf_ok, exists_const, pure_ok, Prod.mk.injEq] at h
    obtain ⟨-, -, -, -, rfl⟩ := h
    exact .released entitlementId

/-- A redemption under way at an instant. -/
def EntitlementOp.Dated (now : Int) : EntitlementOp → Prop
  | redeem _ _ _ at' | release _ _ at' => at' = now
  | _ => True

instance EntitlementOp.decidableDated (now : Int) (op : EntitlementOp) :
    Decidable (op.Dated now) := by
  cases op <;> unfold EntitlementOp.Dated <;> infer_instance

/-- What the steps keep, every transaction keeps. -/
theorem EntitlementStore.apply_induction {P : EntitlementStore → Prop} {op : EntitlementOp}
    (hdated : op.Dated now) (hs : P s) (hstep : ∀ s', EntitlementStep digests now s s' → P s') :
    P (s.apply digests op) := by
  cases op with
  | saveEvidence evidence =>
    refine commit_induction hs fun r s' h => hstep s' ?_
    simp only [saveCapacityAuthorizationEvidence, bind_ok, pure_ok, Prod.mk.injEq] at h
    obtain ⟨table, -, -, rfl⟩ := h
    exact .stay table
  | save entitlement =>
    exact commit_induction hs fun r s' h => hstep s' (saveExecutionEntitlement_ok h)
  | redeem entitlementId attemptId quantity at' =>
    obtain rfl : at' = now := hdated
    exact commit_induction hs fun r s' h => hstep s' (redeemEntitlement_ok h)
  | release entitlementId expectedVersion at' =>
    exact commit_induction hs fun u s' h => hstep s' (releaseExecutionEntitlement_ok h)

end Inversion

end AeepRouter

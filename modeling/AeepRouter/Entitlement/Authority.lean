import AeepRouter.Entitlement.Ledger

/-!
# The authority of an entitlement

`issue_entitlement` checks the authorization of an entitlement it makes, and
`save_execution_entitlement` that of one it stores, by two lists of conditions. The second has all
of the first but one: it never reads whom the evidence names.
-/

namespace AeepRouter

open Lib

/-! ## The issuing path -/

def requireEntitlementAuthority (transferability : CapacityTransferability)
    (issuerPrincipalDigest beneficiaryPrincipalDigest : String) (knownAvailable : Option ℚ)
    (requested : ℚ) (authorization : Option CapacityAuthorizationEvidence) : Result Unit := do
  raiseIf (requested ≤ 0) (.value "entitlement quantity must be positive")
  let known ← require knownAvailable
    (.value "unknown capacity cannot authorize an entitlement")
  raiseIf (known < requested) (.value "entitlement exceeds known available capacity")
  if transferability.personal then
    raiseIf (issuerPrincipalDigest ≠ beneficiaryPrincipalDigest)
      (.value "self-only capacity cannot name an external beneficiary")
  else do
    let evidence ← require authorization
      (.value "external entitlement requires provider authorization evidence")
    raiseIf (evidence.issuerPrincipalDigest ≠ issuerPrincipalDigest)
      (.value "authorization issuer does not match entitlement issuer")
    raiseIf (∃ beneficiary ∈ evidence.authorizedBeneficiaryDigest,
        beneficiary ≠ beneficiaryPrincipalDigest)
      (.value "authorization beneficiary does not match entitlement beneficiary")

/-- The arguments of `issue_entitlement` its checks read. -/
structure IssueRequest where
  issuerPrincipalDigest : String
  beneficiaryPrincipalDigest : String
  backingResourceId : String
  backingResourceFingerprint : String
  maximumQuantity : ℚ
  knownAvailable : Option ℚ
  expiresAt : Int
  transferability : CapacityTransferability
  authorization : Option CapacityAuthorizationEvidence

/-- What `issue_entitlement` checks before it makes the entitlement. -/
def IssueRequest.check (request : IssueRequest) : Result Unit := do
  requireEntitlementAuthority request.transferability request.issuerPrincipalDigest
    request.beneficiaryPrincipalDigest request.knownAvailable request.maximumQuantity
    request.authorization
  match request.authorization with
  | none => pure ()
  | some authorization => do
    raiseIf (authorization.resourceId ≠ request.backingResourceId)
      (.value "authorization resource does not match entitlement")
    raiseIf (authorization.resourceFingerprint ≠ request.backingResourceFingerprint)
      (.value "authorization fingerprint does not match entitlement")
    raiseIf (authorization.expiresAt < request.expiresAt)
      (.value "entitlement cannot outlive authorization evidence")

def ExecutionEntitlement.issue (entitlement : ExecutionEntitlement) (knownAvailable : Option ℚ)
    (evidence : CapacityAuthorizationEvidence) : IssueRequest where
  issuerPrincipalDigest := entitlement.issuerPrincipalDigest
  beneficiaryPrincipalDigest := entitlement.beneficiaryPrincipalDigest
  backingResourceId := entitlement.backingResourceId
  backingResourceFingerprint := entitlement.backingResourceFingerprint
  maximumQuantity := entitlement.maximumQuantity
  knownAvailable := knownAvailable
  expiresAt := entitlement.expiresAt
  transferability := entitlement.transferabilityBasis
  authorization := some evidence

/-! ## The storing path -/

section Authority

variable {entitlement : ExecutionEntitlement} {evidence : CapacityAuthorizationEvidence}
  {s : EntitlementStore}

def CapacityAuthorizationEvidence.Admits (evidence : CapacityAuthorizationEvidence)
    (entitlement : ExecutionEntitlement) : Prop :=
  ∀ beneficiary ∈ evidence.authorizedBeneficiaryDigest,
    beneficiary = entitlement.beneficiaryPrincipalDigest

structure CapacityAuthorizationEvidence.Covers (evidence : CapacityAuthorizationEvidence)
    (entitlement : ExecutionEntitlement) : Prop where
  resource : evidence.resourceId = entitlement.backingResourceId
  fingerprint : evidence.resourceFingerprint = entitlement.backingResourceFingerprint
  issuer : evidence.issuerPrincipalDigest = entitlement.issuerPrincipalDigest
  expiry : entitlement.expiresAt ≤ evidence.expiresAt

theorem requireEvidence_ok {evidenceId : String} {u : Unit}
    (hid : entitlement.authorizationEvidenceId = some evidenceId) (hne : evidenceId ≠ "") :
    s.requireEvidence entitlement = .ok u ↔
      ∃ evidence, s.evidence.find? evidenceId = some evidence ∧ evidence.Covers entitlement := by
  unfold EntitlementStore.requireEvidence
  rw [hid]
  simp only [if_neg hne, bind_ok, require_ok, raiseIf_ok]
  refine exists_congr fun evidence => and_congr_right fun _ => ?_
  constructor
  · intro h
    push Not at h
    exact ⟨h.1, h.2.1, h.2.2.1, h.2.2.2⟩
  · rintro ⟨hresource, hfingerprint, hissuer, hexpiry⟩ (h | h | h | h)
    · exact h hresource
    · exact h hfingerprint
    · exact h hissuer
    · exact absurd h (not_lt.mpr hexpiry)

/-- Evidence that covers an entitlement passes the issuing path, up to the beneficiary it names. -/
theorem issue_check_iff (h : evidence.Covers entitlement) {known : ℚ}
    (hknown : entitlement.maximumQuantity ≤ known) :
    (entitlement.issue (some known) evidence).check = .ok () ↔
      entitlement.transferabilityBasis.personal ∨ evidence.Admits entitlement := by
  have hquantity : ¬ entitlement.maximumQuantity ≤ 0 := not_le.mpr entitlement.positive
  have hadmits : (¬ ∃ beneficiary ∈ evidence.authorizedBeneficiaryDigest,
      beneficiary ≠ entitlement.beneficiaryPrincipalDigest) ↔ evidence.Admits entitlement := by
    unfold CapacityAuthorizationEvidence.Admits
    push Not
    rfl
  have hrest : ∀ r : Result Unit, (r >>= fun _ => do
      raiseIf (evidence.resourceId ≠ entitlement.backingResourceId)
        (Err.value "authorization resource does not match entitlement")
      raiseIf (evidence.resourceFingerprint ≠ entitlement.backingResourceFingerprint)
        (.value "authorization fingerprint does not match entitlement")
      raiseIf (evidence.expiresAt < entitlement.expiresAt)
        (.value "entitlement cannot outlive authorization evidence")) = .ok () ↔ r = .ok () := by
    intro r
    simp only [bind_ok, raiseIf_ok, ne_eq, not_not, h.resource, h.fingerprint, not_lt, h.expiry,
      exists_const, and_true]
    exact ⟨fun ⟨_, hr⟩ => hr, fun hr => ⟨(), hr⟩⟩
  refine (hrest _).trans ?_
  unfold requireEntitlementAuthority ExecutionEntitlement.issue
  by_cases hpersonal : entitlement.transferabilityBasis.personal
  · simp only [if_pos hpersonal, bind_ok, require_ok, raiseIf_ok, exists_const]
    simp [hpersonal, hquantity, hknown, entitlement.personal hpersonal]
  · simp only [if_neg hpersonal, bind_ok, require_ok, raiseIf_ok, exists_const]
    constructor
    · rintro ⟨-, _, -, -, found, hfound, -, hnames⟩
      cases hfound
      exact .inr (hadmits.mp hnames)
    · intro hadmitted
      exact ⟨hquantity, known, rfl, not_lt.mpr hknown, evidence, rfl, not_not.mpr h.issuer,
        hadmits.mpr (hadmitted.resolve_left hpersonal)⟩

end Authority

/-- Every entitlement that is stored with evidence passes the issuing path with it and names its
beneficiary exactly when the evidence names that beneficiary, or none; the issuing path alone is
passed by what stays with its principal as well. -/
theorem saved_issuable_iff (digests : EntitlementDigests) {s s' : EntitlementStore}
    {entitlement stored : ExecutionEntitlement} {evidenceId : String}
    (h : saveExecutionEntitlement digests entitlement s = .ok (stored, s'))
    (hid : entitlement.authorizationEvidenceId = some evidenceId) (hne : evidenceId ≠ "") :
    ∃ evidence, s.evidence.find? evidenceId = some evidence ∧
      (((∀ known, entitlement.maximumQuantity ≤ known →
          (entitlement.issue (some known) evidence).check = .ok ()) ∧
        evidence.Admits entitlement) ↔ evidence.Admits entitlement) ∧
      ((∀ known, entitlement.maximumQuantity ≤ known →
          (entitlement.issue (some known) evidence).check = .ok ()) ↔
        entitlement.transferabilityBasis.personal ∨ evidence.Admits entitlement) := by
  unfold saveExecutionEntitlement at h
  rw [bind_ok] at h
  obtain ⟨u, hrequire, -⟩ := h
  obtain ⟨evidence, hfound, hcovers⟩ := (requireEvidence_ok hid hne).mp hrequire
  refine ⟨evidence, hfound, ⟨fun h => h.2, fun hadmits => ⟨fun known hknown => ?_, hadmits⟩⟩,
    fun h => ?_, fun h known hknown => ?_⟩
  · exact (issue_check_iff hcovers hknown).mpr (.inr hadmits)
  · exact (issue_check_iff hcovers le_rfl).mp (h _ le_rfl)
  · exact (issue_check_iff hcovers hknown).mpr h

/-! ## One borrowed entitlement -/

def poolEvidence (beneficiary : Option String) : CapacityAuthorizationEvidence where
  evidenceId := "pool evidence"
  resourceId := "pool"
  resourceFingerprint := "sha256:00000000000000000000000000000000000000000000000000000000000000f0"
  issuerPrincipalDigest := "sha256:00000000000000000000000000000000000000000000000000000000000000a0"
  authorizedBeneficiaryDigest := beneficiary
  expiresAt := 20
  rest := ""

theorem borrowed_pos : (0 : ℚ) < 5 := by norm_num

def borrowedCalls : ExecutionEntitlement where
  entitlementId := "borrowed"
  issuerPrincipalDigest := "sha256:00000000000000000000000000000000000000000000000000000000000000a0"
  beneficiaryPrincipalDigest :=
    "sha256:00000000000000000000000000000000000000000000000000000000000000b0"
  backingResourceId := "pool"
  backingResourceFingerprint :=
    "sha256:00000000000000000000000000000000000000000000000000000000000000f0"
  capability := "tool.call"
  actionDigest := "sha256:00000000000000000000000000000000000000000000000000000000000000c0"
  maximumQuantity := 5
  unit := "call"
  expiresAt := 10
  nonce := "borrowed-nonce-0001"
  transferabilityBasis := .providerAuthorized
  authorizationEvidenceId := some "pool evidence"
  signature := ""
  rest := ""
  positive := borrowed_pos
  personal := by decide
  authorized := by decide

def poolStore (beneficiary : Option String) : EntitlementStore :=
  { EntitlementStore.empty with
    evidence := (∅ : Table _ _).insert (poolEvidence beneficiary) }

/-- Digests that tell entitlements apart. -/
def poolDigests : EntitlementDigests := ⟨fun e => e.entitlementId, fun _ a _ _ => a, id⟩

theorem saved_issuable_of_open_evidence :
    ∃ evidence, (poolStore none).evidence.find? "pool evidence" = some evidence ∧
      (borrowedCalls.issue (some 5) evidence).check = .ok () := by
  have hsaved : ∃ stored s', saveExecutionEntitlement poolDigests borrowedCalls (poolStore none) =
      .ok (stored, s') := ⟨_, _, rfl⟩
  obtain ⟨stored, s', hsaved⟩ := hsaved
  obtain ⟨evidence, hfound, -, hissued⟩ :=
    saved_issuable_iff poolDigests hsaved rfl (by decide)
  have hopen : evidence = poolEvidence none := Option.some.inj (hfound.symm.trans rfl)
  refine ⟨evidence, hfound, hissued.mpr (.inr ?_) 5 le_rfl⟩
  rw [hopen]
  intro beneficiary hnamed
  cases hnamed

/-- The evidence names another principal, and the entitlement is stored. -/
theorem misnamed_beneficiary_stored :
    let other := some "sha256:00000000000000000000000000000000000000000000000000000000000000d0"
    (saveExecutionEntitlement poolDigests borrowedCalls (poolStore other)).isOk ∧
      (borrowedCalls.issue (some 5) (poolEvidence other)).check =
        .error (.value "authorization beneficiary does not match entitlement beneficiary") := by
  decide +kernel

end AeepRouter

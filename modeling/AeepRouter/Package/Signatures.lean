import AeepRouter.Package.Verification

/-!
# The signatures of a package

`verify_package` takes a package with one signature that it accepts. A key of the trust store is asked
for its state, its period, its role and its scope; a key the package names itself for its period only.
-/

namespace AeepRouter.Package

open Lib
open Trust (TrustedKeyRole TrustStore)

inductive PackageIntegrityStatus where
  | verified
  | failed
  deriving DecidableEq, Repr

structure PackageVerificationResult where
  packageDigest : String
  integrityStatus : PackageIntegrityStatus
  signatures : List SignatureVerificationResult
  effectiveIdentityTrust : TrustLevel
  failureCodes : List String
  evaluatedAt : Int
  deriving DecidableEq, Repr

section Verify

variable (env : Environment) (trust : TrustStore) (package : ProviderPackage) (content : PackageContent)
  (now : Int)

/-- `ProviderPackageIngestor.verify_package`. -/
def packageVerification : PackageVerificationResult :=
  let digest := env.packageDigest package.toPackageContent
  if digest ≠ package.integrityDigest then
    { packageDigest := digest
      integrityStatus := .failed
      signatures := []
      effectiveIdentityTrust := .untrusted
      failureCodes := ["manifest_digest_mismatch"]
      evaluatedAt := now }
  else
    let accepted := acceptedSignatures env trust package now
    { packageDigest := digest
      integrityStatus := if accepted = [] then .failed else .verified
      signatures := verifySignatures env trust package now
      effectiveIdentityTrust := trustMax (accepted.map (·.effectiveTrust))
      failureCodes := if accepted = [] then ["signature_invalid"] else []
      evaluatedAt := now }

def verifyEmbeddedPackageSignature (signature : ProviderPackageSignature) : Bool :=
  match content.keys.find? (·.keyId = signature.keyId) with
  | none => false
  | some key =>
    .packagePublisher ∈ key.roles ∧ signature.digest = env.packageDigest content ∧
      env.verifiesPackage key.publicKey signature.digest signature.signature

/-- A time a key that the package names is valid at. -/
def ProviderPublicKey.covers (key : ProviderPublicKey) (issuedAt : Int) : Prop :=
  (∀ start ∈ key.validFrom, start ≤ issuedAt) ∧ ∀ stop ∈ key.validUntil, issuedAt ≤ stop

/-! ## Signatures that count -/

structure OperatorSigned (key : Trust.TrustedProviderKey) (signature : ProviderPackageSignature) :
    Prop where
  found : trust.find? (content.providerId, signature.keyId) = some key
  status : key.status ≠ .revoked
  covered : key.validFrom ≤ signature.issuedAt ∧ signature.issuedAt ≤ key.validUntil
  issued : signature.issuedAt ≤ now
  role : key.permitsRole .packagePublisher = true
  package : key.permitsPackage content.packageId = true
  capabilities : ∀ route ∈ content.routes, key.permitsCapability route.capability = true
  digest : signature.digest = env.packageDigest content
  verified : env.verifiesPackage key.publicKey (env.packageDigest content) signature.signature = true

/-- A publisher's key that the package names stands behind the signature, and no operator has one of
its id. -/
structure EmbeddedSigned (signature : ProviderPackageSignature) : Prop where
  unknown : trust.find? (content.providerId, signature.keyId) = none
  covered : ∃ key, content.keys.find? (·.keyId = signature.keyId) = some key ∧
    key.covers signature.issuedAt
  issued : signature.issuedAt ≤ now
  verified : verifyEmbeddedPackageSignature env content signature = true

def Grants (signature : ProviderPackageSignature) (level : TrustLevel) : Prop :=
  (∃ key, OperatorSigned env trust content now key signature ∧ level = .ofKey key.trust) ∨
    (EmbeddedSigned env trust content now signature ∧ level = .selfAsserted)

structure Rogue (signature : ProviderPackageSignature) : Prop where
  unknown : trust.find? (package.providerId, signature.keyId) = none
  valid : embeddedValid env package now signature = true
  refused : verifyEmbeddedPackageSignature env package.toPackageContent signature = false

def TrustLevel.rank : TrustLevel → ℕ
  | untrusted => 0
  | selfAsserted => 1
  | observed => 2
  | verified => 3
  | attested => 4

/-- The result is what the signatures that count make it. -/
structure Judged (result : PackageVerificationResult) : Prop where
  verified : result.integrityStatus = .verified → ∃ signature ∈ package.signatures, ∃ level,
    Grants env trust package.toPackageContent now signature level
  attained : result.effectiveIdentityTrust ≠ .untrusted → ∃ signature ∈ package.signatures,
    Grants env trust package.toPackageContent now signature result.effectiveIdentityTrust
  greatest : ∀ signature ∈ package.signatures, ∀ level,
    Grants env trust package.toPackageContent now signature level →
      level.rank ≤ result.effectiveIdentityTrust.rank

structure AddsUncounted (package' : ProviderPackage) : Prop where
  content : package'.toPackageContent = package.toPackageContent
  kept : package.signatures ⊆ package'.signatures
  added : ∀ signature ∈ package'.signatures, signature ∈ package.signatures ∨
    ∀ level, ¬ Grants env trust package.toPackageContent now signature level

/-- Where the stated digest is right, some signature counts or none is by a key without the role. -/
def WellSigned : Prop :=
  env.packageDigest package.toPackageContent = package.integrityDigest →
    (∃ signature ∈ package.signatures, ∃ level,
        Grants env trust package.toPackageContent now signature level) ∨
      ∀ signature ∈ package.signatures, ¬ Rogue env trust package now signature

end Verify

/-! ## What is accepted -/

section Accepted

variable {env : Environment} {trust : TrustStore} {package : ProviderPackage} {now : Int}
  {signature : ProviderPackageSignature} {level : TrustLevel}

theorem trustedSignatureStatus_fst (key : Trust.TrustedProviderKey) :
    (trustedSignatureStatus env package now key signature).1 ≠ .unknownKey := by
  unfold trustedSignatureStatus
  split_ifs <;> decide

theorem trustedSignatureStatus_verified {key : Trust.TrustedProviderKey} :
    (trustedSignatureStatus env package now key signature).1 = .verified ↔
      key.status ≠ .revoked ∧
      (key.validFrom ≤ signature.issuedAt ∧ signature.issuedAt ≤ key.validUntil) ∧
      signature.issuedAt ≤ now ∧ key.permitsRole .packagePublisher = true ∧
      (key.permitsPackage package.packageId = true ∧
        ∀ route ∈ package.routes, key.permitsCapability route.capability = true) ∧
      env.verifiesPackage key.publicKey package.integrityDigest signature.signature = true := by
  unfold trustedSignatureStatus
  by_cases hrevoked : key.status = .revoked
  · rw [if_pos hrevoked]
    exact iff_of_false (by decide) fun h => h.1 hrevoked
  rw [if_neg hrevoked]
  by_cases hcovered : key.validFrom ≤ signature.issuedAt ∧ signature.issuedAt ≤ key.validUntil
  swap
  · rw [if_pos hcovered]
    exact iff_of_false (by decide) fun h => hcovered h.2.1
  rw [if_neg (not_not.mpr hcovered)]
  by_cases hfuture : now < signature.issuedAt
  · rw [if_pos hfuture]
    exact iff_of_false (by decide) fun h => absurd h.2.2.1 (not_le.mpr hfuture)
  rw [if_neg hfuture]
  cases hrole : key.permitsRole .packagePublisher with
  | false =>
    rw [if_pos rfl]
    exact iff_of_false (by decide) fun h => Bool.false_ne_true h.2.2.2.1
  | true =>
    rw [if_neg (by decide : ¬ true = false)]
    have hscope : (key.permitsPackage package.packageId = false ∨
        package.routes.any (!key.permitsCapability ·.capability) = true) ↔
          ¬ (key.permitsPackage package.packageId = true ∧
            ∀ route ∈ package.routes, key.permitsCapability route.capability = true) := by
      simp only [List.any_eq_true, Bool.not_eq_true', not_and_or, Bool.not_eq_true, not_forall,
        exists_prop]
    by_cases hin : key.permitsPackage package.packageId = true ∧
        ∀ route ∈ package.routes, key.permitsCapability route.capability = true
    swap
    · rw [if_pos (hscope.mpr hin)]
      exact iff_of_false (by decide) fun h => hin h.2.2.2.2.1
    rw [if_neg fun h => hscope.mp h hin]
    cases hverifies :
        env.verifiesPackage key.publicKey package.integrityDigest signature.signature with
    | false =>
      rw [if_pos rfl]
      exact iff_of_false (by decide) fun h => Bool.false_ne_true h.2.2.2.2.2
    | true =>
      rw [if_neg (by decide : ¬ true = false)]
      exact iff_of_true rfl ⟨hrevoked, hcovered, not_lt.mp hfuture, rfl, hin, rfl⟩

theorem embeddedValid_iff (hsignature : signature ∈ package.signatures)
    (hunknown : trust.find? (package.providerId, signature.keyId) = none) :
    embeddedValid env package now signature = true ↔
      EmbeddedSigned env trust package.toPackageContent now signature ∨
        Rogue env trust package now signature := by
  have hvalid : EmbeddedSigned env trust package.toPackageContent now signature →
      embeddedValid env package now signature = true := by
    rintro ⟨-, ⟨key, hkey, hcovers⟩, hissued, hverified⟩
    unfold verifyEmbeddedPackageSignature at hverified
    unfold embeddedValid
    rw [hkey] at hverified ⊢
    have hkeyed := of_decide_eq_true hverified
    rw [package.signed_digest signature hsignature] at hkeyed
    exact decide_eq_true ⟨hcovers.1, hcovers.2, hissued, hkeyed.2.2⟩
  constructor
  · intro h
    cases hembedded : verifyEmbeddedPackageSignature env package.toPackageContent signature with
    | false => exact .inr ⟨hunknown, h, hembedded⟩
    | true =>
      left
      unfold embeddedValid at h
      cases hkey : package.keys.find? (·.keyId = signature.keyId) with
      | none =>
        rw [hkey] at h
        cases h
      | some key =>
        rw [hkey] at h
        obtain ⟨hfrom, huntil, hissued, -⟩ := of_decide_eq_true h
        exact ⟨hunknown, ⟨key, hkey, hfrom, huntil⟩, hissued, hembedded⟩
  · rintro (h | h)
    · exact hvalid h
    · exact h.valid

theorem verifySignature_accepted
    (hdigest : env.packageDigest package.toPackageContent = package.integrityDigest)
    (hsignature : signature ∈ package.signatures) :
    ((verifySignature env trust package now signature).status = .verified ∨
        (verifySignature env trust package now signature).status = .unknownKey) ∧
        (verifySignature env trust package now signature).effectiveTrust = level ↔
      Grants env trust package.toPackageContent now signature level ∨
        (Rogue env trust package now signature ∧ level = .selfAsserted) := by
  cases hfind : trust.find? (package.providerId, signature.keyId) with
  | some key =>
    have hoperator : OperatorSigned env trust package.toPackageContent now key signature ↔
        (trustedSignatureStatus env package now key signature).1 = .verified := by
      rw [trustedSignatureStatus_verified, ← hdigest]
      constructor
      · intro h
        exact ⟨h.status, h.covered, h.issued, h.role, ⟨h.package, h.capabilities⟩, h.verified⟩
      · rintro ⟨hstatus, hcovered, hissued, hrole, ⟨hpackage, hcapabilities⟩, hverified⟩
        exact ⟨hfind, hstatus, hcovered, hissued, hrole, hpackage, hcapabilities,
          (package.signed_digest signature hsignature).trans hdigest.symm, hverified⟩
    have hunknown : (trustedSignatureStatus env package now key signature).1 ≠ .unknownKey :=
      trustedSignatureStatus_fst key
    unfold verifySignature
    rw [hfind]
    dsimp only
    constructor
    · rintro ⟨hstatus | hstatus, hlevel⟩
      · rw [if_pos hstatus] at hlevel
        exact .inl (.inl ⟨key, hoperator.mpr hstatus, hlevel.symm⟩)
      · exact absurd hstatus hunknown
    · rintro ((⟨key', hsigned, rfl⟩ | ⟨hembedded, -⟩) | ⟨hrogue, -⟩)
      · obtain rfl := Option.some_inj.mp (hfind.symm.trans hsigned.found)
        have hstatus := hoperator.mp hsigned
        exact ⟨.inl hstatus, if_pos hstatus⟩
      · rw [hembedded.unknown] at hfind
        cases hfind
      · rw [hrogue.unknown] at hfind
        cases hfind
  | none =>
    have hvalid : embeddedValid env package now signature = true ↔
        EmbeddedSigned env trust package.toPackageContent now signature ∨
          Rogue env trust package now signature := embeddedValid_iff hsignature hfind
    unfold verifySignature
    rw [hfind]
    dsimp only
    cases hembedded : embeddedValid env package now signature with
    | false =>
      rw [hembedded] at hvalid
      refine iff_of_false (by simp) ?_
      rintro ((⟨key, hsigned, -⟩ | ⟨hsigned, -⟩) | ⟨hrogue, -⟩)
      · rw [hsigned.found] at hfind
        cases hfind
      · exact Bool.false_ne_true (hvalid.mpr (.inl hsigned))
      · exact Bool.false_ne_true (hvalid.mpr (.inr hrogue))
    | true =>
      have hsigned := hvalid.mp hembedded
      simp only [if_pos, or_true, true_and]
      constructor
      · rintro rfl
        exact hsigned.imp (fun h => .inr ⟨h, rfl⟩) fun h => ⟨h, rfl⟩
      · rintro ((⟨key, hkey, -⟩ | ⟨-, rfl⟩) | ⟨-, rfl⟩)
        · rw [hkey.found] at hfind
          cases hfind
        · rfl
        · rfl

theorem mem_accepted_levels
    (hdigest : env.packageDigest package.toPackageContent = package.integrityDigest) :
    level ∈ (acceptedSignatures env trust package now).map (·.effectiveTrust) ↔
      ∃ signature ∈ package.signatures,
        Grants env trust package.toPackageContent now signature level ∨
          (Rogue env trust package now signature ∧ level = .selfAsserted) := by
  unfold acceptedSignatures verifySignatures
  simp only [List.mem_map, List.mem_filter, decide_eq_true_eq]
  constructor
  · rintro ⟨_, ⟨⟨signature, hsignature, rfl⟩, hstatus⟩, hlevel⟩
    exact ⟨signature, hsignature, (verifySignature_accepted hdigest hsignature).mp ⟨hstatus, hlevel⟩⟩
  · rintro ⟨signature, hsignature, h⟩
    obtain ⟨hstatus, hlevel⟩ := (verifySignature_accepted hdigest hsignature).mpr h
    exact ⟨_, ⟨⟨signature, hsignature, rfl⟩, hstatus⟩, hlevel⟩

theorem level_of_grants (h : Grants env trust package.toPackageContent now signature level) :
    level = .selfAsserted ∨ level = .verified ∨ level = .attested := by
  rcases h with ⟨key, -, rfl⟩ | ⟨-, rfl⟩
  · cases key.trust with
    | verified => exact .inr (.inl rfl)
    | attested => exact .inr (.inr rfl)
  · exact .inl rfl

theorem trustMax_greatest {levels : List TrustLevel}
    (h : ∀ level ∈ levels, level = .selfAsserted ∨ level = .verified ∨ level = .attested) :
    (trustMax levels = .untrusted ↔ levels = []) ∧ (levels ≠ [] → trustMax levels ∈ levels) ∧
      ∀ level ∈ levels, level.rank ≤ (trustMax levels).rank := by
  unfold trustMax
  by_cases hattested : .attested ∈ levels
  · rw [if_pos hattested]
    refine ⟨iff_of_false (by decide) (List.ne_nil_of_mem hattested), fun _ => hattested, ?_⟩
    intro level _
    cases level <;> decide
  rw [if_neg hattested]
  by_cases hverified : .verified ∈ levels
  · rw [if_pos hverified]
    refine ⟨iff_of_false (by decide) (List.ne_nil_of_mem hverified), fun _ => hverified, ?_⟩
    intro level hlevel
    rcases h level hlevel with rfl | rfl | rfl
    · decide
    · decide
    · exact absurd hlevel hattested
  rw [if_neg hverified]
  by_cases hself : .selfAsserted ∈ levels
  · rw [if_pos hself]
    refine ⟨iff_of_false (by decide) (List.ne_nil_of_mem hself), fun _ => hself, ?_⟩
    intro level hlevel
    rcases h level hlevel with rfl | rfl | rfl
    · decide
    · exact absurd hlevel hverified
    · exact absurd hlevel hattested
  rw [if_neg hself]
  have hnil : levels = [] := by
    refine List.eq_nil_iff_forall_not_mem.mpr fun level hlevel => ?_
    rcases h level hlevel with rfl | rfl | rfl
    · exact hself hlevel
    · exact hverified hlevel
    · exact hattested hlevel
  subst hnil
  exact ⟨iff_of_true rfl rfl, fun h => absurd rfl h, fun _ h => absurd h List.not_mem_nil⟩

theorem accepted_levels
    (hdigest : env.packageDigest package.toPackageContent = package.integrityDigest) :
    ∀ level ∈ (acceptedSignatures env trust package now).map (·.effectiveTrust),
      level = .selfAsserted ∨ level = .verified ∨ level = .attested := by
  intro level hlevel
  obtain ⟨signature, -, hgrants | ⟨-, rfl⟩⟩ := (mem_accepted_levels hdigest).mp hlevel
  · exact level_of_grants hgrants
  · exact .inl rfl

/-! ## The result -/

theorem verified_iff_trusted :
    (packageVerification env trust package now).integrityStatus = .verified ↔
      (packageVerification env trust package now).effectiveIdentityTrust ≠ .untrusted := by
  unfold packageVerification
  dsimp only
  by_cases hdigest : env.packageDigest package.toPackageContent = package.integrityDigest
  · rw [if_neg (not_not.mpr hdigest)]
    dsimp only
    rw [ne_eq, (trustMax_greatest (accepted_levels hdigest)).1, List.map_eq_nil_iff]
    split_ifs with haccepted
    · exact iff_of_false (by decide) (not_not.mpr haccepted)
    · exact iff_of_true rfl haccepted
  · rw [if_pos hdigest]
    refine iff_of_false (fun h => ?_) (not_not.mpr rfl)
    cases h

theorem judged_iff :
    Judged env trust package now (packageVerification env trust package now) ↔
      WellSigned env trust package now := by
  by_cases hdigest : env.packageDigest package.toPackageContent = package.integrityDigest
  · have htrust : (packageVerification env trust package now).effectiveIdentityTrust =
        trustMax ((acceptedSignatures env trust package now).map (·.effectiveTrust)) := by
      unfold packageVerification
      dsimp only
      rw [if_neg (not_not.mpr hdigest)]
    have hlevels : ∀ level ∈ (acceptedSignatures env trust package now).map (·.effectiveTrust),
        level = .selfAsserted ∨ level = .verified ∨ level = .attested := accepted_levels hdigest
    obtain ⟨huntrusted, hmem, hgreatest⟩ := trustMax_greatest hlevels
    constructor
    · intro hjudged _
      by_cases hrogue : ∃ signature ∈ package.signatures, Rogue env trust package now signature
      · left
        obtain ⟨signature, hsignature, hrogue⟩ := hrogue
        have hself := (mem_accepted_levels hdigest).mpr ⟨signature, hsignature, .inr ⟨hrogue, rfl⟩⟩
        refine hjudged.verified (verified_iff_trusted.mpr ?_)
        rw [htrust]
        exact fun hnone => List.ne_nil_of_mem hself (huntrusted.mp hnone)
      · right
        push Not at hrogue
        exact hrogue
    · intro hwell
      have hgranted : (packageVerification env trust package now).effectiveIdentityTrust ≠ .untrusted →
          ∃ signature ∈ package.signatures, Grants env trust package.toPackageContent now signature
            (packageVerification env trust package now).effectiveIdentityTrust := by
        rw [htrust]
        intro hsome
        have hin := hmem fun hnil => hsome (huntrusted.mpr hnil)
        obtain ⟨signature, hsignature, hgrants | ⟨hrogue, hself⟩⟩ := (mem_accepted_levels hdigest).mp hin
        · exact ⟨signature, hsignature, hgrants⟩
        · -- then the signature that counts grants no more than a rogue one is taken for
          rcases hwell hdigest with ⟨other, hother, level, hgrants⟩ | hnone
          · have hle := hgreatest level ((mem_accepted_levels hdigest).mpr ⟨other, hother, .inl hgrants⟩)
            rw [hself] at hle ⊢
            rcases level_of_grants hgrants with rfl | rfl | rfl
            · exact ⟨other, hother, hgrants⟩
            · exact absurd hle (by decide)
            · exact absurd hle (by decide)
          · exact absurd hrogue (hnone signature hsignature)
      refine ⟨fun hverified => ?_, hgranted, fun signature hsignature level hgrants => ?_⟩
      · obtain ⟨signature, hsignature, hgrants⟩ := hgranted (verified_iff_trusted.mp hverified)
        exact ⟨signature, hsignature, _, hgrants⟩
      · rw [htrust]
        exact hgreatest level ((mem_accepted_levels hdigest).mpr ⟨signature, hsignature, .inl hgrants⟩)
  · have hresult : (packageVerification env trust package now).effectiveIdentityTrust = .untrusted := by
      unfold packageVerification
      dsimp only
      rw [if_pos hdigest]
    refine iff_of_true ⟨fun hverified => ?_, fun hsome => absurd hresult hsome,
      fun signature hsignature level hgrants => ?_⟩ fun h => absurd h hdigest
    · exact absurd hresult (verified_iff_trusted.mp hverified)
    · -- every signature is for the digest that the package states
      have hstated := package.signed_digest signature hsignature
      rcases hgrants with ⟨key, hsigned, -⟩ | ⟨hsigned, -⟩
      · exact absurd (hsigned.digest.symm.trans hstated) hdigest
      · have hverified := hsigned.verified
        unfold verifyEmbeddedPackageSignature at hverified
        obtain ⟨key, hkey, -⟩ := hsigned.covered
        rw [hkey] at hverified
        exact absurd ((of_decide_eq_true hverified).2.1.symm.trans hstated) hdigest

theorem rank_injective {level level' : TrustLevel} (h : level.rank = level'.rank) : level = level' := by
  cases level <;> cases level' <;> first | rfl | exact absurd h (by decide)

theorem judged_alike {package' : ProviderPackage} (hadds : AddsUncounted env trust package now package')
    (h : Judged env trust package now (packageVerification env trust package now))
    (h' : Judged env trust package' now (packageVerification env trust package' now)) :
    (packageVerification env trust package' now).integrityStatus =
        (packageVerification env trust package now).integrityStatus ∧
      (packageVerification env trust package' now).effectiveIdentityTrust =
        (packageVerification env trust package now).effectiveIdentityTrust := by
  have hattained' := h'.attained
  have hgreatest' := h'.greatest
  rw [hadds.content] at hattained' hgreatest'
  have hle : (packageVerification env trust package now).effectiveIdentityTrust.rank ≤
      (packageVerification env trust package' now).effectiveIdentityTrust.rank := by
    by_cases hnone : (packageVerification env trust package now).effectiveIdentityTrust = .untrusted
    · rw [hnone]
      exact Nat.zero_le _
    · obtain ⟨signature, hsignature, hgrants⟩ := h.attained hnone
      exact hgreatest' signature (hadds.kept hsignature) _ hgrants
  have hge : (packageVerification env trust package' now).effectiveIdentityTrust.rank ≤
      (packageVerification env trust package now).effectiveIdentityTrust.rank := by
    by_cases hnone : (packageVerification env trust package' now).effectiveIdentityTrust = .untrusted
    · rw [hnone]
      exact Nat.zero_le _
    · obtain ⟨signature, hsignature, hgrants⟩ := hattained' hnone
      rcases hadds.added signature hsignature with hold | hnot
      · exact h.greatest signature hold _ hgrants
      · exact absurd hgrants (hnot _)
  have htrust := rank_injective (le_antisymm hge hle)
  refine ⟨?_, htrust⟩
  have hstatus : (packageVerification env trust package' now).integrityStatus = .verified ↔
      (packageVerification env trust package now).integrityStatus = .verified := by
    rw [verified_iff_trusted, verified_iff_trusted, htrust]
  cases hverified : (packageVerification env trust package now).integrityStatus with
  | verified => exact hstatus.mpr hverified
  | failed =>
    cases hverified' : (packageVerification env trust package' now).integrityStatus with
    | verified =>
      rw [hstatus.mp hverified'] at hverified
      cases hverified
    | failed => rfl

end Accepted

/-- The result is what the signatures that count make it, and others make no difference, just when
some signature counts or none is by a key without the role of a publisher. -/
theorem verify_package_judged_iff (env : Environment) (trust : TrustStore)
    (package package' : ProviderPackage) (now : Int) :
    (Judged env trust package now (packageVerification env trust package now) ∧
        Judged env trust package' now (packageVerification env trust package' now) ∧
        (AddsUncounted env trust package now package' →
          (packageVerification env trust package' now).integrityStatus =
              (packageVerification env trust package now).integrityStatus ∧
            (packageVerification env trust package' now).effectiveIdentityTrust =
              (packageVerification env trust package now).effectiveIdentityTrust)) ↔
      WellSigned env trust package now ∧ WellSigned env trust package' now := by
  rw [judged_iff, judged_iff]
  constructor
  · exact fun h => ⟨h.1, h.2.1⟩
  · exact fun h => ⟨h.1, h.2, fun hadds => judged_alike hadds (judged_iff.mpr h.1) (judged_iff.mpr h.2)⟩

/-- What the libraries compute, where a digest spells out what it is of. -/
def spelledEnvironment : Environment where
  packageDigest content := "sha256:" ++ content.packageId
  attestationDigest fields := "sha256:" ++ fields.evidenceId
  summaryDigest _ := none
  routeFingerprint route _ := .ok ("sha256:" ++ route.definition)
  executorSpec route providerId := providerId ++ route.definition
  behaviorFingerprint spec := "sha256:" ++ spec
  verifiesPackage publicKey digest signature := signature = publicKey ++ digest
  verifiesEvidence publicKey digest signature := signature = publicKey ++ digest
  acceptanceId digest evidenceId metric := "accept_" ++ digest ++ evidenceId ++ metric
  snapshotId digest routeId := "verify_" ++ digest ++ routeId
  candidateId sourceId routeId := "candidate_" ++ sourceId ++ routeId
  rejectionId digest := "package_audit_" ++ digest
  qualificationReport _ := none
  benchmarkCampaign _ := none
  rateCardSnapshot _ := none
  comparisonReport _ := none
  isObject _ := false
  resolveLocal _ := .error "artifact does not exist"
  resolveHttps _ := .error "artifact cannot be fetched"

theorem no_evidence_windows : ∀ item ∈ ([] : List EvidenceReference),
    ∀ notBefore ∈ item.validity.notBefore, ∀ expiresAt ∈ item.validity.expiresAt,
      notBefore < expiresAt :=
  List.forall_mem_nil _

theorem no_evidence_classified : ApiVersion.v06 = .v06 →
    ∀ item ∈ ([] : List EvidenceReference), item.authorityClass.isSome ∧ item.cohort.isSome :=
  fun _ => List.forall_mem_nil _

theorem no_evidence_summarized : ∀ item ∈ ([] : List EvidenceReference),
    item.summary.isSome → item.summaryDigest.isSome :=
  List.forall_mem_nil _

def evidenceSigned : ProviderPackage where
  apiVersion := .v06
  packageId := "package"
  version := "1.0.0"
  issuedAt := 0
  expiresAt := none
  providerId := "p"
  keys := [⟨"k", "key", [.evidenceProducer], none, none⟩]
  aeepMin := (0, 6, 0)
  aeepMaxExclusive := none
  routes := [⟨"r", "text.read@1", "sha256:route", "route"⟩]
  artifacts := []
  evidence := []
  smokeTests := []
  rest := ""
  integrityDigest := "sha256:package"
  signatures := [⟨"s", "k", "sha256:package", "keysha256:package", 1⟩]
  routes_ne := by decide
  routes_nodup := by decide
  artifacts_nodup := by decide
  evidence_nodup := by decide
  subjects := by decide
  signatures_nodup := by decide
  signed_digest := by decide
  signed_after := by decide
  summarized := no_evidence_summarized
  windows := no_evidence_windows
  classified := no_evidence_classified

/-- The package is verified by a signature that the other check of embedded keys refuses. -/
theorem evidence_key_verifies :
    (packageVerification spelledEnvironment ∅ evidenceSigned 5).integrityStatus = .verified ∧
      (packageVerification spelledEnvironment ∅ evidenceSigned 5).effectiveIdentityTrust =
        .selfAsserted ∧
      (∀ signature ∈ evidenceSigned.signatures, verifyEmbeddedPackageSignature spelledEnvironment
        evidenceSigned.toPackageContent signature = false) ∧
      ¬ Judged spelledEnvironment ∅ evidenceSigned 5
        (packageVerification spelledEnvironment ∅ evidenceSigned 5) := by
  have hverified : (packageVerification spelledEnvironment ∅ evidenceSigned 5).integrityStatus =
      .verified := by
    decide +kernel
  have hrefused : ∀ signature ∈ evidenceSigned.signatures, verifyEmbeddedPackageSignature
      spelledEnvironment evidenceSigned.toPackageContent signature = false := by
    decide +kernel
  refine ⟨hverified, by decide +kernel, hrefused, fun hjudged => ?_⟩
  obtain ⟨signature, hsignature, level, ⟨key, hsigned, -⟩ | ⟨hsigned, -⟩⟩ := hjudged.verified hverified
  · cases hsigned.found
  · exact Bool.false_ne_true ((hrefused signature hsignature).symm.trans hsigned.verified)

end AeepRouter.Package

import AeepRouter.Base
import AeepRouter.Lib.Run

/-!
# Signing packages

`signProviderPackage` computes the digest of a package anew and adds a signature over it to those the
package has; the package is then validated as a whole. The digest of a package of version 0.5 leaves
out what that version did not have.
-/

namespace AeepRouter.Signing

open Lib

/-! ## Packages -/

inductive ApiVersion where
  | v05
  | v06
  deriving DecidableEq, Repr

/-- `issued_at`, and the metadata as they are dumped. -/
structure ProviderPackageMetadata where
  issuedAt : Int
  text : String
  deriving DecidableEq, Repr

structure RouteEstimate where
  uncertainty : Option String
  rest : String
  deriving DecidableEq, Repr

structure PublishedProviderRoute where
  staticEstimate : Option RouteEstimate
  rest : String
  deriving DecidableEq, Repr

structure EvidenceReference where
  authorityClass : Option String
  cohort : Option String
  rest : String
  deriving DecidableEq, Repr

structure ProviderPackageSpec where
  routes : List PublishedProviderRoute
  evidence : List EvidenceReference
  rest : String
  deriving DecidableEq, Repr

/-- What a package says of itself. -/
structure PackageContent where
  apiVersion : ApiVersion
  metadata : ProviderPackageMetadata
  spec : ProviderPackageSpec
  deriving DecidableEq, Repr

variable {δ σ : Type}

structure ProviderPackageSignature (δ σ : Type) where
  signatureId : String
  keyId : String
  digest : δ
  signature : σ
  issuedAt : Int
  deriving DecidableEq, Repr

structure ProviderPackage (δ σ : Type) where
  content : PackageContent
  /-- `integrity.digest`. -/
  integrity : δ
  signatures : List (ProviderPackageSignature δ σ)
  deriving DecidableEq, Repr

/-- `ProviderPackage.valid_package`, after the bound on the signatures. -/
def validPackage [DecidableEq δ] (p : ProviderPackage δ σ) : Result Unit := do
  raiseIf (32 < p.signatures.length) (.value "signatures should have at most 32 items")
  raiseIf (¬ (p.signatures.map (·.signatureId)).Nodup)
    (.value "provider package contains duplicate signature IDs")
  raiseIf (∃ item ∈ p.signatures, item.digest ≠ p.integrity)
    (.value "provider package signature digest does not match integrity digest")
  raiseIf (∃ item ∈ p.signatures, item.issuedAt < p.content.metadata.issuedAt)
    (.value "provider package cannot be signed before it is issued")
  raiseIf (p.content.apiVersion = .v06 ∧
      ∃ item ∈ p.content.spec.evidence, item.authorityClass = none ∨ item.cohort = none)
    (.value "v0.6 evidence requires authority_class and cohort")

/-! ## Digests and signatures -/

def RouteEstimate.legacy (estimate : RouteEstimate) : RouteEstimate :=
  { estimate with uncertainty := none }

/-- The part of a specification that version 0.5 had. -/
def ProviderPackageSpec.legacy (spec : ProviderPackageSpec) : ProviderPackageSpec where
  routes := spec.routes.map fun route =>
    { route with staticEstimate := route.staticEstimate.map RouteEstimate.legacy }
  evidence := spec.evidence.map fun item =>
    { item with
      authorityClass := none
      cohort := none }
  rest := spec.rest

/-- `provider_package_payload`, before it is written as canonical JSON. -/
def PackageContent.payload (content : PackageContent) : PackageContent :=
  match content.apiVersion with
  | .v05 => { content with spec := content.spec.legacy }
  | .v06 => content

/-- The libraries: the digest of a payload, which is missing where it has no canonical form, and the
verification of a signature over a digest under a public key. No two payloads have one digest. -/
structure Library (δ σ : Type) where
  digest : PackageContent → Option δ
  verifies : String → δ → σ → Bool
  injective : ∀ a b d, digest a = some d → digest b = some d → a = b

structure Signer (lib : Library δ σ) where
  keyId : String
  publicKey : String
  sign : δ → σ
  correct : ∀ d, lib.verifies publicKey d (sign d) = true

variable [DecidableEq δ] (lib : Library δ σ)

def providerPackageDigest (content : PackageContent) : Result δ :=
  require (lib.digest content.payload) (.configuration "provider package canonicalization failed")

def signProviderPackage (p : ProviderPackage δ σ) (signer : Signer lib) (signatureId : String)
    (issuedAt : Int) : Result (ProviderPackage δ σ) := do
  let digest ← providerPackageDigest lib p.content
  raiseIf (¬ (1 ≤ signatureId.length ∧ signatureId.length ≤ 256))
    (.value "signature_id should have 1 to 256 characters")
  raiseIf (¬ (1 ≤ signer.keyId.length ∧ signer.keyId.length ≤ 256))
    (.value "key_id should have 1 to 256 characters")
  let signature : ProviderPackageSignature δ σ :=
    ⟨signatureId, signer.keyId, digest, signer.sign digest, issuedAt⟩
  let signed : ProviderPackage δ σ :=
    { p with
      integrity := digest
      signatures := p.signatures.filter (·.signatureId ≠ signatureId) ++ [signature] }
  validPackage signed
  pure signed

/-- What is done with a package. -/
inductive Op where
  | change (metadata : ProviderPackageMetadata) (spec : ProviderPackageSpec)
  | sign (signer : Signer lib) (signatureId : String) (issuedAt : Int)

/-- A change is made where the package stays accepted; a call that raises leaves the package. -/
def step (p : ProviderPackage δ σ) : Op lib → ProviderPackage δ σ
  | .change metadata spec =>
    let changed := { p with content := { p.content with metadata, spec } }
    match validPackage changed with
    | .ok () => changed
    | .error _ => p
  | .sign signer signatureId issuedAt =>
    match signProviderPackage lib p signer signatureId issuedAt with
    | .ok signed => signed
    | .error _ => p

/-! ## One call -/

def Accepted (p : ProviderPackage δ σ) : Prop := validPackage p = .ok ()

instance (p : ProviderPackage δ σ) : Decidable (Accepted p) := inferInstanceAs (Decidable (_ = _))

/-- What a signature needs: a digest, proper identifiers, no other signature over another digest, room
for one more, and a time at which the package is issued. -/
structure Signable (p : ProviderPackage δ σ) (signer : Signer lib) (signatureId : String)
    (issuedAt : Int) (digest : δ) : Prop where
  canonical : lib.digest p.content.payload = some digest
  idLength : 1 ≤ signatureId.length ∧ signatureId.length ≤ 256
  keyLength : 1 ≤ signer.keyId.length ∧ signer.keyId.length ≤ 256
  current : ∀ item ∈ p.signatures, item.signatureId ≠ signatureId → item.digest = digest
  room : (p.signatures.filter (·.signatureId ≠ signatureId)).length < 32
  issued : p.content.metadata.issuedAt ≤ issuedAt

def made (signer : Signer lib) (signatureId : String) (issuedAt : Int) (digest : δ) :
    ProviderPackageSignature δ σ :=
  ⟨signatureId, signer.keyId, digest, signer.sign digest, issuedAt⟩

omit [DecidableEq δ] in
@[simp] theorem made_digest (signer : Signer lib) (signatureId : String) (issuedAt : Int) (digest : δ) :
    (made lib signer signatureId issuedAt digest).digest = digest := rfl

omit [DecidableEq δ] in
@[simp] theorem made_issuedAt (signer : Signer lib) (signatureId : String) (issuedAt : Int)
    (digest : δ) : (made lib signer signatureId issuedAt digest).issuedAt = issuedAt := rfl

def signedWith (p : ProviderPackage δ σ) (signer : Signer lib) (signatureId : String) (issuedAt : Int)
    (digest : δ) : ProviderPackage δ σ :=
  { p with
    integrity := digest
    signatures := p.signatures.filter (·.signatureId ≠ signatureId) ++
      [made lib signer signatureId issuedAt digest] }

section Calls

variable {lib} {p signed : ProviderPackage δ σ} {signer : Signer lib} {signatureId : String}
  {issuedAt : Int} {digest : δ}

theorem accepted_iff : Accepted p ↔
    p.signatures.length ≤ 32 ∧ (p.signatures.map (·.signatureId)).Nodup ∧
      (∀ item ∈ p.signatures, item.digest = p.integrity) ∧
      (∀ item ∈ p.signatures, p.content.metadata.issuedAt ≤ item.issuedAt) ∧
      (p.content.apiVersion = .v06 →
        ∀ item ∈ p.content.spec.evidence, item.authorityClass ≠ none ∧ item.cohort ≠ none) := by
  unfold Accepted validPackage
  simp only [bind_ok, raiseIf_ok, exists_const, not_lt, not_not, not_exists, not_and, not_or, ne_eq]

/-- The signed package is accepted when nothing it keeps is over another digest. -/
theorem accepted_signedWith (hp : Accepted p) :
    Accepted (signedWith lib p signer signatureId issuedAt digest) ↔
      (∀ item ∈ p.signatures, item.signatureId ≠ signatureId → item.digest = digest) ∧
        (p.signatures.filter (·.signatureId ≠ signatureId)).length < 32 ∧
        p.content.metadata.issuedAt ≤ issuedAt := by
  obtain ⟨-, hnodup, -, hissued, hevidence⟩ := accepted_iff.mp hp
  have hids : ((p.signatures.filter (·.signatureId ≠ signatureId) ++
      [made lib signer signatureId issuedAt digest]).map (·.signatureId)).Nodup := by
    rw [List.map_append, List.map_singleton, List.nodup_append_comm, List.singleton_append,
      List.nodup_cons]
    refine ⟨fun hmem => ?_, hnodup.sublist (List.filter_sublist.map _)⟩
    obtain ⟨item, hitem, heq⟩ := List.mem_map.mp hmem
    exact of_decide_eq_true (List.mem_filter.mp hitem).2 heq
  rw [accepted_iff]
  simp only [signedWith, List.forall_mem_append, List.forall_mem_singleton, List.length_append,
    List.length_singleton, hids, true_and, List.mem_filter, decide_eq_true_eq, and_imp,
    made_digest, made_issuedAt, and_true]
  constructor
  · rintro ⟨hroom, hcurrent, ⟨-, htime⟩, -⟩
    exact ⟨hcurrent, by omega, htime⟩
  · rintro ⟨hcurrent, hroom, htime⟩
    exact ⟨by omega, hcurrent, ⟨fun item hitem _ => hissued item hitem, htime⟩, hevidence⟩

/-- A call succeeds just when the package can be signed, and adds the signature. -/
theorem sign_ok_iff (hp : Accepted p) :
    signProviderPackage lib p signer signatureId issuedAt = .ok signed ↔
      ∃ digest, Signable lib p signer signatureId issuedAt digest ∧
        signed = signedWith lib p signer signatureId issuedAt digest := by
  have hcall : signProviderPackage lib p signer signatureId issuedAt = .ok signed ↔
      ∃ digest, lib.digest p.content.payload = some digest ∧
        (1 ≤ signatureId.length ∧ signatureId.length ≤ 256) ∧
        (1 ≤ signer.keyId.length ∧ signer.keyId.length ≤ 256) ∧
        Accepted (signedWith lib p signer signatureId issuedAt digest) ∧
        signedWith lib p signer signatureId issuedAt digest = signed := by
    unfold signProviderPackage providerPackageDigest
    simp only [bind_ok, raiseIf_ok, require_ok, pure_ok, exists_const, not_not]
    constructor
    · rintro ⟨digest, hdigest, hid, hkey, _, hvalid, rfl⟩
      exact ⟨digest, hdigest, hid, hkey, hvalid, rfl⟩
    · rintro ⟨digest, hdigest, hid, hkey, hvalid, rfl⟩
      exact ⟨digest, hdigest, hid, hkey, (), hvalid, rfl⟩
  rw [hcall]
  refine exists_congr fun digest => ?_
  rw [accepted_signedWith hp]
  constructor
  · rintro ⟨hdigest, hid, hkey, ⟨hcurrent, hroom, hissued⟩, rfl⟩
    exact ⟨⟨hdigest, hid, hkey, hcurrent, hroom, hissued⟩, rfl⟩
  · rintro ⟨h, rfl⟩
    exact ⟨h.canonical, h.idLength, h.keyLength, ⟨h.current, h.room, h.issued⟩, rfl⟩

theorem accepted_of_sign (hp : Accepted p)
    (h : signProviderPackage lib p signer signatureId issuedAt = .ok signed) : Accepted signed := by
  obtain ⟨digest, hsignable, rfl⟩ := (sign_ok_iff hp).mp h
  exact (accepted_signedWith hp).mpr ⟨hsignable.current, hsignable.room, hsignable.issued⟩

end Calls

/-! ## Runs -/

def MadeBy (ops : List (Op lib)) (item : ProviderPackageSignature δ σ) : Prop :=
  ∃ signer issuedAt, Op.sign signer item.signatureId issuedAt ∈ ops ∧ item.keyId = signer.keyId ∧
    lib.verifies signer.publicKey item.digest item.signature = true

/-- What holds of a package that was reached by these calls and changes from a first one: its
signatures are over its stated digest, and are old or were made. -/
structure Reached (first : ProviderPackage δ σ) (ops : List (Op lib)) (p : ProviderPackage δ σ) :
    Prop where
  accepted : Accepted p
  signatures : ∀ item ∈ p.signatures, item ∈ first.signatures ∨ MadeBy lib ops item

structure CallLaw (p : ProviderPackage δ σ) (signer : Signer lib) (signatureId : String)
    (issuedAt : Int) : Prop where
  succeeds : (∃ signed, signProviderPackage lib p signer signatureId issuedAt = .ok signed) ↔
    ∃ digest, Signable lib p signer signatureId issuedAt digest
  content : ∀ signed, signProviderPackage lib p signer signatureId issuedAt = .ok signed →
    signed.content = p.content
  integrity : ∀ signed, signProviderPackage lib p signer signatureId issuedAt = .ok signed →
    lib.digest signed.content.payload = some signed.integrity
  current : ∀ signed, signProviderPackage lib p signer signatureId issuedAt = .ok signed →
    ∀ item ∈ signed.signatures, item.digest = signed.integrity
  added : ∀ signed, signProviderPackage lib p signer signatureId issuedAt = .ok signed →
    signed.signatures = p.signatures.filter (·.signatureId ≠ signatureId) ++
      [made lib signer signatureId issuedAt signed.integrity]

section Runs

variable {lib} {first p : ProviderPackage δ σ} {ops : List (Op lib)} {signer : Signer lib}
  {signatureId : String} {issuedAt : Int} {digest : δ}

theorem callLaw (hp : Accepted p) : CallLaw lib p signer signatureId issuedAt := by
  have hsigned {signed : ProviderPackage δ σ}
      (h : signProviderPackage lib p signer signatureId issuedAt = .ok signed) :
      ∃ digest, lib.digest p.content.payload = some digest ∧
        signed = signedWith lib p signer signatureId issuedAt digest := by
    obtain ⟨digest, hsignable, heq⟩ := (sign_ok_iff hp).mp h
    exact ⟨digest, hsignable.canonical, heq⟩
  refine ⟨?_, fun signed h => ?_, fun signed h => ?_, fun signed h => ?_, fun signed h => ?_⟩
  · constructor
    · rintro ⟨signed, h⟩
      obtain ⟨digest, hsignable, -⟩ := (sign_ok_iff hp).mp h
      exact ⟨digest, hsignable⟩
    · rintro ⟨digest, hsignable⟩
      exact ⟨_, (sign_ok_iff hp).mpr ⟨digest, hsignable, rfl⟩⟩
  · obtain ⟨digest, -, rfl⟩ := hsigned h
    rfl
  · obtain ⟨digest, hdigest, rfl⟩ := hsigned h
    exact hdigest
  · exact (accepted_iff.mp (accepted_of_sign hp h)).2.2.1
  · obtain ⟨digest, -, rfl⟩ := hsigned h
    rfl

omit [DecidableEq δ] in
theorem MadeBy.mono {ops' : List (Op lib)} {item : ProviderPackageSignature δ σ} (h : ops ⊆ ops')
    (hmade : MadeBy lib ops item) : MadeBy lib ops' item := by
  obtain ⟨signer, issuedAt, hmem, hkey, hverifies⟩ := hmade
  exact ⟨signer, issuedAt, h hmem, hkey, hverifies⟩

theorem Reached.step (h : Reached lib first ops p) (op : Op lib) :
    Reached lib first (ops ++ [op]) (step lib p op) := by
  have hold : ∀ item ∈ p.signatures, item ∈ first.signatures ∨ MadeBy lib (ops ++ [op]) item :=
    fun item hitem => (h.signatures item hitem).imp_right (MadeBy.mono (List.subset_append_left _ _))
  cases op with
  | change metadata spec =>
    unfold Signing.step
    dsimp only
    split
    · rename_i hvalid
      exact ⟨hvalid, hold⟩
    · exact ⟨h.accepted, hold⟩
  | sign signer signatureId issuedAt =>
    unfold Signing.step
    dsimp only
    split
    · rename_i signed hsigned
      refine ⟨accepted_of_sign h.accepted hsigned, fun item hitem => ?_⟩
      rw [(callLaw h.accepted).added signed hsigned] at hitem
      rcases List.mem_append.mp hitem with hkept | hnew
      · exact hold item (List.mem_of_mem_filter hkept)
      · obtain rfl := List.mem_singleton.mp hnew
        exact .inr ⟨signer, issuedAt, by simp [made], rfl, signer.correct _⟩
    · exact ⟨h.accepted, hold⟩

theorem reached_run (h : Reached lib first ops p) (more : List (Op lib)) :
    Reached lib first (ops ++ more) (run (Signing.step lib) p more) := by
  induction more generalizing ops p with
  | nil => rwa [List.append_nil]
  | cons op more ih =>
    have hstep := ih (h.step op)
    rwa [List.append_assoc, List.singleton_append] at hstep

end Runs

/-! ## Several signers -/

structure SigningCall where
  signer : Signer lib
  signatureId : String
  issuedAt : Int

/-- Calls that all succeed: the package has signatures for its content only, and the calls have new
identifiers, times at which the package is issued and room. -/
structure Fresh (p : ProviderPackage δ σ) (calls : List (SigningCall lib)) (digest : δ) : Prop where
  canonical : lib.digest p.content.payload = some digest
  current : ∀ item ∈ p.signatures, item.digest = digest
  ids : (p.signatures.map (·.signatureId) ++ calls.map (·.signatureId)).Nodup
  idLength : ∀ call ∈ calls, 1 ≤ call.signatureId.length ∧ call.signatureId.length ≤ 256
  keyLength : ∀ call ∈ calls, 1 ≤ call.signer.keyId.length ∧ call.signer.keyId.length ≤ 256
  issued : ∀ call ∈ calls, p.content.metadata.issuedAt ≤ call.issuedAt
  room : p.signatures.length + calls.length ≤ 32

def signAll (p : ProviderPackage δ σ) (calls : List (SigningCall lib)) : Result (ProviderPackage δ σ) :=
  calls.foldlM (fun p call => signProviderPackage lib p call.signer call.signatureId call.issuedAt) p

section Several

variable {lib} {p : ProviderPackage δ σ} {digest : δ}

theorem signAll_of_fresh {calls : List (SigningCall lib)} (hp : Accepted p)
    (h : Fresh lib p calls digest) :
    ∃ signed, signAll lib p calls = .ok signed ∧ signed.content = p.content ∧
      signed.signatures = p.signatures ++
        calls.map fun call => made lib call.signer call.signatureId call.issuedAt digest := by
  induction calls generalizing p with
  | nil => exact ⟨p, rfl, rfl, (List.append_nil _).symm⟩
  | cons call calls ih =>
    have hids := h.ids
    rw [List.map_cons, List.nodup_append] at hids
    obtain ⟨hold, hnew, hdisjoint⟩ := hids
    rw [List.nodup_cons] at hnew
    have hkept : p.signatures.filter (·.signatureId ≠ call.signatureId) = p.signatures := by
      refine List.filter_eq_self.mpr fun item hitem => decide_eq_true ?_
      exact hdisjoint _ (List.mem_map_of_mem hitem) _ List.mem_cons_self
    have hroom := h.room
    rw [List.length_cons] at hroom
    have hsignable : Signable lib p call.signer call.signatureId call.issuedAt digest := by
      refine ⟨h.canonical, h.idLength call List.mem_cons_self, h.keyLength call List.mem_cons_self,
        fun item hitem _ => h.current item hitem, ?_, h.issued call List.mem_cons_self⟩
      rw [hkept]
      omega
    have hsign := (sign_ok_iff hp).mpr ⟨digest, hsignable, rfl⟩
    have hsignatures : (signedWith lib p call.signer call.signatureId call.issuedAt digest).signatures =
        p.signatures ++ [made lib call.signer call.signatureId call.issuedAt digest] :=
      congrArg (· ++ _) hkept
    have hfresh : Fresh lib (signedWith lib p call.signer call.signatureId call.issuedAt digest) calls
        digest := by
      refine ⟨h.canonical, fun item hitem => ?_, ?_,
        fun c hc => h.idLength c (List.mem_cons_of_mem _ hc),
        fun c hc => h.keyLength c (List.mem_cons_of_mem _ hc),
        fun c hc => h.issued c (List.mem_cons_of_mem _ hc), ?_⟩
      · rw [hsignatures] at hitem
        rcases List.mem_append.mp hitem with hitem | hitem
        · exact h.current item hitem
        · obtain rfl := List.mem_singleton.mp hitem
          rfl
      · have hall := h.ids
        rw [hsignatures, List.map_append, List.append_assoc]
        exact hall
      · rw [hsignatures, List.length_append, List.length_singleton]
        omega
    obtain ⟨signed, hsigned, hcontent, hresult⟩ := ih (accepted_of_sign hp hsign) hfresh
    refine ⟨signed, ?_, hcontent, ?_⟩
    · rw [signAll, List.foldlM_cons]
      exact bind_ok.mpr ⟨_, hsign, hsigned⟩
    · rw [hresult, hsignatures, List.append_assoc, List.map_cons, List.singleton_append]

end Several

/-! ## Equal digests -/

omit [DecidableEq δ] in
theorem content_of_digest {a b : PackageContent} {digest : δ} (ha : lib.digest a.payload = some digest)
    (hb : lib.digest b.payload = some digest) :
    a.apiVersion = b.apiVersion ∧ a.metadata = b.metadata ∧ a.spec.legacy = b.spec.legacy ∧
      (a.apiVersion = .v06 → a = b) := by
  have hpayload := lib.injective _ _ _ ha hb
  obtain ⟨versionA, metadataA, specA⟩ := a
  obtain ⟨versionB, metadataB, specB⟩ := b
  cases versionA <;> cases versionB <;> simp_all [PackageContent.payload]

/-- Signing as the code does it, from any accepted package: a call succeeds just when the package has
no other signature over another digest (and there is room and a proper time), states the digest of
its content and keeps what is over it; signers with new identifiers sign one after the other; and a
digest determines the content but for what version 0.5 leaves out. -/
theorem sign_provider_package_law {first : ProviderPackage δ σ} (hfirst : Accepted first)
    (ops : List (Op lib)) :
    Reached lib first ops (run (step lib) first ops) ∧
      (∀ signer signatureId issuedAt,
        CallLaw lib (run (step lib) first ops) signer signatureId issuedAt) ∧
      (∀ calls digest, Fresh lib (run (step lib) first ops) calls digest →
        ∃ signed, signAll lib (run (step lib) first ops) calls = .ok signed ∧
          signed.content = (run (step lib) first ops).content ∧
          signed.signatures = (run (step lib) first ops).signatures ++
            calls.map fun call => made lib call.signer call.signatureId call.issuedAt digest) ∧
      ∀ (a b : PackageContent) (digest : δ), lib.digest a.payload = some digest →
        lib.digest b.payload = some digest →
        a.apiVersion = b.apiVersion ∧ a.metadata = b.metadata ∧ a.spec.legacy = b.spec.legacy ∧
          (a.apiVersion = .v06 → a = b) := by
  have hstart : Reached lib first [] first := ⟨hfirst, fun item hitem => .inl hitem⟩
  have hreached := reached_run hstart ops
  rw [List.nil_append] at hreached
  exact ⟨hreached, fun _ _ _ => callLaw hreached.accepted,
    fun calls digest hfresh => signAll_of_fresh hreached.accepted hfresh,
    fun a b digest ha hb => content_of_digest lib ha hb⟩

/-! ## A package signed, changed and signed again -/

/-- A scheme in which a digest is the payload itself and a signature names its key. -/
def plainVerifies (publicKey : String) (digest : PackageContent)
    (signature : String × PackageContent) : Bool :=
  signature = (publicKey, digest)

theorem plain_injective (a b d : PackageContent) (ha : some a = some d) (hb : some b = some d) :
    a = b :=
  Option.some.inj (ha.trans hb.symm)

def plainLibrary : Library PackageContent (String × PackageContent) where
  digest := some
  verifies := plainVerifies
  injective := plain_injective

def plainSign (key : String) (digest : PackageContent) : String × PackageContent := (key, digest)

theorem plain_correct (key : String) (d : PackageContent) :
    plainLibrary.verifies key d (plainSign key d) = true :=
  decide_eq_true rfl

def plainSigner (key : String) : Signer plainLibrary where
  keyId := key
  publicKey := key
  sign := plainSign key
  correct := plain_correct key

def datedContent (cohort : Option String) : PackageContent where
  apiVersion := .v05
  metadata := ⟨0, "first"⟩
  spec := ⟨[], [⟨none, cohort, "evidence"⟩], "spec"⟩

def datedPackage : ProviderPackage PackageContent (String × PackageContent) where
  content := datedContent none
  integrity := datedContent none
  signatures := []

/-- A package is signed, its metadata change and a second signer is refused; and a digest of version
0.5 does not determine the specification. -/
theorem second_signer_refused :
    signProviderPackage plainLibrary
        (run (step plainLibrary) datedPackage
          [.sign (plainSigner "a") "a" 0, .change ⟨0, "second"⟩ (datedContent none).spec])
        (plainSigner "b") "b" 0 =
      .error (.value "provider package signature digest does not match integrity digest") ∧
    (datedContent none).payload = (datedContent (some "cohort")).payload ∧
    (datedContent none).spec ≠ (datedContent (some "cohort")).spec := by
  decide +kernel

/-- A signer signs, the metadata change and the signer signs again. -/
def resigned : List (Op plainLibrary) :=
  [.sign (plainSigner "a") "a" 0, .change ⟨0, "second"⟩ (datedContent none).spec,
    .sign (plainSigner "a") "a" 1]

def resignedPackage : ProviderPackage PackageContent (String × PackageContent) :=
  run (step plainLibrary) datedPackage resigned

def laterCalls : List (SigningCall plainLibrary) :=
  [⟨plainSigner "b", "b", 2⟩, ⟨plainSigner "c", "c", 3⟩]

theorem fresh_laterCalls :
    Fresh plainLibrary resignedPackage laterCalls ⟨.v05, ⟨0, "second"⟩, (datedContent none).spec⟩ where
  canonical := by decide +kernel
  current := by decide +kernel
  ids := by decide +kernel
  idLength := by decide +kernel
  keyLength := by decide +kernel
  issued := by decide +kernel
  room := by decide +kernel

theorem sign_provider_package_dated :
    Accepted datedPackage ∧ Reached plainLibrary datedPackage resigned resignedPackage ∧
      CallLaw plainLibrary resignedPackage (plainSigner "b") "b" 2 ∧
      ∃ signed, signAll plainLibrary resignedPackage laterCalls = .ok signed ∧
        signed.signatures.map (·.signatureId) = ["a", "b", "c"] := by
  have haccepted : Accepted datedPackage := by decide
  obtain ⟨hreached, hcall, hfresh, -⟩ := sign_provider_package_law plainLibrary haccepted resigned
  obtain ⟨signed, hsigned, -, hsignatures⟩ := hfresh laterCalls _ fresh_laterCalls
  refine ⟨haccepted, hreached, hcall (plainSigner "b") "b" 2, signed, hsigned, ?_⟩
  rw [hsignatures]
  decide +kernel

end AeepRouter.Signing

import AeepRouter.Economic.Trust
import AeepRouter.Lib.Table

/-!
# Trust stores and key rotation

A trust store holds the keys an operator added and the keys rotated from them. A rotation must be
signed by a trusted predecessor and must not widen any of its scopes: capabilities, quote hosts,
roles, packages and trust level are compared with those of the predecessor, set by set.

What a key permits is read off by methods of its own, and `permitsPackage` takes an empty set for
every package. A rotated key that names no package at all is thus a subset of its predecessor and
permits more than it. `Ledger` adds to a store which keys are rotated from which, and
`rotation_within_root` bounds what a rotated key permits by the key at the root of its chain.
-/

namespace AeepRouter.Trust

open Lib

inductive TrustedKeyRole where
  | providerRecord
  | packagePublisher
  | evidenceProducer
  | independentVerifier
  | registry
  deriving DecidableEq, Repr

inductive TrustLevel where
  | verified
  | attested
  deriving DecidableEq, Repr

/-- The rotation metadata of a key, which is complete or absent. -/
structure Rotation where
  fromKeyId : String
  signedAt : Int
  signature : SignatureEnvelope
  deriving DecidableEq

/-- A key with the fields a trust store reads. -/
structure TrustedProviderKey extends AeepRouter.TrustedProviderKey where
  allowedQuoteHosts : List String
  roles : List TrustedKeyRole
  allowedPackageIds : List String
  trust : TrustLevel
  rotation : Option Rotation
  deriving DecidableEq

/-- The letter in lower case; of the letters outside ASCII only the Kelvin sign has an ASCII one. -/
def lowerChar (c : Char) : Char := if c = '\u212a' then 'k' else c.toLower

/-- Whether a text has two dots in a row. -/
def doubleDot : List Char → Bool
  | '.' :: '.' :: _ => true
  | _ :: rest => doubleDot rest
  | [] => false

def hostOf (value : String) : Result String := do
  let host := ((value.toList.reverse.dropWhile (· = '.')).reverse).map lowerChar
  raiseIf (host = [] ∨ ¬ host.all (fun c => c.isAlphanum || c = '.' || c = '-') ∨ doubleDot host)
    (.value "allowed_quote_hosts entries must be exact host names or IPv4 addresses")
  pure (String.ofList host)

namespace TrustedProviderKey

variable (key : TrustedProviderKey)

def identity : String × String := (key.providerId, key.keyId)

def permitsCapability (capability : String) : Bool := capability ∈ key.allowedCapabilities

def permitsQuoteHost (host : String) : Result Bool := do
  let host ← hostOf host
  pure (decide (host ∈ key.allowedQuoteHosts))

def permitsRole (role : TrustedKeyRole) : Bool := role ∈ key.roles

def permitsPackage (packageId : String) : Bool :=
  key.allowedPackageIds = [] ∨ packageId ∈ key.allowedPackageIds

end TrustedProviderKey

abbrev TrustStore := Table TrustedProviderKey TrustedProviderKey.identity

/-- What the libraries say of the signature of a rotation, over the payload of the key. -/
structure RotationCrypto where
  matchesCanonicalization : TrustedProviderKey → Bool
  loads : String → Bool
  verifies : String → TrustedProviderKey → Bool

def checkScopes (key predecessor : TrustedProviderKey) : Result Unit := do
  raiseIf (¬ key.allowedCapabilities ⊆ predecessor.allowedCapabilities)
    (.value "rotated key cannot expand operator-trusted capabilities")
  raiseIf (¬ key.allowedQuoteHosts ⊆ predecessor.allowedQuoteHosts)
    (.value "rotated key cannot expand operator-trusted quote hosts")
  raiseIf (¬ key.roles ⊆ predecessor.roles)
    (.value "rotated key cannot expand operator-trusted roles")
  raiseIf (predecessor.allowedPackageIds ≠ [] ∧
      ¬ key.allowedPackageIds ⊆ predecessor.allowedPackageIds)
    (.value "rotated key cannot expand operator-trusted package IDs")
  raiseIf (key.trust ≠ predecessor.trust)
    (.value "rotated key cannot change operator-assigned trust")

namespace TrustStore

variable (crypto : RotationCrypto) (store : TrustStore)

def addKey (key : TrustedProviderKey) : Result (TrustedProviderKey × TrustStore) :=
  match store.find? key.identity with
  | some existing => do
    raiseIf (existing ≠ key) (.value "trusted key ID already exists with different content")
    pure (existing, store)
  | none => pure (key, store.insert key)

/-- `TrustStoreVerifier.verify` of the payload of a rotated key, and `require_valid`. -/
def verifyRotation (key : TrustedProviderKey) (signature : SignatureEnvelope) (now : Int) :
    Result Unit := do
  let fail (p : Prop) [Decidable p] (reason : String) : Result Unit := raiseIf p (.value reason)
  fail (¬ crypto.matchesCanonicalization key)
    "payload bytes do not match the declared canonicalization"
  fail (signature.canonicalizationVersion ≠ .jcs)
    "legacy canonicalization is historical-only in AEEP 0.5"
  match store.find? (key.providerId, signature.keyId) with
  | none =>
    .error (.value
      (if ∃ other ∈ store.rows, other.keyId = signature.keyId then
        "signing key belongs to a different provider"
      else "signing key is not trusted"))
  | some signer => do
    fail (signer.algorithm ≠ signature.algorithm) "signature algorithm does not match trusted key"
    fail (signer.status ≠ .active) "signing key is not active"
    fail (¬ (signer.validFrom ≤ now ∧ now ≤ signer.validUntil))
      "signing key is outside its validity period"
    fail (∃ revoked ∈ signer.revokedAt, revoked ≤ now)
      "signing key was revoked at verification time"
    fail (signature.algorithm ≠ .ed25519)
      "provider trust store accepts public-key signatures only"
    fail (¬ crypto.loads signer.publicKey) "trusted public key is invalid"
    fail (¬ crypto.verifies signer.publicKey key) "signature verification failed"

/-- Five minutes in microseconds. -/
def maximumRotationClockSkew : Int := 300000000

def addRotatedKey (key : TrustedProviderKey) (now : Int) :
    Result (TrustedProviderKey × TrustStore) :=
  match store.find? key.identity with
  | some existing => do
    raiseIf (existing ≠ key) (.value "trusted key ID already exists with different content")
    pure (existing, store)
  | none => do
    let rotation ← require key.rotation (.value "rotated keys require signed rotation metadata")
    raiseIf (rotation.signature.keyId ≠ rotation.fromKeyId)
      (.value "rotation signature must use rotation_from_key_id")
    raiseIf (¬ (now - maximumRotationClockSkew ≤ rotation.signedAt ∧
        rotation.signedAt ≤ now + maximumRotationClockSkew))
      (.value "rotation signature time exceeds allowed clock skew")
    let predecessor ← require
      ((store.find? (key.providerId, rotation.fromKeyId)).filter (·.status = .active))
      (.value "rotation predecessor must be trusted and active now")
    raiseIf (¬ (predecessor.validFrom ≤ now ∧ now ≤ predecessor.validUntil))
      (.value "rotation predecessor is outside its validity period")
    checkScopes key predecessor
    verifyRotation crypto store key rotation.signature now
    raiseIf (key.validFrom < rotation.signedAt)
      (.value "rotated key cannot become valid before its rotation was signed")
    addKey store key

end TrustStore

/-! ## Chains of rotations -/

/-- A call of an operator, or a rotation at an instant. -/
inductive Call where
  | addKey (key : TrustedProviderKey)
  | addRotatedKey (key : TrustedProviderKey) (now : Int)

/-- The stored key another names as its predecessor. -/
def TrustStore.predecessorOf (store : TrustStore) (key : TrustedProviderKey) :
    Option TrustedProviderKey :=
  key.rotation.bind fun rotation => store.find? (key.providerId, rotation.fromKeyId)

/-- A trust store, and the keys rotated into it with their predecessors. -/
structure Ledger where
  store : TrustStore
  rotations : List (TrustedProviderKey × TrustedProviderKey)

namespace Ledger

def empty : Ledger := ⟨∅, []⟩

/-- The ledger after a call, which leaves it as it was when it raises. -/
def after (crypto : RotationCrypto) (l : Ledger) : Call → Ledger
  | .addKey key =>
    match l.store.addKey key with
    | .error _ => l
    | .ok (_, store) => { l with store := store }
  | .addRotatedKey key now =>
    match l.store.addRotatedKey crypto key now with
    | .error _ => l
    | .ok (_, store) =>
      if (l.store.find? key.identity).isSome then { l with store := store }
      else ⟨store, l.rotations ++ ((l.store.predecessorOf key).map (key, ·)).toList⟩

inductive Root (l : Ledger) : TrustedProviderKey → TrustedProviderKey → Prop
  | operator {key : TrustedProviderKey} : key ∈ l.store → (∀ p, (key, p) ∉ l.rotations) →
      Root l key key
  | rotated {key predecessor root : TrustedProviderKey} : (key, predecessor) ∈ l.rotations →
      Root l predecessor root → Root l key root

end Ledger

/-- What a key permits, another permits too, at the same level of trust. -/
structure TrustedProviderKey.Within (key root : TrustedProviderKey) : Prop where
  capability : ∀ capability, key.permitsCapability capability → root.permitsCapability capability
  quoteHost : ∀ host, key.permitsQuoteHost host = .ok true → root.permitsQuoteHost host = .ok true
  role : ∀ role, key.permitsRole role → root.permitsRole role
  package : ∀ packageId, key.permitsPackage packageId → root.permitsPackage packageId
  trust : key.trust = root.trust

/-- A rotation of a new key that names no package comes from a root that names none. -/
def Ledger.KeepsPackages (l : Ledger) : Call → Prop
  | .addKey _ => True
  | .addRotatedKey key _ =>
    l.store.find? key.identity = none → key.allowedPackageIds = [] →
      ∀ predecessor ∈ l.store.predecessorOf key, ∀ root, l.Root predecessor root →
        root.allowedPackageIds = []

/-! ## What a call changes -/

section Calls

variable {crypto : RotationCrypto} {store store' : TrustStore} {l l' : Ledger}
  {key predecessor root : TrustedProviderKey}

/-- A key is found again, or it is new. -/
theorem TrustStore.addKey_ok {result : TrustedProviderKey}
    (h : store.addKey key = .ok (result, store')) :
    store' = store ∨ store.find? key.identity = none ∧ store' = store.insert key := by
  unfold TrustStore.addKey at h
  split at h
  · simp only [bind_ok, raiseIf_ok, pure_ok, exists_const, Prod.mk.injEq] at h
    exact .inl h.2.2.symm
  · next hnone =>
    simp only [pure_ok, Prod.mk.injEq] at h
    exact .inr ⟨hnone, h.2.symm⟩

theorem TrustStore.addRotatedKey_ok {now : Int} {result : TrustedProviderKey}
    (h : store.addRotatedKey crypto key now = .ok (result, store')) :
    store' = store ∧ (store.find? key.identity).isSome ∨
      store.find? key.identity = none ∧ store' = store.insert key ∧
        ∃ predecessor, store.predecessorOf key = some predecessor ∧
          checkScopes key predecessor = .ok () := by
  unfold TrustStore.addRotatedKey at h
  split at h
  · next existing hfound =>
    simp only [bind_ok, raiseIf_ok, pure_ok, exists_const, Prod.mk.injEq] at h
    exact .inl ⟨h.2.2.symm, by rw [hfound]; rfl⟩
  · next hnone =>
    simp only [bind_ok, raiseIf_ok, require_ok, exists_const, Option.filter_eq_some_iff] at h
    obtain ⟨rotation, hrotation, -, -, predecessor, ⟨hfound, -⟩, -, ⟨⟩, hscopes, -, -, -, hadd⟩ := h
    refine .inr ⟨hnone, ?_, predecessor, by simp [predecessorOf, hrotation, hfound], hscopes⟩
    unfold TrustStore.addKey at hadd
    rw [hnone] at hadd
    simp only [pure_ok, Prod.mk.injEq] at hadd
    exact hadd.2.symm

theorem Ledger.after_cases (crypto : RotationCrypto) (l : Ledger) (call : Call) :
    l.after crypto call = l ∨
    (∃ key, l.store.find? key.identity = none ∧
      l.after crypto call = ⟨l.store.insert key, l.rotations⟩) ∨
    ∃ key now predecessor, call = .addRotatedKey key now ∧ l.store.find? key.identity = none ∧
      l.store.predecessorOf key = some predecessor ∧ checkScopes key predecessor = .ok () ∧
      l.after crypto call = ⟨l.store.insert key, l.rotations ++ [(key, predecessor)]⟩ := by
  cases call with
  | addKey key =>
    unfold after
    dsimp only
    split
    · exact .inl rfl
    · next hok =>
      obtain rfl | ⟨hnone, rfl⟩ := TrustStore.addKey_ok hok
      · exact .inl rfl
      · exact .inr (.inl ⟨key, hnone, rfl⟩)
  | addRotatedKey key now =>
    unfold after
    dsimp only
    split
    · exact .inl rfl
    · next hok =>
      obtain ⟨rfl, hsome⟩ | ⟨hnone, rfl, predecessor, hpredecessor, hscopes⟩ :=
        TrustStore.addRotatedKey_ok hok
      · exact .inl (if_pos hsome)
      · refine .inr (.inr ⟨key, now, predecessor, rfl, hnone, hpredecessor, hscopes, ?_⟩)
        rw [if_neg (by simp [hnone]), hpredecessor]
        rfl

theorem checkScopes_ok (h : checkScopes key predecessor = .ok ()) :
    key.allowedCapabilities ⊆ predecessor.allowedCapabilities ∧
      key.allowedQuoteHosts ⊆ predecessor.allowedQuoteHosts ∧ key.roles ⊆ predecessor.roles ∧
      (predecessor.allowedPackageIds ≠ [] →
        key.allowedPackageIds ⊆ predecessor.allowedPackageIds) ∧
      key.trust = predecessor.trust := by
  simp only [checkScopes, bind_ok, raiseIf_ok, exists_const, not_not, not_and] at h
  exact h

end Calls

/-! ## What a chain keeps -/

section Chains

variable {crypto : RotationCrypto} {l l' : Ledger} {key predecessor root : TrustedProviderKey}

namespace TrustedProviderKey

theorem Within.refl (key : TrustedProviderKey) : key.Within key :=
  ⟨fun _ h => h, fun _ h => h, fun _ h => h, fun _ h => h, rfl⟩

theorem Within.rotated (h : predecessor.Within root) (hscopes : checkScopes key predecessor = .ok ())
    (hpackages : key.allowedPackageIds = [] → root.allowedPackageIds = []) : key.Within root := by
  obtain ⟨hcapabilities, hhosts, hroles, hnames, htrust⟩ := checkScopes_ok hscopes
  refine ⟨fun capability hkey => h.capability capability ?_,
    fun host hkey => h.quoteHost host ?_, fun role hkey => h.role role ?_,
    fun packageId hkey => ?_, htrust.trans h.trust⟩
  · simp only [permitsCapability, decide_eq_true_eq] at hkey ⊢
    exact hcapabilities hkey
  · simp only [permitsQuoteHost, bind_ok, pure_ok, decide_eq_true_eq] at hkey ⊢
    obtain ⟨name, hname, hmem⟩ := hkey
    exact ⟨name, hname, hhosts hmem⟩
  · simp only [permitsRole, decide_eq_true_eq] at hkey ⊢
    exact hroles hkey
  · by_cases hempty : key.allowedPackageIds = []
    · -- a key that names no package permits every package, and so does its root
      simp [permitsPackage, hpackages hempty]
    · have hmem : packageId ∈ key.allowedPackageIds := by
        simpa [permitsPackage, hempty] using hkey
      refine h.package packageId ?_
      by_cases hany : predecessor.allowedPackageIds = []
      · simp [permitsPackage, hany]
      · simpa [permitsPackage] using Or.inr (hnames hany hmem)

end TrustedProviderKey

namespace Ledger

/-- What every call keeps: rotations are between stored keys, passed their checks, and name packages
where the root of their chain does; every key has a root. -/
structure Sound (l : Ledger) : Prop where
  stored : ∀ rotation ∈ l.rotations, rotation.1 ∈ l.store ∧ rotation.2 ∈ l.store
  scopes : ∀ rotation ∈ l.rotations, checkScopes rotation.1 rotation.2 = .ok ()
  rooted : ∀ key ∈ l.store, ∃ root, l.Root key root
  packages : ∀ key root, l.Root key root → key.allowedPackageIds = [] → root.allowedPackageIds = []

structure Extends (l l' : Ledger) (key : TrustedProviderKey) : Prop where
  absent : l.store.find? key.identity = none
  store : l'.store = l.store.insert key
  old : ∀ rotation ∈ l.rotations, rotation ∈ l'.rotations
  new : ∀ rotation ∈ l'.rotations, rotation ∈ l.rotations ∨ rotation.1 = key

theorem Extends.mem (h : l.Extends l' key) {other : TrustedProviderKey} :
    other ∈ l'.store ↔ other ∈ l.store ∨ other = key := by
  rw [h.store]
  exact Table.mem_insert h.absent

theorem Extends.old_of_mem (h : l.Extends l' key) {rotation : TrustedProviderKey × TrustedProviderKey}
    (hmem : rotation ∈ l'.rotations) (hstored : rotation.1 ∈ l.store) : rotation ∈ l.rotations := by
  refine (h.new rotation hmem).resolve_right fun heq => ?_
  exact Table.find?_eq_none.mp h.absent rotation.1 hstored (congrArg _ heq)

theorem Extends.root_iff (h : l.Extends l' key) (hs : l.Sound) {other root : TrustedProviderKey}
    (hother : other ∈ l.store) : l'.Root other root ↔ l.Root other root := by
  constructor
  · intro hroot
    induction hroot with
    | operator _ hnone => exact .operator hother fun p hp => hnone p (h.old _ hp)
    | rotated hmem _ ih =>
      have hold := h.old_of_mem hmem hother
      exact .rotated hold (ih (hs.stored _ hold).2)
  · intro hroot
    induction hroot with
    | operator _ hnone =>
      exact .operator (h.mem.mpr (.inl hother)) fun p hp => hnone p (h.old_of_mem hp hother)
    | rotated hmem _ ih => exact .rotated (h.old _ hmem) (ih (hs.stored _ hmem).2)

theorem Sound.empty : Ledger.empty.Sound where
  stored _ h := absurd h List.not_mem_nil
  scopes _ h := absurd h List.not_mem_nil
  rooted _ h := absurd h Table.not_mem_empty
  packages _ _ h := by
    cases h with
    | operator h => exact absurd h Table.not_mem_empty
    | rotated h => exact absurd h List.not_mem_nil

theorem Sound.added (hs : l.Sound) (hnone : l.store.find? key.identity = none) :
    (⟨l.store.insert key, l.rotations⟩ : Ledger).Sound := by
  have hext : l.Extends ⟨l.store.insert key, l.rotations⟩ key :=
    ⟨hnone, rfl, fun _ h => h, fun _ h => .inl h⟩
  have hfresh : ∀ p, (key, p) ∉ l.rotations := fun p hp =>
    Table.find?_eq_none.mp hnone key (hs.stored _ hp).1 rfl
  refine ⟨fun rotation h => ?_, hs.scopes, fun other hother => ?_, fun other root hroot => ?_⟩
  · exact ⟨hext.mem.mpr (.inl (hs.stored rotation h).1), hext.mem.mpr (.inl (hs.stored rotation h).2)⟩
  · rcases hext.mem.mp hother with hold | rfl
    · obtain ⟨root, hroot⟩ := hs.rooted other hold
      exact ⟨root, (hext.root_iff hs hold).mpr hroot⟩
    · exact ⟨other, .operator hother hfresh⟩
  · cases hroot with
    | operator => exact id
    | rotated hmem hrest =>
      have hold := (hs.stored _ hmem).1
      exact hs.packages other root ((hext.root_iff hs hold).mp (.rotated hmem hrest))

theorem Sound.rotated (hs : l.Sound) (hnone : l.store.find? key.identity = none)
    (hpredecessor : predecessor ∈ l.store) (hscopes : checkScopes key predecessor = .ok ())
    (hpackages : key.allowedPackageIds = [] →
      ∀ root, l.Root predecessor root → root.allowedPackageIds = []) :
    (⟨l.store.insert key, l.rotations ++ [(key, predecessor)]⟩ : Ledger).Sound := by
  have hext : l.Extends ⟨l.store.insert key, l.rotations ++ [(key, predecessor)]⟩ key := by
    refine ⟨hnone, rfl, fun _ h => List.mem_append_left _ h, fun rotation h => ?_⟩
    rcases List.mem_append.mp h with h | h
    · exact .inl h
    · exact .inr (by rw [List.mem_singleton.mp h])
  have hlast : (key, predecessor) ∈ l.rotations ++ [(key, predecessor)] :=
    List.mem_append_right _ (List.mem_singleton_self _)
  refine ⟨fun rotation h => ?_, fun rotation h => ?_, fun other hother => ?_,
    fun other root hroot => ?_⟩
  · rcases List.mem_append.mp h with h | h
    · obtain ⟨hkey, hfrom⟩ := hs.stored rotation h
      exact ⟨hext.mem.mpr (.inl hkey), hext.mem.mpr (.inl hfrom)⟩
    · rw [List.mem_singleton.mp h]
      exact ⟨hext.mem.mpr (.inr rfl), hext.mem.mpr (.inl hpredecessor)⟩
  · rcases List.mem_append.mp h with h | h
    · exact hs.scopes rotation h
    · rw [List.mem_singleton.mp h]
      exact hscopes
  · rcases hext.mem.mp hother with hold | rfl
    · obtain ⟨root, hroot⟩ := hs.rooted other hold
      exact ⟨root, (hext.root_iff hs hold).mpr hroot⟩
    · obtain ⟨root, hroot⟩ := hs.rooted predecessor hpredecessor
      exact ⟨root, .rotated hlast ((hext.root_iff hs hpredecessor).mpr hroot)⟩
  · by_cases hold : other ∈ l.store
    · exact hs.packages other root ((hext.root_iff hs hold).mp hroot)
    · cases hroot with
      | operator => exact id
      | rotated hmem hrest =>
        rcases List.mem_append.mp hmem with hmem | hmem
        · exact absurd (hs.stored _ hmem).1 hold
        · obtain ⟨rfl, rfl⟩ := Prod.mk.inj (List.mem_singleton.mp hmem)
          exact fun hempty => hpackages hempty root ((hext.root_iff hs hpredecessor).mp hrest)

theorem Sound.after (hs : l.Sound) {call : Call} (h : l.KeepsPackages call) :
    (l.after crypto call).Sound := by
  obtain heq | ⟨key, hnone, heq⟩ | ⟨key, now, predecessor, rfl, hnone, hfound, hscopes, heq⟩ :=
    l.after_cases crypto call
  · rwa [heq]
  · rw [heq]
    exact hs.added hnone
  · rw [heq]
    obtain ⟨rotation, -, hmem⟩ := Option.bind_eq_some_iff.mp hfound
    exact hs.rotated hnone (Table.mem_of_find? hmem) hscopes fun hempty =>
      h hnone hempty predecessor hfound

theorem Sound.within (hs : l.Sound) (h : l.Root key root) : key.Within root := by
  induction h with
  | operator => exact .refl _
  | rotated hmem hrest ih =>
    exact ih.rotated (hs.scopes _ hmem) (hs.packages _ _ (.rotated hmem hrest))

end Ledger

end Chains

/-! ## Runs -/

/-- In every run of operator calls and rotations that keep their packages, a rotated key has a root,
and permits nothing its root does not permit. -/
theorem rotation_within_root (crypto : RotationCrypto) (calls : List Call)
    (hcalls : Admissible (Ledger.after crypto) Ledger.KeepsPackages .empty calls)
    (key predecessor : TrustedProviderKey)
    (hkey : (key, predecessor) ∈ (run (Ledger.after crypto) .empty calls).rotations) :
    (∃ root, (run (Ledger.after crypto) .empty calls).Root key root) ∧
      ∀ root, (run (Ledger.after crypto) .empty calls).Root key root → key.Within root := by
  have hs : (run (Ledger.after crypto) .empty calls).Sound :=
    run_invariant_of_admissible (fun _ _ hs h => hs.after h) .empty hcalls
  exact ⟨hs.rooted key (hs.stored _ hkey).1, fun root hroot => hs.within hroot⟩

def operatorKey : TrustedProviderKey where
  providerId := "provider.example"
  keyId := "key-1"
  algorithm := .ed25519
  publicKey := "first"
  validFrom := 0
  validUntil := 10
  revokedAt := none
  status := .active
  allowedCapabilities := ["text.statistics@1"]
  rest := ""
  allowedQuoteHosts := ["quotes.example"]
  roles := [.packagePublisher]
  allowedPackageIds := ["package-a"]
  trust := .verified
  rotation := none

def rotatedKey (allowedPackageIds : List String) : TrustedProviderKey :=
  { operatorKey with
    keyId := "key-2"
    publicKey := "second"
    validFrom := 1
    allowedPackageIds := allowedPackageIds
    rotation := some ⟨"key-1", 1, ⟨.ed25519, "key-1", "signature", .jcs⟩⟩ }

/-- The libraries, where the first key signed the rotation of the second. -/
def rotationCrypto : RotationCrypto where
  matchesCanonicalization _ := true
  loads publicKey := publicKey = "first"
  verifies publicKey key := publicKey = "first" ∧ key.keyId = "key-2"

theorem rotation_within_root_of_package :
    let ledger := run (Ledger.after rotationCrypto) .empty
      [.addKey operatorKey, .addRotatedKey (rotatedKey ["package-a"]) 1]
    (∃ root, ledger.Root (rotatedKey ["package-a"]) root) ∧
      ∀ root, ledger.Root (rotatedKey ["package-a"]) root →
        (rotatedKey ["package-a"]).Within root := by
  have hkeeps : ∀ l : Ledger, l.KeepsPackages (.addRotatedKey (rotatedKey ["package-a"]) 1) :=
    fun _ _ => nofun
  exact rotation_within_root rotationCrypto
    [.addKey operatorKey, .addRotatedKey (rotatedKey ["package-a"]) 1]
    ⟨trivial, hkeeps _, trivial⟩ _ operatorKey (by decide +kernel)

/-- A rotated key that names no package permits one its root does not. -/
theorem rotation_widens_packages :
    let ledger := run (Ledger.after rotationCrypto) .empty
      [.addKey operatorKey, .addRotatedKey (rotatedKey []) 1]
    (rotatedKey [], operatorKey) ∈ ledger.rotations ∧
      ledger.Root (rotatedKey []) operatorKey ∧ ¬ (rotatedKey []).Within operatorKey := by
  intro ledger
  have hrotated : (rotatedKey [], operatorKey) ∈ ledger.rotations := by decide +kernel
  have hstored : operatorKey ∈ ledger.store := by decide +kernel
  have hadded : ∀ rotation ∈ ledger.rotations, rotation.1 ≠ operatorKey := by decide +kernel
  refine ⟨hrotated, .rotated hrotated (.operator hstored fun p hp => hadded _ hp rfl), fun h => ?_⟩
  have hpackage := h.package "package-b" rfl
  revert hpackage
  decide

end AeepRouter.Trust

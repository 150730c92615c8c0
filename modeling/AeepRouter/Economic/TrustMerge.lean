import AeepRouter.Economic.TrustStore
import AeepRouter.Lib.Consolidation
import Mathlib.Data.List.Sort
import Mathlib.Data.Prod.Lex
import Mathlib.Data.String.Basic
import Mathlib.Order.WithBot

/-!
# Merged trust stores

`mergeTrustedProviderKeys` keeps the most restrictive state of every key. Its result depends on the
set of the records alone, however they are ordered and grouped, and a signature that is verified under
it is verified under any of the records of its key.
-/

namespace AeepRouter.Trust

open Lib

/-! ## Records of a key -/

/-- The constructor's check of a key; `decode` gives the bytes of a public key. That the rotation
metadata is complete and the trust one of two levels is in the types. -/
def TrustedProviderKey.validKey (decode : String → Result (List UInt8)) (key : TrustedProviderKey) :
    Result Unit := do
  raiseIf (key.validUntil ≤ key.validFrom) (.value "key valid_until must be later than valid_from")
  raiseIf (∃ revoked ∈ key.revokedAt, revoked < key.validFrom)
    (.value "key revoked_at cannot precede valid_from")
  raiseIf (¬ (key.status = .revoked ↔ key.revokedAt.isSome))
    (.value "revoked keys require both revoked status and revoked_at")
  raiseIf (∃ rotation ∈ key.rotation, rotation.fromKeyId = key.keyId)
    (.value "a key cannot rotate from itself")
  match key.algorithm with
  | .hmacSha256 => pure ()
  | .ed25519 => do
    let bytes ← decode key.publicKey
    raiseIf (bytes.length ≠ 32) (.value "Ed25519 public keys must contain exactly 32 bytes")

def restrictiveness : TrustedKeyStatus → ℕ
  | .active => 0
  | .retired => 1
  | .revoked => 2

namespace TrustedProviderKey

/-- What `model_dump` leaves of a key without `_MUTABLE_KEY_STATE`. -/
def immutable (key : TrustedProviderKey) : TrustedProviderKey :=
  { key with
    status := .active
    revokedAt := none }

/-- Both records are revoked, the second one earlier. -/
abbrev EarlierRevocation (existing key : TrustedProviderKey) : Prop :=
  key.status = .revoked ∧ existing.status = .revoked ∧
    ∃ revoked ∈ key.revokedAt, ∃ before ∈ existing.revokedAt, revoked < before

/-- How restrictive the state of a key is: by its status, then by an early revocation. -/
def rank (key : TrustedProviderKey) : ℕ ×ₗ WithBot Intᵒᵈ :=
  toLex (restrictiveness key.status, key.revokedAt.map OrderDual.toDual)

end TrustedProviderKey

def mergeKey (merged : TrustStore) (key : TrustedProviderKey) : Result TrustStore :=
  match merged.find? key.identity with
  | none => pure (merged.assign key)
  | some existing => do
    raiseIf (existing.immutable ≠ key.immutable)
      (.value ("trusted key '" ++ key.keyId ++ "' has conflicting configured and stored metadata " ++
        "(immutable material differs)"))
    if restrictiveness existing.status < restrictiveness key.status ∨ existing.EarlierRevocation key
    then pure (merged.assign key)
    else pure merged

def TrustStore.ofKeys (keys : List TrustedProviderKey) : Result TrustStore :=
  keys.foldlM (fun store key => do
    let (_, store) ← store.addKey key
    pure store) ∅

def TrustStore.listKeys (store : TrustStore) : List TrustedProviderKey :=
  ((store.rows.map fun key => toLex key.identity).insertionSort (· ≤ ·)).filterMap fun identity =>
    store.find? (ofLex identity)

def mergeTrustedProviderKeys (configured stored : List TrustedProviderKey) : Result TrustStore := do
  let merged ← [configured, stored].foldlM (fun merged source => source.foldlM mergeKey merged) ∅
  TrustStore.ofKeys merged.rows

/-! ## What is merged -/

section Merge

variable {decode : String → Result (List UInt8)} {key existing : TrustedProviderKey}
  {store store' merged : TrustStore} {keys : List TrustedProviderKey}

theorem validKey_revoked (h : key.validKey decode = .ok ()) :
    key.status = .revoked ↔ key.revokedAt.isSome := by
  simp only [TrustedProviderKey.validKey, bind_ok, raiseIf_ok, exists_const, not_not] at h
  exact h.2.2.1

theorem restrictiveness_injective : Function.Injective restrictiveness := by
  intro a b h
  cases a <;> cases b <;> first | rfl | exact absurd h (by decide)

/-- The test of the loop compares ranks. -/
theorem rank_lt_iff (hexisting : existing.validKey decode = .ok ())
    (hkey : key.validKey decode = .ok ()) :
    existing.rank < key.rank ↔ restrictiveness existing.status < restrictiveness key.status ∨
      existing.EarlierRevocation key := by
  have hrevoked := validKey_revoked hexisting
  have hrevoked' := validKey_revoked hkey
  rw [TrustedProviderKey.rank, TrustedProviderKey.rank, Prod.Lex.toLex_lt_toLex]
  refine or_congr Iff.rfl ?_
  constructor
  · rintro ⟨hstatus, hlt⟩
    have hsame := restrictiveness_injective hstatus
    cases hbefore : existing.revokedAt with
    | none =>
      have hnone : key.revokedAt = none := by
        have hnot : key.status ≠ .revoked := fun h => by
          rw [← hsame, hrevoked, hbefore] at h
          cases h
        simpa using mt hrevoked'.mpr hnot
      rw [hbefore, hnone] at hlt
      exact absurd hlt (lt_irrefl _)
    | some before =>
      have hrev : existing.status = .revoked := hrevoked.mpr (by rw [hbefore]; rfl)
      obtain ⟨revoked, hkeyrev⟩ := Option.isSome_iff_exists.mp (hrevoked'.mp (hsame ▸ hrev))
      rw [hbefore, hkeyrev] at hlt
      exact ⟨hsame ▸ hrev, hrev, revoked, hkeyrev, before, hbefore,
        OrderDual.toDual_lt_toDual.mp (WithBot.coe_lt_coe.mp hlt)⟩
  · rintro ⟨hrev', hrev, revoked, hkeyrev, before, hbefore, hlt⟩
    rw [Option.mem_def] at hkeyrev hbefore
    refine ⟨by rw [hrev, hrev'], ?_⟩
    rw [hkeyrev, hbefore]
    exact WithBot.coe_lt_coe.mpr (OrderDual.toDual_lt_toDual.mpr hlt)

theorem eq_of_rank_eq (hstable : existing.immutable = key.immutable)
    (hrank : existing.rank = key.rank) : existing = key := by
  obtain ⟨hstatus, hrevoked⟩ := Prod.mk.inj (toLex.injective hrank)
  have hstatus := restrictiveness_injective hstatus
  have hrevoked : existing.revokedAt = key.revokedAt :=
    Option.map_injective OrderDual.toDual.injective hrevoked
  calc existing
      = { existing.immutable with
          status := existing.status
          revokedAt := existing.revokedAt } := rfl
    _ = { key.immutable with
          status := key.status
          revokedAt := key.revokedAt } := by rw [hstable, hstatus, hrevoked]
    _ = key := rfl

/-- A store with the records of the highest rank. -/
abbrev Merged (keys : List TrustedProviderKey) (store : TrustStore) : Prop :=
  Keeps TrustedProviderKey.identity TrustedProviderKey.immutable TrustedProviderKey.rank keys
    store.rows

abbrev Conflicting (keys : List TrustedProviderKey) : Prop :=
  Clashes TrustedProviderKey.identity TrustedProviderKey.immutable keys

theorem mergeKey_cases (hmerged : Merged keys merged) (hnone : ¬ Conflicting keys)
    (hvalid : ∀ other ∈ keys ++ [key], other.validKey decode = .ok ()) :
    (∃ store, mergeKey merged key = .ok store ∧ Merged (keys ++ [key]) store ∧
      ¬ Conflicting (keys ++ [key])) ∨
    (∃ e, mergeKey merged key = .error e) ∧ Conflicting (keys ++ [key]) := by
  have hclash := hmerged.clashes_concat (x := key) hnone
  unfold mergeKey
  cases hfound : merged.find? key.identity with
  | none =>
    refine .inl ⟨_, rfl, ?_, ?_⟩
    · rw [Table.assign_eq_insert hfound]
      exact hmerged.insert hfound
    · rw [Conflicting, hclash, hfound]
      rintro ⟨_, ⟨⟩, _⟩
  | some existing =>
    have hin : existing ∈ keys := hmerged.mem existing (Table.mem_of_find? hfound)
    by_cases hstable : existing.immutable = key.immutable
    · have hlt := rank_lt_iff (hvalid existing (List.mem_append_left _ hin))
        (hvalid key (List.mem_append_right _ (List.mem_singleton_self _)))
      have hok : ¬ Conflicting (keys ++ [key]) := by
        rw [Conflicting, hclash, hfound]
        rintro ⟨_, ⟨⟩, hne⟩
        exact hne hstable
      refine .inl ?_
      by_cases hrank : existing.rank < key.rank
      · refine ⟨merged.assign key, ?_, hmerged.assign hfound hstable hrank.le, hok⟩
        simp [hstable, hlt.mp hrank, raiseIf]
      · refine ⟨merged, ?_, hmerged.stay hfound hstable (not_lt.mp hrank), hok⟩
        simp [hstable, mt hlt.mpr hrank, raiseIf]
    · refine .inr ⟨⟨_, by simp [raiseIf, hstable]; rfl⟩, ?_⟩
      rw [Conflicting, hclash]
      exact ⟨existing, hfound, hstable⟩

/-- By induction on the records, the loop keeps the highest of each key or raises at a conflict. -/
theorem mergeKeys_cases (keys : List TrustedProviderKey) {before : List TrustedProviderKey} (hmerged : Merged before merged)
    (hnone : ¬ Conflicting before) (hvalid : ∀ other ∈ before ++ keys, other.validKey decode = .ok ()) :
    (∃ store, keys.foldlM mergeKey merged = .ok store ∧ Merged (before ++ keys) store ∧
      ¬ Conflicting (before ++ keys)) ∨
    (∃ e, keys.foldlM mergeKey merged = .error e) ∧ Conflicting (before ++ keys) := by
  induction keys generalizing before merged with
  | nil =>
    rw [List.append_nil]
    exact .inl ⟨merged, rfl, hmerged, hnone⟩
  | cons key keys ih =>
    have hsplit : before ++ key :: keys = (before ++ [key]) ++ keys := by simp
    rw [hsplit] at hvalid ⊢
    rw [List.foldlM_cons]
    rcases mergeKey_cases hmerged hnone fun other hother =>
      hvalid other (List.mem_append_left _ hother) with ⟨store, hstore, hnext, hok⟩ | ⟨⟨e, he⟩, hclash⟩
    · rw [hstore]
      exact ih hnext hok hvalid
    · rw [he]
      obtain ⟨x, hx, y, hy, hne⟩ := hclash
      exact .inr ⟨⟨e, rfl⟩, x, List.mem_append_left _ hx, y, List.mem_append_left _ hy, hne⟩

theorem ofKeys_rows {built : TrustStore} (h : ((built.rows ++ keys).map (·.identity)).Nodup) :
    ∃ store, keys.foldlM (fun store key => do
      let (_, store) ← TrustStore.addKey store key
      pure store) built = Except.ok store ∧ store.rows = built.rows ++ keys := by
  induction keys generalizing built with
  | nil => exact ⟨built, rfl, (List.append_nil _).symm⟩
  | cons key keys ih =>
    have hnew : built.find? key.identity = none := by
      refine Table.find?_eq_none.mpr fun other hother heq => ?_
      rw [List.map_append, List.nodup_append] at h
      exact h.2.2 _ (List.mem_map_of_mem hother) _ (List.mem_map_of_mem List.mem_cons_self) heq
    have hadd : built.addKey key = .ok (key, built.insert key) := by
      unfold TrustStore.addKey
      rw [hnew]
      rfl
    have hrows := Table.insert_rows hnew
    obtain ⟨store, hstore, hkept⟩ := ih (by rwa [hrows, List.append_assoc])
    refine ⟨store, ?_, by rw [hkept, hrows, List.append_assoc]; rfl⟩
    rw [List.foldlM_cons, hadd]
    exact hstore

/-- Records are merged to the highest of each key, or refused where two are in conflict. -/
theorem merge_cases {configured stored : List TrustedProviderKey}
    (hvalid : ∀ key ∈ configured ++ stored, key.validKey decode = .ok ()) :
    (∃ store, mergeTrustedProviderKeys configured stored = .ok store ∧
      Merged (configured ++ stored) store ∧ ¬ Conflicting (configured ++ stored)) ∨
    (∃ e, mergeTrustedProviderKeys configured stored = .error e) ∧
      Conflicting (configured ++ stored) := by
  have hloop : [configured, stored].foldlM (fun merged source => source.foldlM mergeKey merged)
      (∅ : TrustStore) = (configured ++ stored).foldlM mergeKey ∅ := by
    simp only [List.foldlM_cons, List.foldlM_nil, List.foldlM_append, bind_pure]
  have hstart : ¬ Conflicting [] := by
    rintro ⟨x, hx, -⟩
    exact absurd hx List.not_mem_nil
  unfold mergeTrustedProviderKeys
  rw [hloop]
  rcases mergeKeys_cases (configured ++ stored) Keeps.nil hstart hvalid with
    ⟨merged, hmerged, hkeeps, hnone⟩ | ⟨⟨e, he⟩, hclash⟩
  · obtain ⟨store, hstore, hrows⟩ := @ofKeys_rows merged.rows ∅ merged.nodup
    refine .inl ⟨store, ?_, ?_, hnone⟩
    · rw [hmerged]
      exact hstore
    · rw [Merged, hrows]
      exact hkeeps
  · refine .inr ⟨⟨e, ?_⟩, hclash⟩
    rw [he]
    rfl

theorem mem_listKeys : key ∈ store.listKeys ↔ key ∈ store := by
  simp only [TrustStore.listKeys, List.mem_filterMap, List.mem_insertionSort, List.mem_map]
  constructor
  · rintro ⟨_, ⟨other, -, rfl⟩, hfound⟩
    exact Table.mem_of_find? hfound
  · intro h
    exact ⟨_, ⟨key, h, rfl⟩, Table.find?_of_mem h⟩

theorem listKeys_congr (h : ∀ key, key ∈ store ↔ key ∈ store') :
    store.listKeys = store'.listKeys := by
  have hfind : store.find? = store'.find? := by
    funext identity
    refine Option.ext fun key => ?_
    rw [Table.find?_eq_some, Table.find?_eq_some, h]
  have hperm : (store.rows.map fun key => toLex key.identity).Perm
      (store'.rows.map fun key => toLex key.identity) :=
    ((List.perm_ext_iff_of_nodup (List.Nodup.of_map _ store.nodup)
      (List.Nodup.of_map _ store'.nodup)).mpr h).map _
  rw [TrustStore.listKeys, TrustStore.listKeys, hfind]
  congr 1
  exact (((List.perm_insertionSort _ _).trans hperm).trans
    (List.perm_insertionSort _ _).symm).eq_of_pairwise (fun _ _ _ _ => le_antisymm)
    (List.pairwise_insertionSort _ _) (List.pairwise_insertionSort _ _)

end Merge

/-! ## Groupings -/

/-- Records that are merged in some grouping: the keys of a merged store are listed for the next
merge. -/
inductive Grouping where
  | source (keys : List TrustedProviderKey)
  | merged (configured stored : Grouping)

namespace Grouping

def records : Grouping → List TrustedProviderKey
  | source keys => keys
  | merged configured stored => configured.records ++ stored.records

def run : Grouping → Result (List TrustedProviderKey)
  | source keys => pure keys
  | merged configured stored => do
    let configured ← configured.run
    let stored ← stored.run
    let store ← mergeTrustedProviderKeys configured stored
    pure store.listKeys

variable {decode : String → Result (List UInt8)} {configured stored : Grouping}

abbrev Valid (decode : String → Result (List UInt8)) (grouping : Grouping) : Prop :=
  ∀ key ∈ grouping.records, key.validKey decode = .ok ()

theorem conflicting_mono {keys keys' : List TrustedProviderKey} (hsub : keys ⊆ keys')
    (h : Conflicting keys) : Conflicting keys' := by
  obtain ⟨x, hx, y, hy, hne⟩ := h
  exact ⟨x, hsub hx, y, hsub hy, hne⟩

abbrev Kept (records kept : List TrustedProviderKey) : Prop :=
  Keeps TrustedProviderKey.identity TrustedProviderKey.immutable TrustedProviderKey.rank records kept

theorem merge_kept {left right kept kept' : List TrustedProviderKey}
    (hvalid : ∀ key ∈ left ++ right, key.validKey decode = .ok ()) (hleft : Kept left kept)
    (hright : Kept right kept') :
    (∃ store, mergeTrustedProviderKeys kept kept' = .ok store ∧ Merged (left ++ right) store ∧
      ¬ Conflicting (left ++ right)) ∨
    (∃ e, mergeTrustedProviderKeys kept kept' = .error e) ∧ Conflicting (left ++ right) := by
  have hboth := hleft.append hright
  rcases merge_cases fun key hkey => hvalid key (hboth.mem key hkey) with
    ⟨store, hstore, hmerged, hnone⟩ | ⟨he, hclash⟩
  · exact .inl ⟨store, hstore, hboth.trans hmerged, mt hboth.clashes_iff.mpr hnone⟩
  · exact .inr ⟨he, hboth.clashes_iff.mp hclash⟩

/-- A grouping keeps the highest of its records, or raises where two are in conflict. -/
abbrev Settles (grouping : Grouping) : Prop :=
  (∃ kept, grouping.run = .ok kept ∧ Kept grouping.records kept) ∨
    (∃ e, grouping.run = .error e) ∧ Conflicting grouping.records

theorem run_merged (hvalid : (merged configured stored).Valid decode)
    (hconfigured : configured.Settles) (hstored : stored.Settles) :
    (∃ store : TrustStore, (merged configured stored).run = .ok store.listKeys ∧
      Merged (merged configured stored).records store ∧
        ¬ Conflicting (merged configured stored).records) ∨
    (∃ e, (merged configured stored).run = .error e) ∧
      Conflicting (merged configured stored).records := by
  rcases hconfigured with ⟨kept, hrun, hkept⟩ | ⟨⟨e, he⟩, hclash⟩
  · rcases hstored with ⟨kept', hrun', hkept'⟩ | ⟨⟨e, he⟩, hclash⟩
    · rcases merge_kept hvalid hkept hkept' with ⟨store, hstore, hmerged, hnone⟩ | ⟨⟨e, he⟩, hclash⟩
      · refine .inl ⟨store, ?_, hmerged, hnone⟩
        rw [run, hrun, hrun']
        exact congrArg (· >>= fun store => pure store.listKeys) hstore
      · refine .inr ⟨⟨e, ?_⟩, hclash⟩
        rw [run, hrun, hrun']
        exact congrArg (· >>= fun store => pure store.listKeys) he
    · refine .inr ⟨⟨e, ?_⟩, conflicting_mono (List.subset_append_right _ _) hclash⟩
      rw [run, hrun, he]
      rfl
  · refine .inr ⟨⟨e, ?_⟩, conflicting_mono (List.subset_append_left _ _) hclash⟩
    rw [run, he]
    rfl

theorem settles (grouping : Grouping) (hvalid : grouping.Valid decode) : grouping.Settles := by
  induction grouping with
  | source keys => exact .inl ⟨keys, rfl, .refl⟩
  | merged configured stored ihc ihs =>
    refine (run_merged hvalid (ihc fun key hkey => hvalid key (List.mem_append_left _ hkey))
      (ihs fun key hkey => hvalid key (List.mem_append_right _ hkey))).imp_left ?_
    rintro ⟨store, hrun, hmerged, -⟩
    exact ⟨store.listKeys, hrun, hmerged.of_mem_iff (fun _ => Iff.rfl) fun _ => mem_listKeys.symm⟩

theorem run_congr {configured' stored' : Grouping}
    (hvalid : (merged configured stored).Valid decode)
    (hrecords : ∀ key, key ∈ (merged configured stored).records ↔
      key ∈ (merged configured' stored').records) :
    (∃ keys, (merged configured stored).run = .ok keys ∧
      (merged configured' stored').run = .ok keys) ∨
    (∃ e, (merged configured stored).run = .error e) ∧
      ∃ e, (merged configured' stored').run = .error e := by
  have hvalid' : (merged configured' stored').Valid decode := fun key hkey =>
    hvalid key ((hrecords key).mpr hkey)
  have hparts {a b : Grouping} (h : (merged a b).Valid decode) :=
    run_merged h (settles a fun key hkey => h key (List.mem_append_left _ hkey))
      (settles b fun key hkey => h key (List.mem_append_right _ hkey))
  have hclashes : Conflicting (merged configured stored).records ↔
      Conflicting (merged configured' stored').records :=
    ⟨conflicting_mono fun key hkey => (hrecords key).mp hkey,
      conflicting_mono fun key hkey => (hrecords key).mpr hkey⟩
  rcases hparts hvalid with ⟨store, hrun, hmerged, hnone⟩ | ⟨he, hclash⟩
  · rcases hparts hvalid' with ⟨store', hrun', hmerged', -⟩ | ⟨-, hclash'⟩
    · have hsame : store.listKeys = store'.listKeys := listKeys_congr fun key =>
        hmerged.mem_iff hmerged' hrecords (fun _ hx _ hy => Table.eq_of_key_eq hx hy)
          (fun _ hx _ hy => Table.eq_of_key_eq hx hy)
          fun _ _ _ _ _ hstable hrank => eq_of_rank_eq hstable hrank
      exact .inl ⟨_, hrun, hsame ▸ hrun'⟩
    · exact absurd (hclashes.mpr hclash') hnone
  · rcases hparts hvalid' with ⟨-, -, -, hnone'⟩ | ⟨he', -⟩
    · exact absurd (hclashes.mp hclash) hnone'
    · exact .inr ⟨he, he'⟩

end Grouping

/-! ## Verification -/

/-- What the libraries say of a signature. -/
structure SignatureCrypto where
  matchesCanonicalization : List UInt8 → CanonicalizationVersion → Bool
  loads : String → Bool
  verifies : String → List UInt8 → SignatureEnvelope → Bool

/-- The arguments of `verify`. -/
structure Verification where
  payload : List UInt8
  signature : SignatureEnvelope
  expectedProviderId : String
  capability : Option String
  quoteHost : Option String
  signedAt : Option Int
  allowHistorical : Bool

structure VerificationResult where
  valid : Bool
  reason : String
  providerId : String
  keyId : String
  algorithm : SignatureAlgorithm
  deriving DecidableEq

/-- Why a signature is not accepted: a result that says so, or an error. -/
inductive Refusal where
  | refused (reason : String)
  | raised (error : Err)

def TrustedProviderKey.effectiveTime (key : TrustedProviderKey) (v : Verification) (now : Int) :
    Except Refusal Int :=
  if v.allowHistorical then
    require v.signedAt (.refused "historical verification requires signed_at")
  else do
    raiseIf (key.status ≠ .active) (.refused "signing key is not active")
    pure now

/-- The part of `verify` that asks the key. -/
def TrustedProviderKey.check (crypto : SignatureCrypto) (key : TrustedProviderKey) (v : Verification)
    (now : Int) : Except Refusal Unit := do
  raiseIf (key.algorithm ≠ v.signature.algorithm)
    (.refused "signature algorithm does not match trusted key")
  raiseIf (∃ capability ∈ v.capability, ¬ key.permitsCapability capability)
    (.refused "signing key is not trusted for this capability")
  let permitted ← (v.quoteHost.elim (pure true) key.permitsQuoteHost).mapError .raised
  raiseIf (¬ permitted) (.refused "quote host is not trusted for this signing key")
  let effectiveTime ← key.effectiveTime v now
  raiseIf (¬ (key.validFrom ≤ effectiveTime ∧ effectiveTime ≤ key.validUntil))
    (.refused "signing key is outside its validity period")
  raiseIf (∃ revoked ∈ key.revokedAt, revoked ≤ effectiveTime)
    (.refused "signing key was revoked at verification time")
  raiseIf (v.signature.algorithm ≠ .ed25519)
    (.refused "provider trust store accepts public-key signatures only")
  raiseIf (¬ crypto.loads key.publicKey) (.refused "trusted public key is invalid")
  raiseIf (¬ crypto.verifies key.publicKey v.payload v.signature)
    (.refused "signature verification failed")

/-- The checks of `verify` in their order; every algorithm and version of an envelope is allowed. -/
def TrustStore.check (crypto : SignatureCrypto) (store : TrustStore) (v : Verification) (now : Int) :
    Except Refusal Unit := do
  raiseIf (¬ crypto.matchesCanonicalization v.payload v.signature.canonicalizationVersion)
    (.refused "payload bytes do not match the declared canonicalization")
  raiseIf (¬ v.allowHistorical ∧ v.signature.canonicalizationVersion ≠ .jcs)
    (.refused "legacy canonicalization is historical-only in AEEP 0.5")
  let key ← require (store.find? (v.expectedProviderId, v.signature.keyId))
    (.refused (if ∃ other ∈ store.rows, other.keyId = v.signature.keyId then
      "signing key belongs to a different provider" else "signing key is not trusted"))
  key.check crypto v now

def TrustStore.verify (crypto : SignatureCrypto) (store : TrustStore) (v : Verification)
    (now : Int) : Result VerificationResult :=
  let result (valid : Bool) (reason : String) : VerificationResult :=
    ⟨valid, reason, v.expectedProviderId, v.signature.keyId, v.signature.algorithm⟩
  match store.check crypto v now with
  | .ok () => .ok (result true "signature verified")
  | .error (.refused reason) => .ok (result false reason)
  | .error (.raised e) => .error e

section Verify

variable {decode : String → Result (List UInt8)} {crypto : SignatureCrypto}
  {key existing : TrustedProviderKey} {store store' : TrustStore} {v : Verification} {now : Int}

def Accepted (crypto : SignatureCrypto) (store : TrustStore) (v : Verification) (now : Int) : Prop :=
  ∃ result, store.verify crypto v now = .ok result ∧ result.valid = true

theorem accepted_iff : Accepted crypto store v now ↔ store.check crypto v now = .ok () := by
  unfold Accepted TrustStore.verify
  rcases hcheck : store.check crypto v now with (reason | e) | _ <;> simp

/-- Active keys have the lowest rank, and a revoked one is outranked by an earlier revocation. -/
theorem active_of_rank_le (h : existing.rank ≤ key.rank) (hactive : key.status = .active) :
    existing.status = .active := by
  have hle := Prod.Lex.toLex_le_toLex.mp h
  rw [hactive] at hle
  refine restrictiveness_injective ?_
  rcases hle with hlt | ⟨heq, -⟩
  · exact absurd hlt (Nat.not_lt_zero _)
  · exact heq

theorem revoked_of_rank_le (hexisting : existing.validKey decode = .ok ())
    (hkey : key.validKey decode = .ok ()) (h : existing.rank ≤ key.rank) {revoked : Int}
    (hrevoked : existing.revokedAt = some revoked) :
    ∃ before, key.revokedAt = some before ∧ before ≤ revoked := by
  have hstatus : existing.status = .revoked := (validKey_revoked hexisting).mpr (by simp [hrevoked])
  have hmost : restrictiveness key.status ≤ restrictiveness .revoked := by
    cases key.status <;> decide
  rcases Prod.Lex.toLex_le_toLex.mp h with hlt | ⟨heq, hle⟩
  · rw [hstatus] at hlt
    exact absurd hlt hmost.not_gt
  · rw [hstatus] at heq
    have hkeyStatus : TrustedKeyStatus.revoked = key.status := restrictiveness_injective heq
    obtain ⟨before, hbefore⟩ :=
      Option.isSome_iff_exists.mp ((validKey_revoked hkey).mp hkeyStatus.symm)
    rw [hrevoked, hbefore] at hle
    exact ⟨before, hbefore, OrderDual.toDual_le_toDual.mp (WithBot.coe_le_coe.mp hle)⟩

/-- A more restrictive record of a key accepts no more than another. -/
theorem check_of_rank_le (hexisting : existing.validKey decode = .ok ())
    (hkey : key.validKey decode = .ok ()) (hstable : existing.immutable = key.immutable)
    (hrank : existing.rank ≤ key.rank) (h : key.check crypto v now = .ok ()) :
    existing.check crypto v now = .ok () := by
  have halgorithm : existing.algorithm = key.algorithm := congrArg (·.algorithm) hstable
  have hpublic : existing.publicKey = key.publicKey := congrArg (·.publicKey) hstable
  have hfrom : existing.validFrom = key.validFrom := congrArg (·.validFrom) hstable
  have huntil : existing.validUntil = key.validUntil := congrArg (·.validUntil) hstable
  have hcapabilities : existing.permitsCapability = key.permitsCapability :=
    congrArg (·.permitsCapability) hstable
  have hhosts : existing.permitsQuoteHost = key.permitsQuoteHost :=
    congrArg (·.permitsQuoteHost) hstable
  have htime {t : Int} (ht : key.effectiveTime v now = .ok t) :
      existing.effectiveTime v now = .ok t := by
    unfold TrustedProviderKey.effectiveTime at ht ⊢
    split
    · rwa [if_pos ‹_›] at ht
    · rw [if_neg ‹_›] at ht
      simp only [bind_ok, raiseIf_ok, pure_ok, exists_const, not_not] at ht ⊢
      exact ⟨active_of_rank_le hrank ht.1, ht.2⟩
  simp only [TrustedProviderKey.check, bind_ok, raiseIf_ok, exists_const, not_not, halgorithm,
    hpublic, hfrom, huntil, hcapabilities, hhosts] at h ⊢
  obtain ⟨hsame, hcapability, permitted, hhost, hpermitted, t, ht, hperiod, hrevoked, hrest⟩ := h
  refine ⟨hsame, hcapability, permitted, hhost, hpermitted, t, htime ht, hperiod, ?_, hrest⟩
  -- a record revoked by then is outranked by one that was revoked by then
  rintro ⟨revoked, hmem, hle⟩
  obtain ⟨before, hbefore, hbefore'⟩ := revoked_of_rank_le hexisting hkey hrank hmem
  exact hrevoked ⟨before, hbefore, hbefore'.trans hle⟩

theorem accepted_of_merged {records : List TrustedProviderKey}
    (hvalid : ∀ key ∈ records, key.validKey decode = .ok ()) (hmerged : Merged records store)
    (haccepted : Accepted crypto store v now) (hexisting : existing ∈ records)
    (hfound : store'.find? (v.expectedProviderId, v.signature.keyId) = some existing) :
    Accepted crypto store' v now := by
  rw [accepted_iff] at haccepted ⊢
  simp only [TrustStore.check, bind_ok, raiseIf_ok, require_ok, exists_const] at haccepted ⊢
  obtain ⟨hpayload, hversion, key, hkey, hcheck⟩ := haccepted
  refine ⟨hpayload, hversion, existing, hfound, ?_⟩
  obtain ⟨other, hother, hidentity, hstable, hrank⟩ := hmerged.covers existing hexisting
  obtain rfl : other = key := by
    have hmem := Table.find?_of_mem (t := store) hother
    rw [hidentity, Table.key_of_find? hfound, hkey, Option.some_inj] at hmem
    exact hmem.symm
  exact check_of_rank_le (hvalid existing hexisting)
    (hvalid other (hmerged.mem other hother)) hstable.symm hrank hcheck

end Verify

/-- Merges of the same records are the same or all raise; a merge raises exactly at a conflict and
keeps each key in its most restrictive state; and a signature accepted under a merge is accepted
under every record of its key. -/
theorem merge_trusted_provider_keys (decode : String → Result (List UInt8)) :
    (∀ a b c d : Grouping, (a.merged b).Valid decode →
      (∀ key, key ∈ (a.merged b).records ↔ key ∈ (c.merged d).records) →
        (∃ keys, (a.merged b).run = .ok keys ∧ (c.merged d).run = .ok keys) ∨
          (∃ e, (a.merged b).run = .error e) ∧ ∃ e, (c.merged d).run = .error e) ∧
    ∀ configured stored, (∀ key ∈ configured ++ stored, key.validKey decode = .ok ()) →
      ((∃ e, mergeTrustedProviderKeys configured stored = .error e) ↔
        Conflicting (configured ++ stored)) ∧
      ∀ store, mergeTrustedProviderKeys configured stored = .ok store →
        Merged (configured ++ stored) store ∧
        ∀ crypto v now, Accepted crypto store v now →
          ∀ source : TrustStore, ∀ key ∈ configured ++ stored,
            source.find? (v.expectedProviderId, v.signature.keyId) = some key →
              Accepted crypto source v now := by
  refine ⟨fun a b c d hvalid hrecords => Grouping.run_congr hvalid hrecords, ?_⟩
  intro configured stored hvalid
  rcases merge_cases hvalid with ⟨merged, hok, hmerged, hnone⟩ | ⟨⟨e, he⟩, hclash⟩
  · refine ⟨iff_of_false (fun ⟨e, he⟩ => ?_) hnone, fun store hstore => ?_⟩
    · rw [hok] at he
      cases he
    · obtain rfl : merged = store := Except.ok.inj (hok.symm.trans hstore)
      exact ⟨hmerged, fun crypto v now haccepted source key hkey hfound =>
        accepted_of_merged hvalid hmerged haccepted hkey hfound⟩
  · refine ⟨iff_of_true ⟨e, he⟩ hclash, fun store hstore => ?_⟩
    rw [he] at hstore
    cases hstore

def recordOf (status : TrustedKeyStatus) (revokedAt : Option Int) : TrustedProviderKey :=
  { operatorKey with
    status := status
    revokedAt := revokedAt }

/-- Public keys of 32 bytes. -/
def decodeAll (_ : String) : Result (List UInt8) := .ok (List.replicate 32 0)

def acceptAll : SignatureCrypto := ⟨fun _ _ => true, fun _ => true, fun _ _ _ => true⟩

/-- A signature of the key at an instant of the past. -/
def signedBefore (signedAt : Int) : Verification :=
  ⟨[], ⟨.ed25519, "key-1", "", .jcs⟩, "provider.example", none, none, some signedAt, true⟩

theorem merge_of_revoked_key :
    ((Grouping.source [recordOf .active none]).merged
        (.source [recordOf .revoked (some 5), recordOf .revoked (some 3)])).run =
      (((Grouping.source [recordOf .revoked (some 3)]).merged (.source [recordOf .active none])).merged
        (.source [recordOf .revoked (some 5), recordOf .active none])).run ∧
    Merged [recordOf .active none, recordOf .revoked (some 3)]
      ((∅ : TrustStore).insert (recordOf .revoked (some 3))) ∧
    Accepted acceptAll ((∅ : TrustStore).insert (recordOf .active none)) (signedBefore 2) 20 := by
  obtain ⟨hruns, hmerges⟩ := merge_trusted_provider_keys decodeAll
  obtain ⟨hkept, haccepts⟩ := (hmerges [recordOf .active none] [recordOf .revoked (some 3)]
    (by decide +kernel)).2 ((∅ : TrustStore).insert (recordOf .revoked (some 3))) (by decide +kernel)
  refine ⟨?_, hkept, ?_⟩
  · rcases hruns (.source [recordOf .active none])
        (.source [recordOf .revoked (some 5), recordOf .revoked (some 3)])
        ((Grouping.source [recordOf .revoked (some 3)]).merged (.source [recordOf .active none]))
        (.source [recordOf .revoked (some 5), recordOf .active none])
        (by decide +kernel) (fun key => by simp [Grouping.records]; tauto) with
      ⟨keys, hkeys, hkeys'⟩ | ⟨⟨e, he⟩, e', he'⟩
    · rw [hkeys, hkeys']
    · have hok : ((Grouping.source [recordOf .active none]).merged
          (.source [recordOf .revoked (some 5), recordOf .revoked (some 3)])).run.isOk = true := by
        decide +kernel
      rw [he] at hok
      cases hok
  · exact haccepts acceptAll (signedBefore 2) 20 ⟨_, rfl, rfl⟩ _ (recordOf .active none) (by decide)
      (by decide +kernel)

end AeepRouter.Trust

import AeepRouter.Artifacts.Download
import AeepRouter.Lib.Publication

/-!
# The content-addressed store of artifacts

Resolvers read an artifact, verify its bytes and store them under their digest. They run side by side,
step by step; any of them can be killed, and a power cut can tear what is not synced and lose names.
The store refines the publication of drafts by renaming, so a digest never names anything but bytes
that hash to it, and what a resolver returns is of the declared digest and size
(`artifacts_content_addressed`).
-/

namespace AeepRouter.Artifacts

open Lib

/-- What resolving an artifact raises: an exception of the program, `OSError` or `zlib.error`. -/
inductive StoreError where
  | raised (e : Raised)
  | os
  | zlib
  deriving DecidableEq, Repr

def refuseArtifact (message : String) : StoreError := .raised (.configuration message)

/-! ## References -/

inductive ArtifactCompression where
  | none
  | gzip
  deriving DecidableEq, Repr

inductive ArtifactLocation where
  | path (path : Text)
  | uri (uri : Text)
  | oci (oci : Text)
  deriving DecidableEq, Repr

def isHexDigit (c : Char) : Bool := c.isDigit ∨ ('a' ≤ c ∧ c ≤ 'f')

structure ArtifactReference where
  digest : Text
  mediaType : Text
  sizeBytes : ℕ
  location : ArtifactLocation
  compression : ArtifactCompression
  digest_length : digest.length = 64
  digest_hex : digest.all isHexDigit = true
  size_le : sizeBytes ≤ 52428800

structure ContentArtifactStore where
  maximumBytes : ℕ
  positive : 1 ≤ maximumBytes
  bounded : maximumBytes ≤ 52428800

/-! ## Reading a file of a package -/

/-- The files of a package, by their parts below its root; a link that cannot be inspected is
nothing. -/
structure PackageView where
  root : List Text
  isSymlink : List Text → Option Bool
  resolve : List Text → List Text
  isFile : List Text → Bool

def pathParts (relative : Text) : List Text :=
  (relative.splitOn '/').filter fun part => part ≠ [] ∧ part ≠ ['.']

def safeLocalPath (view : PackageView) (relative : Text) : Except StoreError (List Text) := do
  let parts := pathParts relative
  raiseIf (relative.head? = some '/' ∨ parts.any (· = ['.', '.']))
    (refuseArtifact "artifact path must be relative and cannot traverse")
  (parts.inits.drop 1).forM fun current => do
    let link ← require (view.isSymlink current) (refuseArtifact "cannot inspect artifact path")
    raiseIf (link = true) (refuseArtifact "artifact symlinks are not supported")
  let resolved := view.resolve parts
  raiseIf (¬ view.root <+: resolved)
    (refuseArtifact "artifact path escapes the provider-package root")
  raiseIf (view.isFile resolved = false) (refuseArtifact "artifact path is not a regular file")
  pure resolved

structure FileStat where
  regular : Bool
  size : ℕ
  mtime : ℤ
  inode : ℕ
  deriving DecidableEq

/-- What reading a file finds, in which nothing is an `OSError`. -/
structure Reading where
  before : Option FileStat
  chunks : List (Option Bytes)
  after : Option FileStat

def cannotRead : StoreError := refuseArtifact "cannot read provider-package artifact"

def readFileChunk (maximum : ℕ) (raw : Bytes) (chunk : Option Bytes) : Except StoreError Bytes := do
  let chunk ← require chunk cannotRead
  raiseIf (maximum < raw.length + chunk.length)
    (refuseArtifact "artifact exceeds configured byte limit")
  pure (raw ++ chunk)

def readStableFile (reading : Reading) (maximum : ℕ) : Except StoreError Bytes := do
  let before ← require reading.before cannotRead
  raiseIf (before.regular = false ∨ maximum < before.size)
    (refuseArtifact "artifact must be a regular file within the configured size limit")
  let raw ← reading.chunks.foldlM (readFileChunk maximum) []
  let after ← require reading.after cannotRead
  raiseIf (before.size ≠ after.size ∨ before.mtime ≠ after.mtime ∨
      (before.inode ≠ 0 ∧ after.inode ≠ 0 ∧ before.inode ≠ after.inode))
    (refuseArtifact "artifact changed while it was being read")
  pure raw

/-! ## Decoding -/

/-- How reading a `GzipFile` ends: with the stream, with `BadGzipFile`, `EOFError` or another
`OSError`, or with the `zlib.error` of a corrupt block. -/
inductive GzipEnding where
  | intact
  | refused
  | corrupt
  deriving DecidableEq, Repr

/-- What `GzipFile` reads of some bytes, and how it ends. -/
structure GzipStream where
  chunks : List Bytes
  ending : GzipEnding

/-- The libraries. -/
structure Codec where
  sha256 : Bytes → Text
  gunzip : Bytes → GzipStream

def maximumCompressionRatio : ℕ := 100

def decodeChunk (raw : Bytes) (maximum : ℕ) (output chunk : Bytes) : Except StoreError Bytes := do
  let output := output ++ chunk
  raiseIf (maximum < output.length)
    (refuseArtifact "decompressed artifact exceeds configured limit")
  raiseIf (raw ≠ [] ∧ raw.length * maximumCompressionRatio < output.length)
    (refuseArtifact "artifact compression ratio exceeds safe limit")
  pure output

def decode (codec : Codec) (reference : ArtifactReference) (raw : Bytes) (maximum : ℕ) :
    Except StoreError Bytes :=
  match reference.compression with
  | .none => pure raw
  | .gzip => do
    let output ← (codec.gunzip raw).chunks.foldlM (decodeChunk raw maximum) []
    raiseIf ((codec.gunzip raw).ending = .refused) (refuseArtifact "artifact gzip payload is invalid")
    -- `zlib.error` is not among the exceptions that are converted.
    raiseIf ((codec.gunzip raw).ending = .corrupt) .zlib
    pure output

def verifyBlob (codec : Codec) (reference : ArtifactReference) (raw : Bytes) :
    Except StoreError Unit := do
  raiseIf (raw.length ≠ reference.sizeBytes)
    (refuseArtifact "artifact size does not match its declaration")
  raiseIf (codec.sha256 raw ≠ reference.digest)
    (refuseArtifact "artifact digest does not match its declaration")

/-! ## Sources -/

inductive SourceKind where
  | local
  | https
  deriving DecidableEq, Repr

/-- What a call of `resolve_local` or `resolve_https` is answered. -/
inductive Source where
  | resolveLocal (view : PackageView) (reading : List Text → Reading)
  | resolveHttps (lib : TextLibrary) (allowedHosts : List Text) (allowPrivateNetworks : Bool)
      (maximumRedirects : ℤ) (answers : ℕ → Answer)

def Source.kind : Source → SourceKind
  | .resolveLocal .. => .local
  | .resolveHttps .. => .https

/-- The bytes of an artifact, before they are verified. -/
def Source.read (store : ContentArtifactStore) (reference : ArtifactReference) :
    Source → Except StoreError Bytes
  | .resolveLocal view reading =>
    match reference.location with
    | .path path => do
      let resolved ← safeLocalPath view path
      readStableFile (reading resolved) (min store.maximumBytes (reference.sizeBytes + 1))
    | _ => .error (refuseArtifact "artifact does not declare a local path")
  | .resolveHttps lib allowedHosts allowPrivateNetworks maximumRedirects answers =>
    match reference.location with
    | .uri uri =>
      (downloadPinned lib ⟨reference.mediaType, reference.sizeBytes, allowedHosts,
        allowPrivateNetworks, maximumRedirects, store.maximumBytes⟩ answers uri).result.mapError
          .raised
    | _ => .error (refuseArtifact "artifact does not declare a remote URI")

/-! ## Resolvers -/

/-- A name below `sha256` in the root of the store. -/
structure CasPath where
  directory : Text
  name : Text
  deriving DecidableEq, Repr

def destination (digest : Text) : CasPath := ⟨digest.take 2, digest⟩

/-- The name that `mkstemp` draws. -/
def temporaryPath (digest suffix : Text) : CasPath :=
  ⟨digest.take 2, '.' :: digest ++ '.' :: suffix⟩

/-- Where a resolver stands in `_store`. -/
inductive StoreStage where
  | checking
  | comparing
  | making
  | writing (temporary : CasPath)
  | replacing (temporary : CasPath)
  | clearing (temporary : CasPath) (result : Except StoreError Unit)
  | finished (result : Except StoreError Bytes)

structure Resolver where
  reference : ArtifactReference
  sourceKind : SourceKind
  raw : Bytes
  stage : StoreStage

/-- The directory of the store and the calls under way. Of `mkstemp` the names are kept that it has
drawn. -/
structure Cas where
  disk : Disk CasPath UInt8
  resolvers : ℕ → Option Resolver
  drawn : List CasPath

/-- What a step meets: whether the operating system fails it, the name `mkstemp` draws, and how many
bytes are written before the last of them. -/
structure StepAnswer where
  fails : Bool
  suffix : Text
  written : Option ℕ

inductive Event where
  | resolve (id : ℕ) (reference : ArtifactReference) (source : Source)
  | proceed (id : ℕ) (answer : StepAnswer)
  | kill (id : ℕ)
  | powerCut (keeps : CasPath → Bool) (torn : CasPath → Bytes)

section Steps

variable (codec : Codec) (store : ContentArtifactStore)

def Resolver.destination (r : Resolver) : CasPath := Artifacts.destination r.reference.digest

/-- The call has what `_store` answers. -/
def Resolver.finish (r : Resolver) (result : Except StoreError Unit) : Resolver :=
  { r with
    stage := .finished (result.bind fun _ => decode codec r.reference r.raw store.maximumBytes) }

def Cas.set (s : Cas) (id : ℕ) (r : Resolver) : Cas :=
  { s with resolvers := Function.update s.resolvers id (some r) }

def conflict : String := "content-addressed artifact has conflicting bytes"

def conflictingBytes : StoreError := refuseArtifact conflict

def Cas.proceed (s : Cas) (id : ℕ) (r : Resolver) (answer : StepAnswer) : Cas :=
  match r.stage with
  | .checking =>
    if answer.fails then s.set id (r.finish codec store (.error .os))
    else if (s.disk r.destination).isSome then s.set id { r with stage := .comparing }
    else s.set id { r with stage := .making }
  | .comparing =>
    match s.disk r.destination with
    | none => s.set id (r.finish codec store (.error .os))
    | some file =>
      if answer.fails then s.set id (r.finish codec store (.error .os))
      else if codec.sha256 file.content ≠ r.reference.digest then
        s.set id (r.finish codec store (.error conflictingBytes))
      else s.set id (r.finish codec store (.ok ()))
  | .making =>
    let temporary := temporaryPath r.reference.digest answer.suffix
    if answer.fails then s.set id (r.finish codec store (.error .os))
    else if (s.disk temporary).isSome then s
    else
      { disk := s.disk.create temporary
        resolvers := Function.update s.resolvers id (some { r with stage := .writing temporary })
        drawn := temporary :: s.drawn }
  | .writing temporary =>
    if answer.fails then s.set id { r with stage := .clearing temporary (.error .os) }
    else
      match answer.written with
      | some n => { s with disk := s.disk.write temporary (r.raw.take n) }
      | none =>
        { s with
          disk := (s.disk.write temporary r.raw).sync temporary
          resolvers := Function.update s.resolvers id
            (some { r with stage := .replacing temporary }) }
  | .replacing temporary =>
    if answer.fails ∨ (s.disk temporary).isNone then
      s.set id { r with stage := .clearing temporary (.error .os) }
    else
      { s with
        disk := s.disk.rename temporary r.destination
        resolvers := Function.update s.resolvers id
          (some { r with stage := .clearing temporary (.ok ()) }) }
  | .clearing temporary result =>
    if answer.fails ∧ (s.disk temporary).isSome then s.set id (r.finish codec store (.error .os))
    else
      { s with
        disk := s.disk.unlink temporary
        resolvers := Function.update s.resolvers id (some (r.finish codec store result)) }
  | .finished _ => s

/-- A call up to `_store`. -/
def beginResolve (reference : ArtifactReference) (source : Source) : Resolver :=
  match source.read store reference with
  | .error e => ⟨reference, source.kind, [], .finished (.error e)⟩
  | .ok raw =>
    match verifyBlob codec reference raw with
    | .error e => ⟨reference, source.kind, raw, .finished (.error e)⟩
    | .ok () => ⟨reference, source.kind, raw, .checking⟩

def Cas.step (s : Cas) : Event → Cas
  | .resolve id reference source =>
    match s.resolvers id with
    | some _ => s
    | none => s.set id (beginResolve codec store reference source)
  | .proceed id answer =>
    match s.resolvers id with
    | some r => s.proceed codec store id r answer
    | none => s
  | .kill id => { s with resolvers := Function.update s.resolvers id none }
  | .powerCut keeps torn => ⟨s.disk.cut keeps torn, fun _ => none, s.drawn⟩

/-- `mkstemp` draws no name a second time. -/
def DrawsFresh (s : Cas) : Event → Prop
  | .proceed id answer => ∀ r ∈ s.resolvers id,
      temporaryPath r.reference.digest answer.suffix ∉ s.drawn
  | _ => True

instance DrawsFresh.decidable (s : Cas) (e : Event) : Decidable (DrawsFresh s e) := by
  unfold DrawsFresh
  cases e <;> infer_instance

end Steps

/-! ## Reading and decoding -/

section Reading

variable {store : ContentArtifactStore} {reference : ArtifactReference} {source : Source}
  {reading : Reading} {maximum : ℕ} {raw output output' : Bytes} {codec : Codec}

theorem readFileChunk_length {chunk : Option Bytes}
    (h : readFileChunk maximum raw chunk = .ok output) : output.length ≤ maximum := by
  unfold readFileChunk at h
  simp only [bind_ok, pure_ok, require_ok, raiseIf_ok, exists_const, not_lt] at h
  obtain ⟨bytes, -, hlimit, rfl⟩ := h
  rwa [List.length_append]

theorem readStableFile_length (h : readStableFile reading maximum = .ok raw) :
    raw.length ≤ maximum := by
  unfold readStableFile at h
  simp only [bind_ok, pure_ok, require_ok, raiseIf_ok, exists_const] at h
  obtain ⟨before, -, -, bytes, hchunks, after, -, -, rfl⟩ := h
  have hnone : ([] : Bytes).length ≤ maximum := Nat.zero_le maximum
  exact foldlM_invariant (P := fun bytes : Bytes => bytes.length ≤ maximum)
    (fun _ _ _ _ hchunk => readFileChunk_length hchunk) hnone hchunks

theorem mapError_ok {result : Except Raised Bytes}
    (h : result.mapError StoreError.raised = .ok raw) : result = .ok raw := by
  cases result with
  | error e => cases h
  | ok bytes => exact congrArg Except.ok (Except.ok.inj h)

theorem mapError_error {result : Except Raised Bytes} {e : Raised}
    (h : result.mapError StoreError.raised = .error (.raised e)) : result = .error e := by
  cases result with
  | error e' => exact congrArg Except.error (StoreError.raised.inj (Except.error.inj h))
  | ok bytes => cases h

theorem downloadPinned_length {lib : TextLibrary} {settings : Settings} {answers : ℕ → Answer}
    {url : Text} (h : (downloadPinned lib settings answers url).result = .ok raw) :
    raw.length ≤ settings.permitted := by
  unfold downloadPinned at h
  split at h
  · cases h
  · split at h
    · cases h
    · obtain ⟨-, -, response, -, hreceived⟩ := turns_result _ _ _ h
      exact hreceived.length

theorem Source.read_length (h : source.read store reference = .ok raw) :
    raw.length ≤ store.maximumBytes := by
  cases source with
  | resolveLocal view reading =>
    dsimp only [Source.read] at h
    cases hlocation : reference.location with
    | path path =>
      rw [hlocation] at h
      obtain ⟨resolved, -, hread⟩ := bind_ok.mp h
      exact (readStableFile_length hread).trans (min_le_left _ _)
    | uri uri => rw [hlocation] at h; cases h
    | oci oci => rw [hlocation] at h; cases h
  | resolveHttps lib allowedHosts allowPrivateNetworks maximumRedirects answers =>
    dsimp only [Source.read] at h
    cases hlocation : reference.location with
    | uri uri =>
      rw [hlocation] at h
      exact (downloadPinned_length (mapError_ok h)).trans (min_le_left _ _)
    | path path => rw [hlocation] at h; cases h
    | oci oci => rw [hlocation] at h; cases h

theorem decodeChunk_ok {chunk : Bytes} (h : decodeChunk raw maximum output chunk = .ok output') :
    output'.length ≤ maximum ∧ (raw ≠ [] → output'.length ≤ raw.length * maximumCompressionRatio) ∧
      output' = output ++ chunk := by
  unfold decodeChunk at h
  simp only [bind_ok, pure_ok, raiseIf_ok, exists_const, not_and, not_lt] at h
  obtain ⟨hmaximum, hratio, rfl⟩ := h
  exact ⟨hmaximum, hratio, rfl⟩

theorem decodeChunks_ok {chunks : List Bytes} (h : chunks.foldlM (decodeChunk raw maximum) output =
      .ok output') (hmaximum : output.length ≤ maximum)
    (hratio : raw ≠ [] → output.length ≤ raw.length * maximumCompressionRatio) :
    output' = output ++ chunks.flatten ∧ output'.length ≤ maximum ∧
      (raw ≠ [] → output'.length ≤ raw.length * maximumCompressionRatio) := by
  induction chunks generalizing output with
  | nil =>
    obtain rfl := pure_ok.mp h
    exact ⟨by simp, hmaximum, hratio⟩
  | cons chunk chunks ih =>
    rw [List.foldlM_cons] at h
    obtain ⟨next, hchunk, hrest⟩ := bind_ok.mp h
    obtain ⟨hnext, hnextRatio, rfl⟩ := decodeChunk_ok hchunk
    obtain ⟨rfl, hlength, hlengthRatio⟩ := ih hrest hnext hnextRatio
    exact ⟨by simp, hlength, hlengthRatio⟩

/-- What an artifact is decoded to: its bytes, or the whole of an intact gzip stream that is not too
long. -/
structure Decoded (codec : Codec) (reference : ArtifactReference) (raw : Bytes) (maximum : ℕ)
    (payload : Bytes) : Prop where
  plain : reference.compression = .none → payload = raw
  gzip : reference.compression = .gzip → (codec.gunzip raw).ending = .intact ∧
    payload = (codec.gunzip raw).chunks.flatten ∧
    (raw ≠ [] → payload.length ≤ raw.length * maximumCompressionRatio)
  length : payload.length ≤ maximum

theorem decoded_of_ok {payload : Bytes} (hraw : raw.length ≤ maximum)
    (h : decode codec reference raw maximum = .ok payload) :
    Decoded codec reference raw maximum payload := by
  unfold decode at h
  cases hcompression : reference.compression with
  | none =>
    rw [hcompression] at h
    obtain rfl := pure_ok.mp h
    have hother : reference.compression ≠ .gzip := by simp [hcompression]
    exact ⟨fun _ => rfl, fun hgzip => absurd hgzip hother, hraw⟩
  | gzip =>
    rw [hcompression] at h
    simp only [bind_ok, pure_ok, raiseIf_ok, exists_const] at h
    obtain ⟨_, hchunks, hrefused, hcorrupt, rfl⟩ := h
    have hintact : (codec.gunzip raw).ending = .intact := by
      cases hending : (codec.gunzip raw).ending with
      | intact => rfl
      | refused => exact absurd hending hrefused
      | corrupt => exact absurd hending hcorrupt
    obtain ⟨hflatten, hlength, hratio⟩ :=
      decodeChunks_ok hchunks (Nat.zero_le maximum) fun _ => Nat.zero_le _
    have hother : reference.compression ≠ .none := by simp [hcompression]
    exact ⟨fun hnone => absurd hnone hother, fun _ => ⟨hintact, hflatten, hratio⟩, hlength⟩

theorem verifyBlob_ok : verifyBlob codec reference raw = .ok () ↔
    raw.length = reference.sizeBytes ∧ codec.sha256 raw = reference.digest := by
  unfold verifyBlob
  simp only [bind_ok, raiseIf_ok, exists_const, ne_eq, not_not]

/-! Reading, verifying and decoding find no conflicting bytes. -/

section Conflicts

variable {lib : TextLibrary} {settings : Settings} {answers : ℕ → Answer} {expected : Text}

theorem requestFor_ne_conflict {answer : Answer} {current : Text} :
    requestFor lib settings answer current ≠ .error (.configuration conflict) := by
  intro h
  unfold requestFor at h
  simp [bind_error, raiseIf_error, require_error, pure, Except.pure, conflict] at h

theorem redirected_ne_conflict {redirect : ℕ} {current : Text} {response : Response} :
    redirected lib settings expected redirect current response ≠
      .error (.configuration conflict) := by
  intro h
  unfold redirected at h
  simp [bind_error, raiseIf_error, require_error, pure, Except.pure, conflict] at h

theorem receive_ne_conflict {response : Response} :
    receive settings response ≠ .error (.configuration conflict) := by
  intro h
  unfold receive at h
  simp only [bind_error, raiseIf_error, reduceCtorEq, and_false, false_or] at h
  obtain ⟨-, -, -, -, hchunks⟩ := h
  obtain ⟨before, chunk, -, hchunk⟩ := foldlM_error hchunks
  unfold readChunk at hchunk
  simp [bind_error, raiseIf_error, require_error, pure, Except.pure] at hchunk

theorem turns_ne_conflict (left redirect : ℕ) (current : Text) :
    (turns lib settings answers expected left redirect current).result ≠
      .error (.configuration conflict) := by
  induction left generalizing redirect current with
  | zero => simp [turns]
  | succ left ih =>
    unfold turns
    split
    · rename_i e hrequest
      rintro ⟨⟩
      exact requestFor_ne_conflict hrequest
    · split
      · simp
      · split
        · split
          · rename_i e hredirected
            rintro ⟨⟩
            exact redirected_ne_conflict hredirected
          · exact ih _ _
        · exact receive_ne_conflict

theorem downloadPinned_ne_conflict {url : Text} :
    (downloadPinned lib settings answers url).result ≠ .error (.configuration conflict) := by
  unfold downloadPinned
  split
  · simp
  · split
    · simp [conflict]
    · exact turns_ne_conflict _ _ _

theorem safeLocalPath_ne_conflict {view : PackageView} {relative : Text} :
    safeLocalPath view relative ≠ .error conflictingBytes := by
  intro h
  unfold safeLocalPath at h
  simp only [bind_error, raiseIf_error] at h
  obtain ⟨-, h⟩ | ⟨_, -, h⟩ := h
  · simp [refuseArtifact, conflictingBytes, conflict] at h
  obtain hlinks | ⟨_, -, h⟩ := h
  · obtain ⟨current, -, hlink⟩ := forM_error hlinks
    simp [bind_error, raiseIf_error, require_error, refuseArtifact, conflictingBytes, conflict]
      at hlink
  · simp [pure, Except.pure, refuseArtifact, conflictingBytes, conflict] at h

theorem readStableFile_ne_conflict : readStableFile reading maximum ≠ .error conflictingBytes := by
  intro h
  unfold readStableFile at h
  simp only [bind_error, raiseIf_error, require_error] at h
  obtain ⟨-, h⟩ | ⟨before, -, h⟩ := h
  · simp [cannotRead, refuseArtifact, conflictingBytes, conflict] at h
  obtain ⟨-, h⟩ | ⟨_, -, h⟩ := h
  · simp [refuseArtifact, conflictingBytes, conflict] at h
  obtain hchunks | ⟨_, -, h⟩ := h
  · obtain ⟨before, chunk, -, hchunk⟩ := foldlM_error hchunks
    unfold readFileChunk at hchunk
    simp [bind_error, raiseIf_error, require_error, pure, Except.pure, cannotRead, refuseArtifact,
      conflictingBytes, conflict] at hchunk
  · simp [pure, Except.pure, cannotRead, refuseArtifact, conflictingBytes, conflict] at h

theorem Source.read_ne_conflict : source.read store reference ≠ .error conflictingBytes := by
  intro h
  cases source with
  | resolveLocal view reading =>
    dsimp only [Source.read] at h
    cases hlocation : reference.location with
    | path path =>
      rw [hlocation] at h
      rcases bind_error.mp h with hpath | ⟨resolved, -, hread⟩
      · exact safeLocalPath_ne_conflict hpath
      · exact readStableFile_ne_conflict hread
    | uri uri =>
      rw [hlocation] at h
      simp [refuseArtifact, conflictingBytes, conflict] at h
    | oci oci =>
      rw [hlocation] at h
      simp [refuseArtifact, conflictingBytes, conflict] at h
  | resolveHttps lib allowedHosts allowPrivateNetworks maximumRedirects answers =>
    dsimp only [Source.read] at h
    cases hlocation : reference.location with
    | uri uri =>
      rw [hlocation] at h
      exact downloadPinned_ne_conflict (mapError_error h)
    | path path =>
      rw [hlocation] at h
      simp [refuseArtifact, conflictingBytes, conflict] at h
    | oci oci =>
      rw [hlocation] at h
      simp [refuseArtifact, conflictingBytes, conflict] at h

theorem verifyBlob_ne_conflict : verifyBlob codec reference raw ≠ .error conflictingBytes := by
  intro h
  unfold verifyBlob at h
  simp [bind_error, raiseIf_error, refuseArtifact, conflictingBytes, conflict] at h

theorem decode_ne_conflict : decode codec reference raw maximum ≠ .error conflictingBytes := by
  intro h
  unfold decode at h
  split at h
  · cases h
  · simp only [bind_error, raiseIf_error] at h
    obtain hchunks | ⟨_, -, h⟩ := h
    · obtain ⟨before, chunk, -, hchunk⟩ := foldlM_error hchunks
      unfold decodeChunk at hchunk
      simp [bind_error, raiseIf_error, pure, Except.pure, refuseArtifact, conflictingBytes,
        conflict] at hchunk
    · simp [pure, Except.pure, refuseArtifact, conflictingBytes, conflict] at h

theorem beginResolve_ne_conflict :
    (beginResolve codec store reference source).stage ≠ .finished (.error conflictingBytes) := by
  unfold beginResolve
  split
  · rename_i e hread
    rintro ⟨⟩
    exact Source.read_ne_conflict hread
  · split
    · rename_i e hverify
      rintro ⟨⟩
      exact verifyBlob_ne_conflict hverify
    · simp

end Conflicts

end Reading

/-! ## What the names show -/

section Names

variable {codec : Codec}

/-- The names that `mkstemp` draws begin with a dot. -/
def CasPath.Hidden (p : CasPath) : Prop := p.name.head? = some '.'

/-- A file is named by the digest of its bytes. -/
def Addressed (codec : Codec) (p : CasPath) (content : Bytes) : Prop :=
  p = destination (codec.sha256 content)

theorem temporaryPath_hidden (digest suffix : Text) : (temporaryPath digest suffix).Hidden := rfl

theorem destination_shown (reference : ArtifactReference) :
    ¬ (destination reference.digest).Hidden := by
  intro hhidden
  have hmem : '.' ∈ reference.digest := List.mem_of_mem_head? hhidden
  have hhex := List.all_eq_true.mp reference.digest_hex '.' hmem
  revert hhex
  decide

theorem Addressed.digest {reference : ArtifactReference} {content : Bytes}
    (h : Addressed codec (destination reference.digest) content) :
    codec.sha256 content = reference.digest :=
  (congrArg CasPath.name h).symm

end Names

/-! ## Publication -/

/-- What a call has in hand of the publication of its bytes. -/
def Resolver.work (r : Resolver) : Option (Publication.Work CasPath UInt8) :=
  match r.stage with
  | .writing temporary => some ⟨temporary, r.destination, r.raw, .writing⟩
  | .replacing temporary => some ⟨temporary, r.destination, r.raw, .ready⟩
  | .clearing temporary _ => some ⟨temporary, r.destination, r.raw, .over⟩
  | _ => none

/-- The store as the publication of drafts. -/
def Cas.publication (s : Cas) : Publication.State ℕ CasPath UInt8 where
  disk := s.disk
  work := fun id => (s.resolvers id).bind Resolver.work
  used := {p | p ∈ s.drawn}

/-- Where a call stands, among the files that are shown. -/
inductive Resolver.Standing (codec : Codec) (store : ContentArtifactStore)
    (disk : Disk CasPath UInt8) (r : Resolver) : Prop where
  | refused (source : Source) (e : StoreError)
      (began : beginResolve codec store r.reference source = r)
      (finished : r.stage = .finished (.error e))
  | storing (verified : verifyBlob codec r.reference r.raw = .ok ())
      (length : r.raw.length ≤ store.maximumBytes) (running : ∀ result, r.stage ≠ .finished result)
      (cleared : ∀ temporary result, r.stage = .clearing temporary result →
        result = .error .os ∨ result = .ok () ∧ (disk r.destination).isSome)
  | failed (verified : verifyBlob codec r.reference r.raw = .ok ())
      (finished : r.stage = .finished (.error .os))
  | served (verified : verifyBlob codec r.reference r.raw = .ok ())
      (length : r.raw.length ≤ store.maximumBytes)
      (finished : r.stage = .finished (decode codec r.reference r.raw store.maximumBytes))
      (stored : (disk r.destination).isSome)

structure Cas.Sound (codec : Codec) (store : ContentArtifactStore) (s : Cas) : Prop where
  publication : Publication.Sound CasPath.Hidden (Addressed codec) s.publication
  resolvers : ∀ id, ∀ r ∈ s.resolvers id, r.Standing codec store s.disk

/-- A step of one call, but for a power cut. -/
structure Cas.Moves (codec : Codec) (store : ContentArtifactStore) (id : ℕ) (s s' : Cas) : Prop where
  run : Publication.Run CasPath.Hidden (Addressed codec) s.publication s'.publication
  others : ∀ i ≠ id, s'.resolvers i = s.resolvers i
  standing : ∀ r ∈ s'.resolvers id, r.Standing codec store s'.disk

section Refinement

variable {codec : Codec} {store : ContentArtifactStore} {s s' : Cas} {id : ℕ} {r r' : Resolver}
  {disk disk' : Disk CasPath UInt8} {answer : StepAnswer} {temporary : CasPath}

theorem Resolver.Standing.mono (h : r.Standing codec store disk)
    (hshown : ∀ p, ¬ p.Hidden → (disk p).isSome → (disk' p).isSome) :
    r.Standing codec store disk' := by
  have hdestination := hshown r.destination (destination_shown r.reference)
  cases h with
  | refused source e began finished => exact .refused source e began finished
  | storing verified length running cleared =>
    exact .storing verified length running fun temporary result hstage =>
      (cleared temporary result hstage).imp id (And.imp id hdestination)
  | failed verified finished => exact .failed verified finished
  | served verified length finished stored =>
    exact .served verified length finished (hdestination stored)

theorem Cas.Moves.sound (hmoves : Cas.Moves codec store id s s') (h : s.Sound codec store) :
    s'.Sound codec store := by
  refine ⟨hmoves.run.sound h.publication, fun i r hr => ?_⟩
  by_cases hi : i = id
  · exact hmoves.standing r (hi ▸ hr)
  · rw [hmoves.others i hi] at hr
    exact (h.resolvers i r hr).mono fun p hp => hmoves.run.shown h.publication hp

/-- The work after a call has come to another stage. -/
theorem publication_update (disk : Disk CasPath UInt8) (r : Option Resolver) (drawn : List CasPath) :
    (⟨disk, Function.update s.resolvers id r, drawn⟩ : Cas).publication =
      ⟨disk, Function.update s.publication.work id (r.bind Resolver.work), {p | p ∈ drawn}⟩ := by
  unfold Cas.publication
  congr 1
  funext i
  by_cases h : i = id
  · subst h
    simp only [Function.update_self]
  · simp only [Function.update_of_ne h]

theorem moves_self (h : s.Sound codec store) : Cas.Moves codec store id s s :=
  ⟨.refl, fun _ _ => rfl, h.resolvers id⟩

/-- A call comes to a stage with a step of the publication. -/
theorem moves_update {drawn : List CasPath}
    (hrun : Publication.Run CasPath.Hidden (Addressed codec) s.publication
      ⟨disk, Function.update s.publication.work id r.work, {p | p ∈ drawn}⟩)
    (hstanding : r.Standing codec store disk) :
    Cas.Moves codec store id s ⟨disk, Function.update s.resolvers id (some r), drawn⟩ := by
  refine ⟨?_, fun i hi => Function.update_of_ne hi _ _, fun r' hr' => ?_⟩
  · rw [publication_update]
    exact hrun
  · simp only [Function.update_self] at hr'
    exact Option.some.inj hr' ▸ hstanding

/-- A call comes to a stage that has the same in hand. -/
theorem moves_set (hwork : r.work = s.publication.work id)
    (hstanding : r.Standing codec store s.disk) : Cas.Moves codec store id s (s.set id r) := by
  refine moves_update ?_ hstanding
  rw [hwork, Function.update_eq_self]
  exact .refl

theorem work_of_resolver (hr : s.resolvers id = some r) : s.publication.work id = r.work := by
  show (s.resolvers id).bind Resolver.work = r.work
  rw [hr, Option.bind_some]

theorem Resolver.Standing.storing_of (h : r.Standing codec store disk)
    (hrunning : ∀ result, r.stage ≠ .finished result) :
    verifyBlob codec r.reference r.raw = .ok () ∧ r.raw.length ≤ store.maximumBytes := by
  cases h with
  | refused _ e _ finished => exact absurd finished (hrunning _)
  | storing verified length => exact ⟨verified, length⟩
  | failed _ finished => exact absurd finished (hrunning _)
  | served _ _ finished => exact absurd finished (hrunning _)

theorem Resolver.Standing.cleared_of (h : r.Standing codec store disk)
    {result : Except StoreError Unit} (hstage : r.stage = .clearing temporary result) :
    result = .error .os ∨ result = .ok () ∧ (disk r.destination).isSome := by
  cases h with
  | refused _ e _ finished => cases hstage.symm.trans finished
  | storing _ _ _ cleared => exact cleared temporary result hstage
  | failed _ finished => cases hstage.symm.trans finished
  | served _ _ finished => cases hstage.symm.trans finished

/-- The operating system fails a call. -/
theorem standing_os (hverified : verifyBlob codec r.reference r.raw = .ok ()) :
    (r.finish codec store (.error .os)).Standing codec store disk :=
  .failed hverified rfl

theorem standing_stored (hverified : verifyBlob codec r.reference r.raw = .ok ())
    (hlength : r.raw.length ≤ store.maximumBytes) (hstored : (disk r.destination).isSome) :
    (r.finish codec store (.ok ())).Standing codec store disk :=
  .served hverified hlength rfl hstored

theorem proceed_moves (h : s.Sound codec store) (hr : s.resolvers id = some r)
    (hfresh : temporaryPath r.reference.digest answer.suffix ∉ s.drawn) :
    Cas.Moves codec store id s (s.proceed codec store id r answer) := by
  have hstanding := h.resolvers id r hr
  have hwork := work_of_resolver hr
  unfold Cas.proceed
  cases hstage : r.stage with
  | checking =>
    obtain ⟨hverified, hlength⟩ := hstanding.storing_of (by simp [hstage])
    have hnone : s.publication.work id = none := by simp [hwork, Resolver.work, hstage]
    dsimp only
    split
    · exact moves_set hnone.symm (standing_os hverified)
    · split
      · exact moves_set hnone.symm (.storing hverified hlength (by simp) (by simp))
      · exact moves_set hnone.symm (.storing hverified hlength (by simp) (by simp))
  | comparing =>
    obtain ⟨hverified, hlength⟩ := hstanding.storing_of (by simp [hstage])
    have hnone : s.publication.work id = none := by simp [hwork, Resolver.work, hstage]
    dsimp only
    cases hfile : s.disk r.destination with
    | none => exact moves_set hnone.symm (standing_os hverified)
    | some file =>
      have hdigest : codec.sha256 file.content = r.reference.digest :=
        (h.publication.disk _ (destination_shown r.reference) file hfile).2.digest
      dsimp only
      rw [if_neg (not_not_intro hdigest)]
      split
      · exact moves_set hnone.symm (standing_os hverified)
      · exact moves_set hnone.symm (standing_stored hverified hlength (by simp [hfile]))
  | making =>
    obtain ⟨hverified, hlength⟩ := hstanding.storing_of (by simp [hstage])
    have hnone : s.publication.work id = none := by simp [hwork, Resolver.work, hstage]
    dsimp only
    split
    · exact moves_set hnone.symm (standing_os hverified)
    · split
      · exact moves_self h
      · refine moves_update ?_ (.storing hverified hlength (by simp) (by simp))
        have hdigest : Addressed codec r.destination r.raw :=
          congrArg destination (verifyBlob_ok.mp hverified).2.symm
        have hused : {p | p ∈ temporaryPath r.reference.digest answer.suffix :: s.drawn} =
            insert (temporaryPath r.reference.digest answer.suffix) s.publication.used :=
          Set.ext fun p => List.mem_cons
        rw [hused]
        exact .single (.create id _ _ _ hnone (temporaryPath_hidden _ _) hfresh
          (destination_shown r.reference) hdigest)
  | writing temporary =>
    obtain ⟨hverified, hlength⟩ := hstanding.storing_of (by simp [hstage])
    have hsome : s.publication.work id = some ⟨temporary, r.destination, r.raw, .writing⟩ := by
      simp [hwork, Resolver.work, hstage]
    dsimp only
    split
    · exact moves_update (.single (.abort id _ hsome))
        (.storing hverified hlength (by simp) (by simp))
    · cases answer.written with
      | some n =>
        refine ⟨.single (.write id _ n hsome rfl), fun _ _ => rfl, fun r' hr' => ?_⟩
        obtain rfl := Option.some.inj (hr.symm.trans hr')
        exact .storing hverified hlength (by simp [hstage]) (by simp [hstage])
      | none =>
        exact moves_update (.single (.sync id _ hsome rfl))
          (.storing hverified hlength (by simp) (by simp))
  | replacing temporary =>
    obtain ⟨hverified, hlength⟩ := hstanding.storing_of (by simp [hstage])
    have hsome : s.publication.work id = some ⟨temporary, r.destination, r.raw, .ready⟩ := by
      simp [hwork, Resolver.work, hstage]
    have hdraft : s.disk temporary = some ⟨r.raw, true⟩ := h.publication.ready id _ hsome rfl
    dsimp only
    split
    · exact moves_update (.single (.abort id _ hsome))
        (.storing hverified hlength (by simp) (by simp))
    · refine moves_update (.single (.rename id _ hsome rfl))
        (.storing hverified hlength (by simp) fun _ result hresult => .inr ?_)
      have hstored : s.disk.rename temporary r.destination r.destination = some ⟨r.raw, true⟩ := by
        rw [Disk.rename_apply hdraft, if_pos rfl]
      obtain ⟨-, rfl⟩ := StoreStage.clearing.inj hresult
      exact ⟨rfl, Option.isSome_of_eq_some hstored⟩
  | clearing temporary result =>
    obtain ⟨hverified, hlength⟩ := hstanding.storing_of (by simp [hstage])
    have hsome : s.publication.work id = some ⟨temporary, r.destination, r.raw, .over⟩ := by
      simp [hwork, Resolver.work, hstage]
    dsimp only
    split
    · exact moves_update (.single (.stop id)) (standing_os hverified)
    · refine moves_update (.single (.unlink id _ hsome)) ?_
      rcases hstanding.cleared_of hstage with rfl | ⟨rfl, hstored⟩
      · exact standing_os hverified
      · have hhidden : temporary.Hidden := (h.publication.names id _ hsome).1
        have hne : r.destination ≠ temporary := by
          rintro rfl
          exact destination_shown r.reference hhidden
        refine standing_stored hverified hlength ?_
        show (Function.update s.disk temporary none r.destination).isSome
        rw [Function.update_of_ne hne]
        exact hstored
  | finished result => exact moves_self h

variable (codec store disk) in
theorem beginResolve_standing (reference : ArtifactReference) (source : Source) :
    (beginResolve codec store reference source).Standing codec store disk ∧
      (beginResolve codec store reference source).work = none := by
  cases hread : source.read store reference with
  | error e =>
    have hbegin : beginResolve codec store reference source =
        ⟨reference, source.kind, [], .finished (.error e)⟩ := by
      unfold beginResolve
      rw [hread]
    rw [hbegin]
    exact ⟨.refused source e hbegin rfl, rfl⟩
  | ok raw =>
    cases hverify : verifyBlob codec reference raw with
    | error e =>
      have hbegin : beginResolve codec store reference source =
          ⟨reference, source.kind, raw, .finished (.error e)⟩ := by
        unfold beginResolve
        rw [hread]
        dsimp only
        rw [hverify]
      rw [hbegin]
      exact ⟨.refused source e hbegin rfl, rfl⟩
    | ok _ =>
      have hbegin : beginResolve codec store reference source =
          ⟨reference, source.kind, raw, .checking⟩ := by
        unfold beginResolve
        rw [hread]
        dsimp only
        rw [hverify]
      rw [hbegin]
      exact ⟨.storing hverify (Source.read_length hread) (by simp) (by simp), rfl⟩

theorem step_sound (h : s.Sound codec store) (e : Event) (hfresh : DrawsFresh s e) :
    (s.step codec store e).Sound codec store := by
  unfold Cas.step
  cases e with
  | resolve id reference source =>
    dsimp only
    cases hr : s.resolvers id with
    | some r => exact h
    | none =>
      obtain ⟨hstanding, hwork⟩ :=
        beginResolve_standing codec store s.disk reference source
      have hnone : s.publication.work id = none := by simp [Cas.publication, hr]
      exact (moves_set (hwork.trans hnone.symm) hstanding).sound h
  | proceed id answer =>
    dsimp only
    cases hr : s.resolvers id with
    | none => exact h
    | some r => exact (proceed_moves h hr (hfresh r hr)).sound h
  | kill id =>
    have hrun : Publication.Run CasPath.Hidden (Addressed codec) s.publication
        (⟨s.disk, Function.update s.resolvers id none, s.drawn⟩ : Cas).publication := by
      rw [publication_update]
      exact .single (.stop id)
    have hmoves : Cas.Moves codec store id s
        ⟨s.disk, Function.update s.resolvers id none, s.drawn⟩ := by
      refine ⟨hrun, fun i hi => Function.update_of_ne hi _ _, fun r hr => ?_⟩
      simp only [Function.update_self] at hr
      cases hr
    exact hmoves.sound h
  | powerCut keeps torn =>
    exact ⟨h.publication.cut keeps torn, fun _ _ hr => by cases hr⟩

end Refinement

/-! ## The store -/

/-- A digest names bytes that hash to it; a call answers what the artifact is decoded to, or raises
what reading, verifying or decoding it raised, or `OSError`, and never finds conflicting bytes. -/
structure Cas.Lawful (codec : Codec) (store : ContentArtifactStore) (s : Cas) : Prop where
  files : ∀ p, ¬ p.Hidden → ∀ file ∈ s.disk p, file.synced = true ∧ Addressed codec p file.content
  payloads : ∀ id, ∀ r ∈ s.resolvers id, ∀ payload, r.stage = .finished (.ok payload) →
    r.raw.length = r.reference.sizeBytes ∧ codec.sha256 r.raw = r.reference.digest ∧
    Decoded codec r.reference r.raw store.maximumBytes payload ∧
    ∃ file ∈ s.disk r.destination, codec.sha256 file.content = r.reference.digest
  errors : ∀ id, ∀ r ∈ s.resolvers id, ∀ e, r.stage = .finished (.error e) →
    (∃ source, beginResolve codec store r.reference source = r) ∨
    verifyBlob codec r.reference r.raw = .ok () ∧
      (e = .os ∨ decode codec r.reference r.raw store.maximumBytes = .error e)
  conflicts : ∀ id, ∀ r ∈ s.resolvers id, r.stage ≠ .finished (.error conflictingBytes)

theorem lawful_of_sound {codec : Codec} {store : ContentArtifactStore} {s : Cas}
    (h : s.Sound codec store) : s.Lawful codec store := by
  refine ⟨h.publication.disk, fun id r hr payload hstage => ?_, fun id r hr e hstage => ?_,
    fun id r hr hstage => ?_⟩
  · cases h.resolvers id r hr with
    | refused _ e _ finished => cases hstage.symm.trans finished
    | storing _ _ running => exact absurd hstage (running _)
    | failed _ finished => cases hstage.symm.trans finished
    | served verified length finished stored =>
      obtain ⟨hlength, hdigest⟩ := verifyBlob_ok.mp verified
      obtain ⟨file, hfile⟩ := Option.isSome_iff_exists.mp stored
      have hdecode := StoreStage.finished.inj (finished.symm.trans hstage)
      have haddressed := (h.publication.disk _ (destination_shown r.reference) file hfile).2
      exact ⟨hlength, hdigest, decoded_of_ok length hdecode, file, hfile, haddressed.digest⟩
  · cases h.resolvers id r hr with
    | refused source _ began finished => exact .inl ⟨source, began⟩
    | storing _ _ running => exact absurd hstage (running _)
    | failed verified finished =>
      exact .inr ⟨verified, .inl (Except.error.inj (StoreStage.finished.inj
        (hstage.symm.trans finished)))⟩
    | served verified _ finished _ =>
      exact .inr ⟨verified, .inr (StoreStage.finished.inj (finished.symm.trans hstage))⟩
  · cases h.resolvers id r hr with
    | refused source e began _ => exact beginResolve_ne_conflict (began ▸ hstage)
    | storing _ _ running => exact absurd hstage (running _)
    | failed _ finished => cases hstage.symm.trans finished
    | served _ _ finished _ =>
      exact decode_ne_conflict (StoreStage.finished.inj (finished.symm.trans hstage))

/-- Whatever calls of the store run side by side, and wherever they are killed or the power is cut: a
digest never names anything but bytes that hash to it, and a payload is that of the declared bytes. -/
theorem artifacts_content_addressed (codec : Codec) (store : ContentArtifactStore)
    (disk : Disk CasPath UInt8) (events : List Event)
    (hdisk : disk.Sound CasPath.Hidden (Addressed codec))
    (hfresh : Admissible (Cas.step codec store) DrawsFresh ⟨disk, fun _ => none, []⟩ events) :
    (run (Cas.step codec store) ⟨disk, fun _ => none, []⟩ events).Lawful codec store := by
  have hbegin : (⟨disk, fun _ => none, []⟩ : Cas).Sound codec store := by
    refine ⟨⟨hdisk, ?_, ?_, ?_, ?_⟩, fun _ _ hr => by cases hr⟩
    · exact fun id k hk => by cases hk
    · exact fun id id' k hk => by cases hk
    · exact fun id k hk => by cases hk
    · exact fun id k hk => by cases hk
  have hsound : (run (Cas.step codec store) ⟨disk, fun _ => none, []⟩ events).Sound codec store :=
    run_invariant_of_admissible
      (fun (s : Cas) e (hs : s.Sound codec store) he => step_sound hs e he) hbegin hfresh
  exact lawful_of_sound hsound

/-! A race of two calls for one artifact: the second replaces what the first has stored, the power is
cut, and a third call finds the bytes. -/

def emptyDigest : Text :=
  "e3b0c44298fc1c149afbf4c8996fb92427ae41e4649b934ca495991b7852b855".toList

def emptyObjectDigest : Text :=
  "44136fa355b3678a1146ad16f7e8649e94fb4fc21fe77e8310c060f61caaff8a".toList

/-- `hashlib.sha256` of the two inputs of the race. -/
def raceCodec : Codec where
  sha256 := fun raw => if raw = [123, 125] then emptyObjectDigest else emptyDigest
  gunzip := fun _ => ⟨[], .refused⟩

theorem emptyObjectDigest_length : emptyObjectDigest.length = 64 := by decide

theorem emptyObjectDigest_hex : emptyObjectDigest.all isHexDigit = true := by decide

theorem two_bytes_allowed : 2 ≤ 52428800 := by decide

def emptyObject : ArtifactReference where
  digest := emptyObjectDigest
  mediaType := "application/json".toList
  sizeBytes := 2
  location := .path "evidence/a.json".toList
  compression := .none
  digest_length := emptyObjectDigest_length
  digest_hex := emptyObjectDigest_hex
  size_le := two_bytes_allowed

theorem one_byte_allowed : 1 ≤ 52428800 := by decide

theorem all_bytes_allowed : 52428800 ≤ 52428800 := le_rfl

def raceStore : ContentArtifactStore where
  maximumBytes := 52428800
  positive := one_byte_allowed
  bounded := all_bytes_allowed

def raceSource : Source :=
  .resolveLocal ⟨["package".toList], fun _ => some false, (["package".toList] ++ ·), fun _ => true⟩
    fun _ => ⟨some ⟨true, 2, 0, 7⟩, [some [123], some [125]], some ⟨true, 2, 0, 7⟩⟩

def race : List Event :=
  let go id suffix written := Event.proceed id ⟨false, suffix, written⟩
  [.resolve 0 emptyObject raceSource, .resolve 1 emptyObject raceSource,
    go 0 [] none, go 1 [] none, go 0 ['a'] none, go 1 ['b'] none,
    go 0 ['c'] (some 1), go 1 ['c'] none, go 0 ['c'] none,
    go 0 ['c'] none, go 0 ['c'] none, go 1 ['c'] none, go 1 ['c'] none,
    .powerCut (fun _ => true) (fun _ => []),
    .resolve 2 emptyObject raceSource, go 2 [] none, go 2 [] none]

theorem artifacts_content_addressed_race :
    (run (Cas.step raceCodec raceStore) ⟨fun _ => none, fun _ => none, []⟩ race).Lawful
        raceCodec raceStore ∧
      ∃ r, (run (Cas.step raceCodec raceStore) ⟨fun _ => none, fun _ => none, []⟩
        race).resolvers 2 = some r ∧ r.stage = .finished (.ok [123, 125]) :=
  ⟨artifacts_content_addressed raceCodec raceStore (fun _ => none) race
    (fun _ _ _ hfile => by cases hfile) (by decide +kernel), _, rfl, rfl⟩

end AeepRouter.Artifacts

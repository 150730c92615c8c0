import AeepRouter.Artifacts.Urls
import AeepRouter.Lib.Run
import Mathlib.Data.List.MinMax

/-!
# Downloads of artifacts

`downloadPinned` asks the declared URI and goes along its redirects. Each URL is checked at the head of
the loop and asked at an address that its host resolved to; a redirect is followed where it stays on
the scheme and the host of the declared URI. The port of a redirect is not looked at.
-/

namespace AeepRouter.Artifacts

open Lib

inductive Raised where
  | configuration (message : String)
  | protocol (message : String)
  /-- `ValueError`, of a URL that cannot be parsed. -/
  | value
  /-- What name resolution and the client raise. -/
  | network
  deriving DecidableEq, Repr

/-! ## Answers -/

/-- An address that a name resolved to, as `ipaddress` describes it. -/
structure Address where
  version : ℕ
  value : ℕ
  text : Text
  isGlobal : Bool
  isMulticast : Bool
  isSiteLocal : Bool
  nonempty : text ≠ []
  plain : '@' ∉ text
  deriving DecidableEq

abbrev Bytes := List UInt8

/-- A response; a chunk that is nothing is an error of the stream. -/
structure Response where
  status : ℕ
  location : Option Text
  contentType : Text
  chunks : List (Option Bytes)
  deriving DecidableEq

/-- What comes back in one turn of the loop: the addresses of the host, unless the resolution fails,
and the response, unless sending does. -/
structure Answer where
  addresses : Option (List Address)
  response : Option Response

/-- The arguments of a download, and the limit of the store. -/
structure Settings where
  mediaType : Text
  sizeBytes : ℕ
  allowedHosts : List Text
  allowPrivateNetworks : Bool
  maximumRedirects : ℤ
  maximumBytes : ℕ

structure Request where
  parsed : ParseResult
  address : Address
  port : ℕ
  hostname : Text
  accept : Text
  deriving DecidableEq

def Address.Public (address : Address) : Prop :=
  address.isGlobal = true ∧ address.isMulticast = false ∧ address.isSiteLocal = false

instance (address : Address) : Decidable address.Public :=
  inferInstanceAs (Decidable (_ ∧ _))

/-- `host`, in brackets where it is an IPv6 address. -/
def Address.host (address : Address) : Text :=
  if address.version = 6 then '[' :: address.text ++ [']'] else address.text

/-- The order of addresses by version and number, which has 128 bits. -/
def Address.key (address : Address) : ℕ := address.version * 2 ^ 128 + address.value

def withPort (host : Text) (port : ℕ) : Text :=
  if port = 443 then host else host ++ ':' :: (Nat.toDigits 10 port)

def Request.netloc (request : Request) : Text := withPort request.address.host request.port

/-- The URL at the address. -/
def Request.pinned (request : Request) : ParseResult :=
  { request.parsed with netloc := request.netloc }

/-- The URL that is asked. -/
def Request.url (request : Request) : Text := urlunparse request.pinned

def Request.hostHeader (request : Request) : Text := withPort request.hostname request.port

/-! ## The loop -/

def https : Text := "https".toList

variable (lib : TextLibrary) (s : Settings)

/-- `name.rstrip(".").lower()`. -/
def normalize (name : Text) : Text := lib.lower (name.rdropWhile (· = '.'))

def Settings.normalizedAllowed : List Text := s.allowedHosts.map (normalize lib)

/-- `parsed.port or 443`. -/
def ParseResult.connectPort (p : ParseResult) : Option ℕ :=
  p.port.map fun port => if port.getD 0 = 0 then 443 else port.getD 0

/-- The head of the loop: the request for the current URL. -/
def requestFor (answer : Answer) (current : Text) : Except Raised Request := do
  let parsed ← require (urlparse lib current []) .value
  let hostname := (parsed.hostname lib).map (normalize lib)
  raiseIf (parsed.scheme ≠ https ∨ hostname = none)
    (.configuration "remote artifacts require an absolute HTTPS URI")
  raiseIf (parsed.username.getD [] ≠ [] ∨ parsed.password.getD [] ≠ [])
    (.configuration "artifact URIs cannot contain credentials")
  let hostname := hostname.getD []
  raiseIf (hostname ∉ s.normalizedAllowed lib)
    (.configuration "artifact host is not operator-allowlisted")
  let addresses ← require answer.addresses .network
  let address ← require (addresses.argmin Address.key)
    (.protocol "artifact host resolved to no addresses")
  raiseIf (s.allowPrivateNetworks = false ∧ ∃ address ∈ addresses, ¬ address.Public)
    (.configuration "artifact host resolves to a non-public address")
  let port ← require parsed.connectPort .value
  pure ⟨parsed, address, port, hostname, s.mediaType⟩

def redirectStatuses : List ℕ := [301, 302, 303, 307, 308]

/-- The URL a redirect leads to. -/
def redirected (expected : Text) (redirect : ℕ) (current : Text) (response : Response) :
    Except Raised Text := do
  raiseIf (s.maximumRedirects ≤ redirect) (.protocol "artifact redirect limit exceeded")
  raiseIf (response.location.getD [] = []) (.protocol "artifact redirect is missing Location")
  let next ← require (urljoin lib current (response.location.getD [])) .value
  let target ← require (urlparse lib next []) .value
  raiseIf (target.scheme ≠ https ∨ target.hostname lib ≠ some expected)
    (.configuration "artifact redirects must remain same-origin")
  pure next

/-- The number of bytes that a response may have. -/
def Settings.permitted : ℕ := min s.maximumBytes (s.sizeBytes + 1)

def readChunk (raw : Bytes) (chunk : Option Bytes) : Except Raised Bytes := do
  let chunk ← require chunk .network
  raiseIf (s.permitted < raw.length + chunk.length)
    (.protocol "artifact response exceeds configured limit")
  pure (raw ++ chunk)

/-- The bytes of a response that is no redirect. `raise_for_status` raises unless it is a success. -/
def receive (response : Response) : Except Raised Bytes := do
  raiseIf (¬ (200 ≤ response.status ∧ response.status < 300)) .network
  raiseIf ((partition ';' response.contentType).1 ≠ (partition ';' s.mediaType).1)
    (.protocol "artifact response content type is inconsistent")
  response.chunks.foldlM (readChunk s) []

/-- The requests that are sent, and what is returned. -/
structure Outcome where
  requests : List Request
  result : Except Raised Bytes

/-- The turns of the loop from one on, of which so many are left. -/
def turns (answers : ℕ → Answer) (expected : Text) : ℕ → ℕ → Text → Outcome
  | 0, _, _ => ⟨[], .error (.protocol "artifact could not be resolved")⟩
  | left + 1, redirect, current =>
    match requestFor lib s (answers redirect) current with
    | .error e => ⟨[], .error e⟩
    | .ok request =>
      match (answers redirect).response with
      | none => ⟨[request], .error .network⟩
      | some response =>
        if response.status ∈ redirectStatuses then
          match redirected lib s expected redirect current response with
          | .error e => ⟨[request], .error e⟩
          | .ok next =>
            let later := turns answers expected left (redirect + 1) next
            ⟨request :: later.requests, later.result⟩
        else ⟨[request], receive s response⟩

def downloadPinned (answers : ℕ → Answer) (url : Text) : Outcome :=
  match urlparse lib url [] with
  | none => ⟨[], .error .value⟩
  | some declared =>
    match declared.hostname lib with
    | none => ⟨[], .error (.configuration "artifact URI requires a hostname")⟩
    | some expected => turns lib s answers expected (s.maximumRedirects + 1).toNat 0 url

/-! ## What is promised of a download -/

/-- The port of a URL, 443 where it has none. -/
def ParseResult.originPort (p : ParseResult) : Option ℕ := p.port.map (·.getD 443)

/-- The request of a turn goes over HTTPS, without credentials, to a proper address of a host that is
allowed, and to the origin that is declared. -/
structure Proper (answers : ℕ → Answer) (declared : ParseResult) (turn : ℕ) (request : Request) :
    Prop where
  https : ∃ tail, request.url = https ++ [':', '/', '/'] ++ request.netloc ++ tail ∧
    ∀ c ∈ tail.head?, c = '/' ∨ c = '?' ∨ c = '#'
  plain : '@' ∉ request.netloc
  address : ∃ addresses ∈ (answers turn).addresses, request.address ∈ addresses
  isPublic : s.allowPrivateNetworks = true ∨ request.address.Public
  allowed : request.hostname ∈ s.normalizedAllowed lib
  host : (declared.hostname lib).map (normalize lib) = some request.hostname
  port : declared.originPort = some request.port

structure Received (response : Response) (raw : Bytes) : Prop where
  status : response.status ∉ redirectStatuses ∧ response.status / 100 = 2
  mediaType : (partition ';' response.contentType).1 = (partition ';' s.mediaType).1
  bytes : ∃ chunks : List Bytes, response.chunks = chunks.map some ∧ raw = chunks.flatten
  length : raw.length ≤ s.permitted

structure Lawful (answers : ℕ → Answer) (url : Text) (outcome : Outcome) : Prop where
  count : outcome.requests.length ≤ (s.maximumRedirects + 1).toNat
  requests : ∀ turn request, outcome.requests[turn]? = some request →
    ∃ declared ∈ urlparse lib url [], Proper lib s answers declared turn request
  bytes : ∀ raw, outcome.result = .ok raw → ∃ last, outcome.requests.length = last + 1 ∧
    ∃ response ∈ (answers last).response, Received s response raw

/-! ## The URLs that are visited -/

/-- The URL is one that a request is sent for. -/
structure Passes (answer : Answer) (current : Text) (parsed : ParseResult) : Prop where
  parse : urlparse lib current [] = some parsed
  scheme : parsed.scheme = https
  plain : parsed.username.getD [] = [] ∧ parsed.password.getD [] = []
  allowed : ∃ hostname ∈ (parsed.hostname lib).map (normalize lib), hostname ∈ s.normalizedAllowed lib
  resolved : ∃ addresses ∈ answer.addresses, addresses ≠ [] ∧
    (s.allowPrivateNetworks = true ∨ ∀ address ∈ addresses, address.Public)
  port : parsed.connectPort ≠ none

def expectedHost (url : Text) : Option Text := (urlparse lib url []).bind (·.hostname lib)

/-- The response redirects to a URL on the scheme and the host that are declared. -/
structure Redirects (answer : Answer) (expected : Option Text) (turn : ℕ) (current next : Text) :
    Prop where
  room : (turn : ℤ) < s.maximumRedirects
  location : ∃ response ∈ answer.response, response.status ∈ redirectStatuses ∧
    response.location.getD [] ≠ [] ∧ urljoin lib current (response.location.getD []) = some next
  target : ∃ target ∈ urlparse lib next [], target.scheme = https ∧ target.hostname lib = expected

/-- The URL that the loop comes to in its turn. -/
inductive Visited (answers : ℕ → Answer) (url : Text) : ℕ → Text → Prop where
  | declared : 0 ≤ s.maximumRedirects → Visited answers url 0 url
  | redirected {turn : ℕ} {current next : Text} {parsed : ParseResult} :
      Visited answers url turn current → Passes lib s (answers turn) current parsed →
      Redirects lib s (answers turn) (expectedHost lib url) turn current next →
      Visited answers url (turn + 1) next

/-- The declared URI is not on port 0, and no redirect leads to another port. -/
structure KeepsPort (answers : ℕ → Answer) (url : Text) : Prop where
  declared : 0 ≤ s.maximumRedirects →
    ∀ parsed, Passes lib s (answers 0) url parsed → parsed.port ≠ some (some 0)
  redirects : ∀ turn current next parsed target, Visited lib s answers url turn current →
    Passes lib s (answers turn) current parsed →
    Redirects lib s (answers turn) (expectedHost lib url) turn current next →
    Passes lib s (answers (turn + 1)) next target → target.connectPort = parsed.connectPort

/-! ## One turn -/

section Turn

variable {lib s} {answers : ℕ → Answer} {answer : Answer} {current next url expected : Text}
  {parsed declared : ParseResult} {request : Request} {response : Response} {turn : ℕ} {raw : Bytes}

theorem requestFor_ok (h : requestFor lib s answer current = .ok request) :
    Passes lib s answer current request.parsed ∧
      (request.parsed.hostname lib).map (normalize lib) = some request.hostname ∧
      request.hostname ∈ s.normalizedAllowed lib ∧
      (∃ addresses ∈ answer.addresses, request.address ∈ addresses) ∧
      (s.allowPrivateNetworks = true ∨ request.address.Public) ∧
      request.parsed.connectPort = some request.port := by
  unfold requestFor at h
  simp only [bind_ok, pure_ok, require_ok, raiseIf_ok, exists_const, not_or, not_and, not_not,
    ne_eq, not_exists] at h
  obtain ⟨parsed, hparse, ⟨hscheme, hhost⟩, hplain, hallowed, addresses, haddresses, address,
    haddress, hpublic, port, hport, rfl⟩ := h
  obtain ⟨hostname, hhostname⟩ := Option.ne_none_iff_exists'.mp hhost
  rw [hhostname, Option.getD_some] at hallowed
  have hmem := List.argmin_mem haddress
  have hall : s.allowPrivateNetworks = true ∨ ∀ address ∈ addresses, address.Public := by
    by_cases hprivate : s.allowPrivateNetworks = true
    · exact .inl hprivate
    · exact .inr (hpublic (Bool.eq_false_iff.mpr hprivate))
  refine ⟨⟨hparse, hscheme, hplain, ⟨hostname, hhostname, hallowed⟩,
    ⟨addresses, haddresses, List.ne_nil_of_mem hmem, hall⟩, ?_⟩, ?_, ?_,
    ⟨addresses, haddresses, hmem⟩, hall.imp_right fun h => h address hmem, hport⟩
  · rw [hport]
    exact Option.some_ne_none _
  · rw [hhostname]
    rfl
  · rw [hhostname]
    exact hallowed

theorem Passes.requestFor (h : Passes lib s answer current parsed) :
    ∃ request, requestFor lib s answer current = .ok request ∧ request.parsed = parsed := by
  obtain ⟨hostname, hhostname, hallowed⟩ := h.allowed
  obtain ⟨addresses, haddresses, hne, hpublic⟩ := h.resolved
  obtain ⟨port, hport⟩ := Option.ne_none_iff_exists'.mp h.port
  have haddress : addresses.argmin Address.key ≠ none :=
    fun hnone => hne (List.argmin_eq_none.mp hnone)
  obtain ⟨address, haddress⟩ := Option.ne_none_iff_exists'.mp haddress
  have hrefused : ¬ (s.allowPrivateNetworks = false ∧ ∃ address ∈ addresses, ¬ address.Public) := by
    rintro ⟨hprivate, address, hmem, hnot⟩
    rcases hpublic with htrue | hall
    · exact Bool.false_ne_true (hprivate.symm.trans htrue)
    · exact hnot (hall address hmem)
  have hhost : (parsed.hostname lib).map (normalize lib) = some hostname := hhostname
  refine ⟨⟨parsed, address, port, hostname, s.mediaType⟩, ?_, rfl⟩
  unfold Artifacts.requestFor
  simp only [bind_ok, pure_ok, require_ok, raiseIf_ok, exists_const]
  refine ⟨parsed, h.parse, ?_, ?_, ?_, addresses, haddresses, address, haddress, hrefused, port,
    hport, ?_⟩
  · rintro (hscheme | hnone)
    · exact hscheme h.scheme
    · rw [hhost] at hnone
      cases hnone
  · rintro (huser | hpassword)
    · exact huser h.plain.1
    · exact hpassword h.plain.2
  · rw [hhost]
    exact not_not.mpr hallowed
  · rw [hhost]
    rfl

theorem redirects_of_ok (hresponse : answer.response = some response)
    (hstatus : response.status ∈ redirectStatuses)
    (h : redirected lib s expected turn current response = .ok next) :
    Redirects lib s answer (some expected) turn current next := by
  unfold redirected at h
  simp only [bind_ok, pure_ok, require_ok, raiseIf_ok, exists_const, not_or, not_not, not_le,
    ne_eq] at h
  obtain ⟨hroom, hlocation, _, hjoin, target, htarget, ⟨hscheme, hhost⟩, rfl⟩ := h
  exact ⟨hroom, ⟨response, hresponse, hstatus, hlocation, hjoin⟩, ⟨target, htarget, hscheme, hhost⟩⟩

theorem Redirects.ok (h : Redirects lib s answer (some expected) turn current next) :
    ∃ response, answer.response = some response ∧ response.status ∈ redirectStatuses ∧
      redirected lib s expected turn current response = .ok next := by
  obtain ⟨response, hresponse, hstatus, hlocation, hjoin⟩ := h.location
  obtain ⟨target, htarget, hscheme, hhost⟩ := h.target
  refine ⟨response, hresponse, hstatus, ?_⟩
  unfold redirected
  simp only [bind_ok, pure_ok, require_ok, raiseIf_ok, exists_const, not_or, not_not, not_le, ne_eq]
  exact ⟨h.room, hlocation, next, hjoin, target, htarget, ⟨hscheme, hhost⟩, rfl⟩

/-- What is read stays within the limit. -/
theorem readChunks_ok {chunks : List (Option Bytes)} {before : Bytes}
    (hbefore : before.length ≤ s.permitted)
    (h : chunks.foldlM (readChunk s) before = .ok raw) :
    (∃ read : List Bytes, chunks = read.map some ∧ raw = before ++ read.flatten) ∧
      raw.length ≤ s.permitted := by
  induction chunks generalizing before with
  | nil =>
    obtain rfl := pure_ok.mp h
    exact ⟨⟨[], rfl, by simp⟩, hbefore⟩
  | cons chunk chunks ih =>
    rw [List.foldlM_cons] at h
    obtain ⟨_, hchunk, hrest⟩ := bind_ok.mp h
    unfold readChunk at hchunk
    simp only [bind_ok, pure_ok, require_ok, raiseIf_ok, exists_const, not_lt] at hchunk
    obtain ⟨bytes, rfl, hlimit, rfl⟩ := hchunk
    obtain ⟨⟨read, rfl, rfl⟩, hlength⟩ := ih (by rwa [List.length_append]) hrest
    exact ⟨⟨bytes :: read, rfl, by simp⟩, hlength⟩

theorem received_of_ok (hstatus : response.status ∉ redirectStatuses)
    (h : receive s response = .ok raw) : Received s response raw := by
  unfold receive at h
  simp only [bind_ok, raiseIf_ok, exists_const, not_not, ne_eq] at h
  obtain ⟨⟨hlow, hhigh⟩, htype, hchunks⟩ := h
  obtain ⟨⟨read, hread, rfl⟩, hlength⟩ := readChunks_ok (Nat.zero_le _) hchunks
  exact ⟨⟨hstatus, by omega⟩, htype, ⟨read, hread, rfl⟩, hlength⟩

/-! ## The pinned URL -/

theorem host_ne_nil (address : Address) : address.host ≠ [] := by
  unfold Address.host
  split
  · exact List.cons_ne_nil _ _
  · exact address.nonempty

theorem host_plain (address : Address) : '@' ∉ address.host := by
  unfold Address.host
  split
  · simp [address.plain]
  · exact address.plain

theorem digits_plain (n : ℕ) : '@' ∉ Nat.toDigits 10 n := fun h => by
  have hdigit := Nat.isDigit_of_mem_toDigits (by decide) (by decide) h
  cases hdigit

theorem withPort_ne_nil {host : Text} (h : host ≠ []) (port : ℕ) : withPort host port ≠ [] := by
  unfold withPort
  split
  · exact h
  · exact List.append_ne_nil_of_left_ne_nil h _

theorem withPort_plain {host : Text} (h : '@' ∉ host) (port : ℕ) : '@' ∉ withPort host port := by
  unfold withPort
  split
  · exact h
  · simp [h, digits_plain]

theorem url_of_https (h : request.parsed.scheme = https) :
    ∃ tail, request.url = https ++ [':', '/', '/'] ++ request.netloc ++ tail ∧
      ∀ c ∈ tail.head?, c = '/' ∨ c = '?' ∨ c = '#' := by
  have hpinned : request.pinned.scheme = https := h
  have hscheme : request.pinned.scheme ≠ [] := by
    rw [hpinned]
    decide
  have hnetloc : request.pinned.netloc ≠ [] := withPort_ne_nil (host_ne_nil _) _
  refine ⟨request.pinned.tail, ?_, tail_head request.pinned⟩
  rw [Request.url, urlunparse_of_netloc hscheme hnetloc, hpinned]
  rfl

theorem proper_of_request (h : requestFor lib s (answers turn) current = .ok request)
    (hhost : request.parsed.hostname lib = declared.hostname lib)
    (hport : declared.originPort = some request.port) :
    Proper lib s answers declared turn request := by
  obtain ⟨hpasses, hname, hallowed, haddress, hpublic, -⟩ := requestFor_ok h
  exact ⟨url_of_https hpasses.scheme, withPort_plain (host_plain _) _, haddress, hpublic, hallowed,
    hhost ▸ hname, hport⟩

/-! ## The turns -/

theorem Visited.hostname (h : Visited lib s answers url turn current) :
    (urlparse lib current []).bind (·.hostname lib) = expectedHost lib url := by
  cases h with
  | declared => rfl
  | redirected _ _ hredirects =>
    obtain ⟨target, htarget, -, hhost⟩ := hredirects.target
    rw [htarget]
    exact hhost

variable (lib s answers expected) in
/-- What a turn of the loop does: it fails before its request, ends with it and what is received, or
goes on to the URL it is redirected to. -/
theorem turns_cases (left turn : ℕ) (current : Text) :
    (∃ e, requestFor lib s (answers turn) current = .error e ∧
      turns lib s answers expected (left + 1) turn current = ⟨[], .error e⟩) ∨
    ∃ request, requestFor lib s (answers turn) current = .ok request ∧
      ((∃ result, turns lib s answers expected (left + 1) turn current = ⟨[request], result⟩ ∧
        ∀ raw, result = .ok raw → ∃ response ∈ (answers turn).response, Received s response raw) ∨
      ∃ next, Redirects lib s (answers turn) (some expected) turn current next ∧
        turns lib s answers expected (left + 1) turn current =
          ⟨request :: (turns lib s answers expected left (turn + 1) next).requests,
            (turns lib s answers expected left (turn + 1) next).result⟩) := by
  rw [turns]
  cases hrequest : requestFor lib s (answers turn) current with
  | error e => exact .inl ⟨e, rfl, rfl⟩
  | ok request =>
    refine .inr ⟨request, rfl, ?_⟩
    dsimp only
    cases hresponse : (answers turn).response with
    | none => exact .inl ⟨_, rfl, fun raw h => by cases h⟩
    | some response =>
      dsimp only
      by_cases hstatus : response.status ∈ redirectStatuses
      · rw [if_pos hstatus]
        cases hnext : redirected lib s expected turn current response with
        | error e => exact .inl ⟨_, rfl, fun raw h => by cases h⟩
        | ok next => exact .inr ⟨next, redirects_of_ok hresponse hstatus hnext, rfl⟩
      · rw [if_neg hstatus]
        exact .inl ⟨_, rfl, fun raw h => ⟨response, rfl, received_of_ok hstatus h⟩⟩

theorem turns_of_redirects (left : ℕ) (h : requestFor lib s (answers turn) current = .ok request)
    (hredirects : Redirects lib s (answers turn) (some expected) turn current next) :
    (turns lib s answers expected (left + 1) turn current).requests =
      request :: (turns lib s answers expected left (turn + 1) next).requests := by
  obtain ⟨response, hresponse, hstatus, hnext⟩ := hredirects.ok
  rw [turns, h]
  dsimp only
  rw [hresponse]
  dsimp only
  rw [if_pos hstatus, hnext]

theorem turns_of_request (left : ℕ) (h : requestFor lib s (answers turn) current = .ok request) :
    (turns lib s answers expected (left + 1) turn current).requests[0]? = some request := by
  rcases turns_cases lib s answers expected left turn current with
    ⟨e, herror, -⟩ | ⟨first, hfirst, ⟨result, heq, -⟩ | ⟨next, -, heq⟩⟩
  · exact absurd (h.symm.trans herror) (by simp)
  · obtain rfl := Except.ok.inj (h.symm.trans hfirst)
    rw [heq]
    rfl
  · obtain rfl := Except.ok.inj (h.symm.trans hfirst)
    rw [heq]
    rfl

variable (lib s answers expected) in
theorem turns_length (left turn : ℕ) (current : Text) :
    (turns lib s answers expected left turn current).requests.length ≤ left := by
  induction left generalizing turn current with
  | zero => exact le_rfl
  | succ left ih =>
    rcases turns_cases lib s answers expected left turn current with
      ⟨e, -, heq⟩ | ⟨request, -, ⟨result, heq, -⟩ | ⟨next, -, heq⟩⟩
    · rw [heq]
      exact Nat.zero_le _
    · rw [heq]
      exact Nat.succ_le_succ (Nat.zero_le _)
    · rw [heq]
      exact Nat.succ_le_succ (ih _ _)

theorem turns_result (left turn : ℕ) (current : Text)
    (h : (turns lib s answers expected left turn current).result = .ok raw) :
    ∃ last, (turns lib s answers expected left turn current).requests.length = last + 1 ∧
      ∃ response ∈ (answers (turn + last)).response, Received s response raw := by
  induction left generalizing turn current with
  | zero => cases h
  | succ left ih =>
    rcases turns_cases lib s answers expected left turn current with
      ⟨e, -, heq⟩ | ⟨request, -, ⟨result, heq, hreceived⟩ | ⟨next, -, heq⟩⟩
    · rw [heq] at h
      cases h
    · rw [heq] at h ⊢
      exact ⟨0, rfl, hreceived raw h⟩
    · rw [heq] at h ⊢
      obtain ⟨last, hlast, response, hresponse, hreceived⟩ := ih _ _ h
      rw [Nat.add_right_comm, Nat.add_assoc] at hresponse
      exact ⟨last + 1, congrArg (· + 1) hlast, response, hresponse, hreceived⟩

theorem turns_requests (hexpected : expectedHost lib url = some expected) (left turn : ℕ)
    (current : Text) (hvisited : Visited lib s answers url turn current) (i : ℕ)
    (h : (turns lib s answers expected left turn current).requests[i]? = some request) :
    ∃ visited, Visited lib s answers url (turn + i) visited ∧
      requestFor lib s (answers (turn + i)) visited = .ok request := by
  induction left generalizing turn current i with
  | zero => cases h
  | succ left ih =>
    rcases turns_cases lib s answers expected left turn current with
      ⟨e, -, heq⟩ | ⟨first, hfirst, ⟨result, heq, -⟩ | ⟨next, hredirects, heq⟩⟩
    · rw [heq] at h
      cases h
    · rw [heq] at h
      cases i with
      | zero =>
        obtain rfl := Option.some.inj h
        exact ⟨current, hvisited, hfirst⟩
      | succ i => cases h
    · rw [heq] at h
      cases i with
      | zero =>
        obtain rfl := Option.some.inj h
        exact ⟨current, hvisited, hfirst⟩
      | succ i =>
        have hnext : Visited lib s answers url (turn + 1) next :=
          .redirected hvisited (requestFor_ok hfirst).1 (hexpected ▸ hredirects)
        obtain ⟨visited, hmem, hrequest⟩ := ih _ _ hnext i h
        rw [Nat.add_right_comm, Nat.add_assoc] at hmem hrequest
        exact ⟨visited, hmem, hrequest⟩

theorem drop_turns (hexpected : expectedHost lib url = some expected)
    (hvisited : Visited lib s answers url turn current) :
    ∃ left, (turns lib s answers expected (s.maximumRedirects + 1).toNat 0 url).requests.drop turn =
      (turns lib s answers expected (left + 1) turn current).requests ∧
      (turn + left : ℤ) = s.maximumRedirects := by
  induction hvisited with
  | declared hroom =>
    refine ⟨s.maximumRedirects.toNat, ?_, by omega⟩
    rw [List.drop_zero, show (s.maximumRedirects + 1).toNat = s.maximumRedirects.toNat + 1 by omega]
  | redirected hvisited hpasses hredirects ih =>
    rename_i turn current next parsed
    obtain ⟨left, hdrop, hleft⟩ := ih
    obtain ⟨request, hrequest, -⟩ := hpasses.requestFor
    have hroom := hredirects.room
    obtain ⟨left, rfl⟩ : ∃ more, left = more + 1 := ⟨left - 1, by omega⟩
    refine ⟨left, ?_, by push_cast at hleft ⊢; omega⟩
    rw [← List.tail_drop, hdrop, turns_of_redirects _ hrequest (hexpected ▸ hredirects)]
    rfl

/-! ## Downloads -/

theorem download_eq (hexpected : expectedHost lib url = some expected) :
    downloadPinned lib s answers url =
      turns lib s answers expected (s.maximumRedirects + 1).toNat 0 url := by
  obtain ⟨declared, hparse, hhost⟩ := Option.bind_eq_some_iff.mp hexpected
  rw [downloadPinned, hparse]
  dsimp only
  rw [hhost]

variable (s answers) in
theorem download_none (hexpected : expectedHost lib url = none) :
    ∃ e, downloadPinned lib s answers url = ⟨[], .error e⟩ := by
  unfold downloadPinned
  cases hparse : urlparse lib url [] with
  | none => exact ⟨_, rfl⟩
  | some declared =>
    have hhost : declared.hostname lib = none := by
      rwa [expectedHost, hparse] at hexpected
    dsimp only
    rw [hhost]
    exact ⟨_, rfl⟩

theorem exists_request (hvisited : Visited lib s answers url turn current)
    (hpasses : Passes lib s (answers turn) current parsed) :
    ∃ request, (downloadPinned lib s answers url).requests[turn]? = some request ∧
      parsed.connectPort = some request.port := by
  obtain ⟨request, hrequest, rfl⟩ := hpasses.requestFor
  obtain ⟨hostname, hhostname, -⟩ := hpasses.allowed
  obtain ⟨name, hname, -⟩ := Option.map_eq_some_iff.mp hhostname
  have hexpected : expectedHost lib url = some name := by
    rw [← hvisited.hostname, hpasses.parse]
    exact hname
  obtain ⟨left, hdrop, -⟩ := drop_turns hexpected hvisited
  refine ⟨request, ?_, (requestFor_ok hrequest).2.2.2.2.2⟩
  rw [download_eq hexpected, ← Nat.add_zero turn, ← List.getElem?_drop, hdrop]
  exact turns_of_request left hrequest

theorem originPort_iff {p : ParseResult} {port : ℕ} (h : p.connectPort = some port) :
    p.originPort = some port ↔ p.port ≠ some (some 0) := by
  unfold ParseResult.connectPort at h
  unfold ParseResult.originPort
  obtain ⟨stated, hstated, hport⟩ := Option.map_eq_some_iff.mp h
  rw [hstated]
  cases stated with
  | none =>
    rw [← hport]
    simp
  | some n =>
    by_cases hzero : n = 0
    · rw [← hport, hzero]
      simp
    · rw [← hport]
      simp [hzero]

theorem KeepsPort.origin (h : KeepsPort lib s answers url) (hdeclared : declared ∈ urlparse lib url [])
    (hvisited : Visited lib s answers url turn current)
    (hpasses : Passes lib s (answers turn) current parsed) :
    declared.originPort = parsed.connectPort := by
  induction hvisited generalizing parsed with
  | declared hroom =>
    obtain rfl := Option.some.inj (hdeclared.symm.trans hpasses.parse)
    obtain ⟨port, hport⟩ := Option.ne_none_iff_exists'.mp hpasses.port
    rw [hport, originPort_iff hport]
    exact h.declared hroom _ hpasses
  | redirected hvisited hbefore hredirects ih =>
    rw [ih hbefore, h.redirects _ _ _ _ _ hvisited hbefore hredirects hpasses]

end Turn

/-- A download keeps what is promised of it exactly when the declared URI is not on port 0 and no
redirect that is followed leads to another port. -/
theorem download_pinned_iff (answers : ℕ → Answer) (url : Text) :
    Lawful lib s answers url (downloadPinned lib s answers url) ↔ KeepsPort lib s answers url := by
  constructor
  · intro h
    have hport {turn : ℕ} {current : Text} {parsed : ParseResult}
        (hvisited : Visited lib s answers url turn current)
        (hpasses : Passes lib s (answers turn) current parsed) :
        ∃ declared ∈ urlparse lib url [], declared.originPort = parsed.connectPort := by
      obtain ⟨request, hrequest, hconnect⟩ := exists_request hvisited hpasses
      obtain ⟨declared, hdeclared, hproper⟩ := h.requests turn request hrequest
      exact ⟨declared, hdeclared, hproper.port.trans hconnect.symm⟩
    constructor
    · intro hroom parsed hpasses
      obtain ⟨declared, hdeclared, horigin⟩ := hport (.declared hroom) hpasses
      obtain rfl := Option.some.inj (hdeclared.symm.trans hpasses.parse)
      obtain ⟨port, hconnect⟩ := Option.ne_none_iff_exists'.mp hpasses.port
      exact (originPort_iff hconnect).mp (horigin.trans hconnect)
    · intro turn current next parsed target hvisited hpasses hredirects htarget
      obtain ⟨declared, hdeclared, hbefore⟩ := hport hvisited hpasses
      obtain ⟨declared', hdeclared', hafter⟩ :=
        hport (.redirected hvisited hpasses hredirects) htarget
      obtain rfl := Option.some.inj (hdeclared.symm.trans hdeclared')
      exact hafter.symm.trans hbefore
  · intro h
    cases hexpected : expectedHost lib url with
    | none =>
      obtain ⟨e, heq⟩ := download_none s answers hexpected
      rw [heq]
      refine ⟨Nat.zero_le _, fun turn request hrequest => ?_, fun raw hraw => ?_⟩
      · cases hrequest
      · cases hraw
    | some expected =>
      rw [download_eq hexpected]
      refine ⟨turns_length _ _ _ _ _ _ _, fun turn request hrequest => ?_, fun raw hraw => ?_⟩
      · obtain ⟨declared, hdeclared, hhost⟩ := Option.bind_eq_some_iff.mp hexpected
        have hroom : 0 ≤ s.maximumRedirects := by
          have hlength := turns_length lib s answers expected
            (s.maximumRedirects + 1).toNat 0 url
          have hturn := (List.getElem?_eq_some_iff.mp hrequest).1
          omega
        obtain ⟨visited, hvisited, hsent⟩ :=
          turns_requests hexpected _ 0 url (.declared hroom) turn hrequest
        rw [Nat.zero_add] at hvisited hsent
        obtain ⟨hpasses, -, -, -, -, hconnect⟩ := requestFor_ok hsent
        have hname : request.parsed.hostname lib = declared.hostname lib := by
          have hvisitedHost := hvisited.hostname
          rw [hpasses.parse, hexpected, ← hhost] at hvisitedHost
          exact hvisitedHost
        refine ⟨declared, hdeclared, proper_of_request hsent hname ?_⟩
        rw [h.origin hdeclared hvisited hpasses, hconnect]
      · obtain ⟨last, hlast, response, hresponse, hreceived⟩ := turns_result _ _ _ hraw
        rw [Nat.zero_add] at hresponse
        exact ⟨last, hlast, response, hresponse, hreceived⟩

/-! ## A redirect to another port -/

def asciiLibrary : TextLibrary where
  nfkc := id
  lower := List.map Char.toLower
  isBracketedHost := fun _ => false

theorem documentation_nonempty : "93.184.216.34".toList ≠ [] := by decide

theorem documentation_plain : '@' ∉ "93.184.216.34".toList := by decide

def publicAddress : Address where
  version := 4
  value := 1572395042
  text := "93.184.216.34".toList
  isGlobal := true
  isMulticast := false
  isSiteLocal := false
  nonempty := documentation_nonempty
  plain := documentation_plain

def evidenceSettings : Settings where
  mediaType := "application/json".toList
  sizeBytes := 2
  allowedHosts := ["evidence.test".toList]
  allowPrivateNetworks := false
  maximumRedirects := 2
  maximumBytes := 100

/-- A redirect to port 8443 of the host, and the artifact. -/
def movedAnswers : ℕ → Answer
  | 0 => ⟨some [publicAddress], some ⟨302, some "https://evidence.test:8443/a".toList, [], []⟩⟩
  | _ => ⟨some [publicAddress],
      some ⟨200, none, "application/json".toList, [some [123, 125]]⟩⟩

def declaredUri : Text := "https://evidence.test/a".toList

theorem moved_ports :
    (downloadPinned asciiLibrary evidenceSettings movedAnswers declaredUri).requests.map (·.port) =
        [443, 8443] ∧
      (urlparse asciiLibrary declaredUri []).map (·.originPort) = some (some 443) := by
  decide +kernel

/-- The second request goes to another port than the declared one. -/
theorem redirect_changes_port :
    ¬ Lawful asciiLibrary evidenceSettings movedAnswers declaredUri
      (downloadPinned asciiLibrary evidenceSettings movedAnswers declaredUri) := by
  intro h
  obtain ⟨hports, horigin⟩ := moved_ports
  have hsecond : ((downloadPinned asciiLibrary evidenceSettings movedAnswers
      declaredUri).requests.map (·.port))[1]? = some 8443 := by
    rw [hports]
    rfl
  rw [List.getElem?_map] at hsecond
  obtain ⟨request, hrequest, hport⟩ := Option.map_eq_some_iff.mp hsecond
  obtain ⟨declared, hdeclared, hproper⟩ := h.requests 1 request hrequest
  rw [Option.mem_def.mp hdeclared, Option.map_some, hproper.port, hport] at horigin
  exact absurd horigin (by decide)

end AeepRouter.Artifacts

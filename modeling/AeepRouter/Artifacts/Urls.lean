import AeepRouter.Lib.Numeral
import Mathlib.Data.List.DropRight

/-!
# URLs

The part of `urllib.parse` that downloads use: a text is taken apart into the components of a URL, the
network location into user, host and port, and a reference is joined to the URL it stands in. What is
nothing here raises `ValueError` there.
-/

namespace AeepRouter.Artifacts

open Lib

abbrev Text := List Char

/-- The host's functions on texts that are not ASCII only, and on addresses in brackets. -/
structure TextLibrary where
  nfkc : Text → Text
  lower : Text → Text
  isBracketedHost : Text → Bool

/-! ## Texts -/

def partition (c : Char) (text : Text) : Text × Bool × Text :=
  (text.takeWhile (· ≠ c), text.contains c, (text.dropWhile (· ≠ c)).tail)

def rpartition (c : Char) (text : Text) : Text × Bool × Text :=
  ((text.rdropWhile (· ≠ c)).dropLast, text.contains c, text.rtakeWhile (· ≠ c))

def isAscii (text : Text) : Bool := text.all fun c => c.toNat < 128

/-- `_WHATWG_C0_CONTROL_OR_SPACE`. -/
def isControlOrSpace (c : Char) : Bool := c.toNat ≤ 32

/-- `_UNSAFE_URL_BYTES_TO_REMOVE`. -/
def isUnsafe (c : Char) : Bool := c = '\t' ∨ c = '\r' ∨ c = '\n'

def isSchemeChar (c : Char) : Bool := c.isAlphanum ∨ c = '+' ∨ c = '-' ∨ c = '.'

def usesRelative : List String :=
  ["", "ftp", "http", "gopher", "nntp", "imap", "wais", "file", "https", "shttp", "mms", "prospero",
    "rtsp", "rtsps", "rtspu", "sftp", "svn", "svn+ssh", "ws", "wss"]

def usesNetloc : List String :=
  ["", "ftp", "http", "gopher", "nntp", "telnet", "imap", "wais", "file", "mms", "https", "shttp",
    "snews", "prospero", "rtsp", "rtsps", "rtspu", "rsync", "svn", "svn+ssh", "sftp", "nfs", "git",
    "git+ssh", "ws", "wss", "itms-services"]

def usesParams : List String :=
  ["", "ftp", "hdl", "prospero", "http", "imap", "https", "shttp", "rtsp", "rtsps", "rtspu", "sip",
    "sips", "mms", "sftp", "tel"]

/-! ## Parsing -/

structure ParseResult where
  scheme : Text
  netloc : Text
  path : Text
  params : Text
  query : Text
  fragment : Text
  deriving DecidableEq, Repr

def splitScheme (scheme text : Text) : Text × Text :=
  let (name, found, rest) := partition ':' text
  if found && name.head?.any Char.isAlpha && name.all isSchemeChar then
    (name.map Char.toLower, rest)
  else (scheme, text)

/-- `_splitnetloc`, after the two slashes. -/
def splitNetloc (text : Text) : Text × Text :=
  text.span fun c => c ≠ '/' ∧ c ≠ '?' ∧ c ≠ '#'

def splitParams (path : Text) : Text × Text :=
  let (name, _, params) := partition ';' (path.rtakeWhile (· ≠ '/'))
  (path.rdropWhile (· ≠ '/') ++ name, params)

variable (lib : TextLibrary)

/-- `_checknetloc`: no character becomes a delimiter when it is normalized. -/
def checkNetloc (netloc : Text) : Bool :=
  let plain := netloc.filter fun c => c ≠ '@' ∧ c ≠ ':' ∧ c ≠ '#' ∧ c ≠ '?'
  isAscii netloc || lib.nfkc plain = plain ||
    (lib.nfkc plain).all fun c => c ≠ '/' ∧ c ≠ '?' ∧ c ≠ '#' ∧ c ≠ '@' ∧ c ≠ ':'

/-- Brackets come in pairs, around the address of a host. -/
def checkBrackets (netloc : Text) : Bool :=
  if netloc.contains '[' && netloc.contains ']' then
    lib.isBracketedHost (partition ']' (partition '[' netloc).2.2).1
  else !netloc.contains '[' && !netloc.contains ']'

def urlparse (url scheme : Text) : Option ParseResult :=
  let url := (url.dropWhile isControlOrSpace).filter fun c => !isUnsafe c
  let (scheme, url) := splitScheme scheme url
  let (netloc, url) := if ['/', '/'] <+: url then splitNetloc (url.drop 2) else ([], url)
  let (url, _, fragment) := partition '#' url
  let (path, _, query) := partition '?' url
  if checkBrackets lib netloc && checkNetloc lib netloc then
    let (path, params) :=
      if String.ofList scheme ∈ usesParams ∧ ';' ∈ path then splitParams path else (path, [])
    some ⟨scheme, netloc, path, params, query, fragment⟩
  else none

namespace ParseResult

def userinfo (p : ParseResult) : Option (Text × Option Text) :=
  let (userinfo, haveInfo, _) := rpartition '@' p.netloc
  let (username, havePassword, password) := partition ':' userinfo
  if haveInfo then some (username, if havePassword then some password else none) else none

def username (p : ParseResult) : Option Text := p.userinfo.map Prod.fst

def password (p : ParseResult) : Option Text := p.userinfo.bind Prod.snd

/-- `_hostinfo`: host and port, which are empty where there is none. -/
def hostinfo (p : ParseResult) : Text × Text :=
  let (_, _, hostinfo) := rpartition '@' p.netloc
  let (_, haveOpen, bracketed) := partition '[' hostinfo
  if haveOpen then
    let (hostname, _, port) := partition ']' bracketed
    (hostname, (partition ':' port).2.2)
  else
    let (hostname, _, port) := partition ':' hostinfo
    (hostname, port)

/-- `hostname`, in lower case but for the zone of an address. -/
def hostname (p : ParseResult) : Option Text :=
  let (name, percent, zone) := partition '%' p.hostinfo.1
  if p.hostinfo.1 = [] then none
  else some (lib.lower name ++ if percent then '%' :: zone else [])

/-- `port`: nothing where it raises. -/
def port (p : ParseResult) : Option (Option ℕ) :=
  match p.hostinfo.2 with
  | [] => some none
  | text =>
    if text.all Char.isDigit ∧ Numeral.textValue text ≤ 65535 then
      some (some (Numeral.textValue text))
    else none

end ParseResult

/-! ## Joining -/

/-- The path, parameters, query and fragment, as they follow a network location. -/
def ParseResult.tail (p : ParseResult) : Text :=
  let path := if p.params = [] then p.path else p.path ++ ';' :: p.params
  let path := if path = [] ∨ path.head? = some '/' then path else '/' :: path
  path ++ (if p.query = [] then [] else '?' :: p.query) ++
    if p.fragment = [] then [] else '#' :: p.fragment

def urlunparse (p : ParseResult) : Text :=
  let path := if p.params = [] then p.path else p.path ++ ';' :: p.params
  let scheme := if p.scheme = [] then [] else p.scheme ++ [':']
  if p.netloc ≠ [] ∨ (p.scheme ≠ [] ∧ String.ofList p.scheme ∈ usesNetloc ∧ ¬ ['/', '/'] <+: path) then
    scheme ++ ['/', '/'] ++ p.netloc ++ p.tail
  else
    scheme ++ path ++ (if p.query = [] then [] else '?' :: p.query) ++
      if p.fragment = [] then [] else '#' :: p.fragment

/-- The segments without the empty ones between the first and the last. -/
def filterSegments (segments : List Text) : List Text :=
  match segments with
  | [] => []
  | first :: rest => first :: (rest.dropLast.filter (· ≠ []) ++ rest.getLast?.toList)

/-- The path without its dots. -/
def resolveDots (segments : List Text) : List Text :=
  let resolved := segments.foldl (fun resolved segment =>
    if segment = ['.', '.'] then resolved.dropLast
    else if segment = ['.'] then resolved
    else resolved ++ [segment]) []
  if segments.getLast? = some ['.'] ∨ segments.getLast? = some ['.', '.'] then resolved ++ [[]]
  else resolved

def joinPath (base path : Text) : Text :=
  let parts := base.splitOn '/'
  let parts := if parts.getLast? = some [] then parts else parts.dropLast
  let segments :=
    if path.head? = some '/' then path.splitOn '/' else filterSegments (parts ++ path.splitOn '/')
  match List.intercalate ['/'] (resolveDots segments) with
  | [] => ['/']
  | joined => joined

/-- `urljoin(base, url)`, for a URL that is not empty. -/
def urljoin (base url : Text) : Option Text := do
  let b ← urlparse lib base []
  let p ← urlparse lib url b.scheme
  if p.scheme ≠ b.scheme ∨ String.ofList p.scheme ∉ usesRelative then
    return url
  if String.ofList p.scheme ∈ usesNetloc ∧ p.netloc ≠ [] then
    return urlunparse p
  let netloc := if String.ofList p.scheme ∈ usesNetloc then b.netloc else p.netloc
  if p.path = [] ∧ p.params = [] then
    return urlunparse { p with
      netloc
      path := b.path
      params := b.params
      query := if p.query = [] then b.query else p.query }
  return urlunparse { p with
    netloc
    path := joinPath b.path p.path }

/-! ## The text of a URL -/

theorem tail_head (p : ParseResult) : ∀ c ∈ p.tail.head?, c = '/' ∨ c = '?' ∨ c = '#' := by
  intro c hc
  unfold ParseResult.tail at hc
  generalize (if p.params = [] then p.path else p.path ++ ';' :: p.params) = path at hc
  dsimp only at hc
  cases path with
  | nil =>
    by_cases hquery : p.query = []
    · by_cases hfragment : p.fragment = []
      · simp [hquery, hfragment] at hc
      · simp [hquery, hfragment] at hc
        exact .inr (.inr hc.symm)
    · simp [hquery] at hc
      exact .inr (.inl hc.symm)
  | cons first rest =>
    by_cases hslash : first = '/'
    · simp [hslash] at hc
      exact .inl hc.symm
    · simp [hslash] at hc
      exact .inl hc.symm

/-- A URL with a network location begins with its scheme and that location. -/
theorem urlunparse_of_netloc {p : ParseResult} (hscheme : p.scheme ≠ []) (hnetloc : p.netloc ≠ []) :
    urlunparse p = p.scheme ++ [':', '/', '/'] ++ p.netloc ++ p.tail := by
  unfold urlunparse
  dsimp only
  rw [if_pos (.inl hnetloc), if_neg hscheme]
  simp

end AeepRouter.Artifacts

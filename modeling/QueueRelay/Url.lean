import QueueRelay.Url.Host
import QueueRelay.Url.Path
/-!
URLs, read by the rules of the URL standard without a base.

A URL is kept in its parts, each in its written form, so that writing it puts the parts
together with their marks and nothing else.  The schemes of the web have rules of their
own for hosts, slashes and default ports; every other scheme is read plainly.
-/
namespace QueueRelay

/-- Who a URL addresses, and as whom. -/
structure Url.Authority where
  /-- User name in its written form. -/
  username : List Char
  /-- Password in its written form, never empty. -/
  password : Option (List Char)
  /-- The host. -/
  host : Url.Host
  /-- Port, unless it is the scheme's own. -/
  port : Option Nat
deriving DecidableEq

/-- A URL in its parts. -/
structure Url where
  /-- Scheme in lower case. -/
  scheme : List Char
  /-- What stands after two slashes, if there are two. -/
  authority : Option Url.Authority
  /-- Path in its written form. -/
  path : List Char
  /-- Query in its written form. -/
  query : Option (List Char)
  /-- Fragment in its written form. -/
  fragment : Option (List Char)
deriving DecidableEq

namespace Url

/-! ### Schemes -/

/-- How a scheme wants its URLs to be read. -/
inductive SchemeKind where
  | file
  | web
  | plain
deriving DecidableEq

/-- The rules for a scheme. -/
def schemeKind (scheme : String) : SchemeKind :=
  if scheme == "file" then .file
  else if ["http", "https", "ws", "wss", "ftp"].contains scheme then .web
  else .plain

/-- The port that is not written. -/
def defaultPort (scheme : String) : Option Nat :=
  if scheme == "http" || scheme == "ws" then some 80
  else if scheme == "https" || scheme == "wss" then some 443
  else if scheme == "ftp" then some 21
  else none

/-- The scheme in lower case and the text after its colon. -/
def splitScheme (s : List Char) : Option (List Char × List Char) :=
  let isMember (c : Char) : Bool := c.isAlphanum || c == '+' || c == '-' || c == '.'
  match s with
  | c :: _ =>
    if c.isAlpha then
      match s.dropWhile isMember with
      | ':' :: rest => some ((s.takeWhile isMember).map Char.toLower, rest)
      | _ => none
    else none
  | [] => none

/-! ### Authority -/

/-- The text before the last `@` and the text after it. -/
def splitLastAt (s : List Char) : Option (List Char × List Char) :=
  let after := s.reverse.takeWhile (· != '@')
  if after.length = s.length then none
  else some (s.take (s.length - after.length - 1), after.reverse)

/-- User name and password; an empty password is none. -/
def readUserinfo (s : List Char) : List Char × Option (List Char) :=
  let username := s.takeWhile (· != ':')
  let password := (s.dropWhile (· != ':')).drop 1
  (encode inUserinfoSet username,
    if password.isEmpty then none else some (encode inUserinfoSet password))

/-- The host text, up to a colon outside brackets, and the text after it. -/
def splitHost : Bool → List Char → List Char × List Char
  | _, [] => ([], [])
  | inside, c :: rest =>
    if c = ':' ∧ inside = false then ([], c :: rest)
    else
      let inside := if c = '[' then true else if c = ']' then false else inside
      let (host, after) := splitHost inside rest
      (c :: host, after)

/-- The number in front of a port text, at most 65535, and the text after it. -/
def readPort (s : List Char) : Except UrlError (Option Nat × List Char) :=
  let digits := s.takeWhile Char.isDigit
  let rest := s.dropWhile Char.isDigit
  let n := digits.foldl (fun n c => n * 10 + (c.toNat - 48)) 0
  if 65535 < n then .error .badPort
  else if rest.isEmpty || rest.head? = some '\\' then
    .ok (if digits.isEmpty then none else some n, rest)
  else .error .badPort

/-- Reads the text between the slashes and the path.  What is left over belongs to the
path. -/
def readAuthority (kind : SchemeKind) (scheme : String) (s : List Char) :
    Except UrlError (Authority × List Char) := do
  let (userinfo, rest) := match splitLastAt s with
    | some (before, after) => (some before, after)
    | none => (none, s)
  let (username, password) := readUserinfo (userinfo.getD [])
  let (hostText, rest) := splitHost false rest
  if kind = .web && hostText.isEmpty then throw .emptyHost
  let host ← if kind = .plain then opaqueHost hostText else domainHost hostText
  if host.isEmpty && (rest.head? = some ':' || kind = .web) then throw .emptyHost
  let (port, rest) ← match rest with
    | ':' :: rest => readPort rest
    | _ => pure (none, rest)
  let port := if port = defaultPort scheme then none else port
  if host.isEmpty && (!username.isEmpty || password.isSome) then throw .emptyHost
  return (⟨username, password, host, port⟩, rest)

/-- Splits a text before the first character in `stop`. -/
def splitBefore (stop : Char → Bool) (s : List Char) : List Char × List Char :=
  (s.takeWhile (!stop ·), s.dropWhile (!stop ·))

/-! ### Reading -/

/-- The query and the fragment of what stands after a path. -/
def readTail (querySet : Char → Bool) (s : List Char) :
    Option (List Char) × Option (List Char) :=
  let (front, back) := splitBefore (· == '#') s
  (match front with
    | '?' :: query => some (encode querySet query)
    | _ => none,
   match back with
    | '#' :: fragment => some (encode inFragmentSet fragment)
    | _ => none)

/-- Reads what stands after the two slashes. -/
def readHierarchy (kind : SchemeKind) (scheme s : List Char) : Except UrlError Url := do
  let isSlash (c : Char) : Bool := c == '/' || (kind != .plain && c == '\\')
  let (authorityText, rest) := splitBefore (fun c => isSlash c || c == '?' || c == '#') s
  -- an `@` in front of nothing but a path names no host
  if authorityText = ['@'] && !rest.isEmpty then throw .emptyHost
  let (authority, overhang) ← readAuthority kind (String.ofList scheme) authorityText
  let (pathText, tail) := splitBefore (fun c => c == '?' || c == '#') (overhang ++ rest)
  let path := if pathText.isEmpty && kind = .plain then [] else readPath isSlash pathText
  let (query, fragment) :=
    readTail (if kind = .plain then inQuerySet else inSpecialQuerySet) tail
  return ⟨scheme, some authority, path, query, fragment⟩

/-- A local file: the host may be missing, and this machine's own name is none. -/
def readFile (scheme s : List Char) : Except UrlError Url := do
  let isSlash (c : Char) : Bool := c == '/' || c == '\\'
  let (hostText, rest) := match s with
    | a :: b :: rest =>
      if isSlash a && isSlash b then
        splitBefore (fun c => isSlash c || c == '?' || c == '#') rest
      else ([], s)
    | _ => ([], s)
  let isDrive := match hostText with
    | [a, b] => a.isAlpha && (b == ':' || b == '|')
    | _ => false
  let (hostText, rest) := if isDrive then ([], '/' :: hostText ++ rest) else (hostText, rest)
  let host ← if hostText.isEmpty then pure (.domain []) else domainHost hostText
  let host := if host = .domain "localhost".toList then .domain [] else host
  let (pathText, tail) := splitBefore (fun c => c == '?' || c == '#') rest
  let (query, fragment) := readTail inSpecialQuerySet tail
  return ⟨scheme, some ⟨[], none, host, none⟩, readPath isSlash pathText, query, fragment⟩

/-- Reads a URL.  Blanks and controls at the ends and line breaks anywhere mean nothing. -/
def parse (text : String) : Except UrlError Url :=
  let isEdge (c : Char) : Bool := c.toNat ≤ 0x20
  let s := ((text.toList.dropWhile isEdge).reverse.dropWhile isEdge).reverse
  let s := s.filter fun c => !isIgnored c
  match splitScheme s with
  | none => .error .relative
  | some (scheme, rest) =>
    match schemeKind (String.ofList scheme) with
    | .file => readFile scheme rest
    | .web => readHierarchy .web scheme (rest.dropWhile fun c => c == '/' || c == '\\')
    | .plain =>
      match rest with
      | '/' :: '/' :: rest => readHierarchy .plain scheme rest
      | _ =>
        let (pathText, tail) := splitBefore (fun c => c == '?' || c == '#') rest
        let (query, fragment) := readTail inQuerySet tail
        let path :=
          if rest.head? = some '/' then readPath (· == '/') pathText
          else encode isControl pathText
        .ok ⟨scheme, none, path, query, fragment⟩

/-! ### Writing -/

/-- User name and password with their marks. -/
def Authority.userinfo (a : Authority) : List Char :=
  match a.password with
  | some password => a.username ++ ':' :: password ++ ['@']
  | none => if a.username.isEmpty then [] else a.username ++ ['@']

/-- What is written after the two slashes. -/
def Authority.render (a : Authority) : List Char :=
  a.userinfo ++ a.host.render ++
    match a.port with
    | some port => ':' :: Nat.toDigits 10 port
    | none => []

/-- A URL as text. -/
def render (u : Url) : String :=
  String.ofList <|
    u.scheme ++ [':'] ++
      (match u.authority with
        | some a => ['/', '/'] ++ a.render
        | none => []) ++
      u.path ++
      (match u.query with
        | some query => '?' :: query
        | none => []) ++
      (match u.fragment with
        | some fragment => '#' :: fragment
        | none => [])

/-- The host as text, if the URL addresses one. -/
def hostText? (u : Url) : Option String :=
  match u.authority with
  | some a => if a.host.isEmpty then none else some (String.ofList a.host.render)
  | none => none

/-! ### Changing parts -/

/-- The URL with the given user name and password; only a URL with a host can carry
them. -/
def withCredentials? (u : Url) (username password : String) : Option Url :=
  match u.authority with
  | some a =>
    if a.host.isEmpty then none
    else
      some { u with
        authority := some { a with
          username := encode inUserinfoSet username.toList
          password :=
            if password.isEmpty then none else some (encode inUserinfoSet password.toList) } }
  | none => none

/-- The URL with one more path segment. -/
def withSegment (u : Url) (segment : String) : Url :=
  { u with path := pushSegment u.path segment }

/-- The URL with the given query. -/
def withQuery (u : Url) (query : String) : Url :=
  { u with query := some (encode inQuerySet query.toList) }

end Url

end QueueRelay

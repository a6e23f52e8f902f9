import QueueRelay.Digest.Base64
import QueueRelay.Digest.Sha256
import QueueRelay.LinkError
import QueueRelay.Text.Blank
import QueueRelay.Url
/-!
Access to a managed bus.

A connection string is a list of `name=value` parts between semicolons.  Three names
count, in any case of their letters, and of two parts with one name the later counts.
From the key a token can be signed that opens one resource until a given second.
-/
namespace QueueRelay.Bus

/-- Where a bus is and the key to it. -/
structure Credentials where
  /-- Host of the namespace. -/
  host : String
  /-- Name of the key. -/
  keyName : String
  /-- The key. -/
  key : String
deriving DecidableEq

/-- The values that a connection string has given so far. -/
structure Parts where
  endpoint : Option String := none
  keyName : Option String := none
  key : Option String := none
deriving DecidableEq

/-- The text before the first `=` and the text after it. -/
def splitPair : List Char → Option (List Char × List Char)
  | [] => none
  | '=' :: rest => some ([], rest)
  | c :: rest => (splitPair rest).map fun (name, value) => (c :: name, value)

/-- Takes one part into account. -/
def Parts.add (p : Parts) (part : List Char) : Except LinkError Parts :=
  match splitPair part with
  | none =>
    .error (.invalidConfig
      ("malformed connection string segment '" ++ String.ofList part ++ "'"))
  | some (name, value) =>
    let name := String.ofList (name.map Char.toLower)
    let value := String.ofList value
    .ok <|
      if name = "endpoint" then { p with endpoint := some value }
      else if name = "sharedaccesskeyname" then { p with keyName := some value }
      else if name = "sharedaccesskey" then { p with key := some value }
      else p

/-- The parts of a connection string, blank ones left out. -/
def segmentsOf (s : String) : List (List Char) :=
  ((Url.splitAt ';' s.toList).map Text.trimList).filter fun part => !part.isEmpty

/-- The host that an endpoint names, as far as `Url.domainToAscii?` knows the names outside
ASCII. -/
def endpointHost? (endpoint : String) : Option String :=
  match Url.parse endpoint with
  | .ok u => u.hostText?
  | .error _ => none

/-- The credentials that the parts amount to, `host?` telling the host of an endpoint. -/
def Parts.credentials (host? : String → Option String) (p : Parts) :
    Except LinkError Credentials := do
  let some endpoint := p.endpoint
    | throw (.invalidConfig "connection string has no Endpoint")
  let some host := host? endpoint
    | throw (.invalidConfig ("invalid Endpoint '" ++ endpoint ++ "'"))
  let some keyName := p.keyName
    | throw (.invalidConfig "connection string has no SharedAccessKeyName")
  let some key := p.key
    | throw (.invalidConfig "connection string has no SharedAccessKey")
  return ⟨host, keyName, key⟩

namespace Credentials

/-- Reads a connection string, `host?` telling the host of its endpoint. -/
def parseWith (host? : String → Option String) (s : String) : Except LinkError Credentials := do
  let parts ← (segmentsOf s).foldlM Parts.add {}
  parts.credentials host?

/-- Reads a connection string. -/
def parse (s : String) : Except LinkError Credentials := parseWith endpointHost? s

/-! ### Tokens -/

/-- What is signed: the encoded resource and the second at which the token expires. -/
def stringToSign (resource : String) (expiry : Nat) : String :=
  Url.formEncode resource ++ "\n" ++ toString expiry

/-- The signature in Base64. -/
def signature (c : Credentials) (resource : String) (expiry : Nat) : String :=
  String.ofList (Digest.base64
    (Digest.hmacSha256 c.key.toUTF8.toList (stringToSign resource expiry).toUTF8.toList))

/-- What stands in front of the fields of a token. -/
def tokenMark : String := "SharedAccessSignature "

/-- The token that opens `resource` until `expiry`, in seconds since 1970. -/
def token (c : Credentials) (resource : String) (expiry : Nat) : String :=
  tokenMark ++ "sr=" ++ Url.formEncode resource ++ "&sig=" ++
    Url.formEncode (c.signature resource expiry) ++ "&se=" ++ toString expiry ++
    "&skn=" ++ c.keyName

/-- The names and the encoded values of the fields of a token. -/
def tokenFields? (token : String) : Option (List (String × String)) :=
  if tokenMark.toList.isPrefixOf token.toList then
    (Url.splitAt '&' (token.toList.drop tokenMark.length)).mapM fun field =>
      (splitPair field).map fun (name, value) => (String.ofList name, String.ofList value)
  else none

/-- The record form, which leaves the key out. -/
def form (c : Credentials) : String :=
  Text.openRecordForm "BusCredentials"
    [("namespace_host", Text.quoted c.host), ("key_name", Text.quoted c.keyName)]

end Credentials

end QueueRelay.Bus

import QueueRelay.Bytes
import QueueRelay.Http.Status
import QueueRelay.Program
import QueueRelay.Url
/-!
HTTP, as far as the senders use it.

A request gets the status of its answer, or the words of a transport that got none.
-/
namespace QueueRelay.Http

inductive Method where
  | get
  | post
deriving DecidableEq

def Method.name : Method → String
  | get => "GET"
  | post => "POST"

/-- What is sent to a server. -/
structure Request where
  method : Method
  url : String
  /-- The field that carries the token. -/
  authorization : String
  contentType : Option String := none
  body : ByteArray := .empty
deriving DecidableEq

/-- The calls on a transport. -/
inductive Call where
  /-- The time, in seconds since 1970. -/
  | now
  | request (r : Request)
deriving DecidableEq

/-- The calls and their answers. -/
abbrev calls : Interface where
  Call := Call
  Answer
    | .now => Nat
    | .request _ => Except String Status

def now : Program calls Nat :=
  .perform (I := calls) .now

def request (r : Request) : Program calls (Except String Status) :=
  .perform (I := calls) (.request r)

namespace Request

/-- What a request asks its server for: the path and the query of its URL. -/
def target? (r : Request) : Option String :=
  match Url.parse r.url with
  | .error _ => none
  | .ok u =>
    some (String.ofList (u.path ++
      match u.query with
      | some query => '?' :: query
      | none => []))

/-- A field must not hold control characters other than a tab. -/
def hasPlainField (r : Request) : Bool :=
  r.authorization.toList.all fun c => c == '\t' || !Url.isControl c

/-- The first line of a request, if the request can be written. -/
def line? (r : Request) : Option String :=
  if r.hasPlainField then
    r.target?.map fun target => r.method.name ++ " " ++ target ++ " HTTP/1.1"
  else none

end Request

end QueueRelay.Http

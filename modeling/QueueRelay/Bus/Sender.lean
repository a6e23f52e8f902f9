import QueueRelay.Bus.Credentials
import QueueRelay.Http
import QueueRelay.Sink.Bus
/-!
Sending to a managed bus over HTTP.

A session is a token for one queue or topic, good for an hour.  Before it is handed out
the queue or topic is read once with it.  A key that may only send cannot read, so being
refused still proves that the bus answers.  That a token is no longer good, that the bus
is busy and that it fails count as a lost link, so that the next attempt signs a new one.
-/
namespace QueueRelay.Bus

/-- How to reach a queue or topic of a bus. -/
structure Sender where
  credentials : Credentials
  place : Place
  /-- Address of the server, without slashes at its end. -/
  base : String
deriving DecidableEq

/-- A session: the token that its requests carry. -/
structure Token where
  text : String
deriving DecidableEq

/-- How long a token is good, in seconds. -/
def tokenLife : Nat := 3600

namespace Sender

/-- The sender for a target, on the host of its namespace. -/
def ofTarget (t : BusTarget) : Except LinkError Sender := do
  let credentials ← Credentials.parse t.connectionString.value
  let place ← Place.ofBusTarget t
  return ⟨credentials, place, "https://" ++ credentials.host⟩

/-- The same sender on another server.  Tokens are still signed for the namespace. -/
def onServer (s : Sender) (base : String) : Sender :=
  { s with base := String.ofList (base.toList.reverse.dropWhile (· == '/')).reverse }

/-- The resource that tokens are signed for. -/
def resource (s : Sender) : String :=
  "https://" ++ s.credentials.host ++ "/" ++ s.place.name

/-- The address of the queue or topic. -/
def url (s : Sender) : String := s.base ++ "/" ++ s.place.name

/-- The token that is good from a moment on. -/
def tokenAt (s : Sender) (now : Nat) : Token :=
  ⟨s.credentials.token s.resource (now + tokenLife)⟩

/-! ### Opening a session -/

/-- The request that reads the queue or topic. -/
def lookup (s : Sender) (token : Token) : Http.Request where
  method := .get
  url := s.url
  authorization := token.text

/-- What the answer says about the queue or topic. -/
def checked (s : Sender) : Except String Http.Status → Except LinkError Unit
  | .error words => .error (.connectionFailed ("service bus unreachable: " ++ words))
  | .ok status =>
    if status.isSuccess || status.code = 401 || status.code = 403 then .ok ()
    else if status.code = 404 then
      .error (.connectionFailed ("service bus entity '" ++ s.place.name ++ "' does not exist"))
    else .error (.connectionFailed ("service bus entity check responded " ++ status.shown))

/-- Opens a session. -/
def connect (s : Sender) : Program Http.calls (Except LinkError Token) := do
  let token := s.tokenAt (← Http.now)
  return (s.checked (← Http.request (s.lookup token))).map fun _ => token

/-! ### Sending -/

/-- The request that hands over a body. -/
def delivery (s : Sender) (token : Token) (body : ByteArray) : Http.Request where
  method := .post
  url := s.url ++ "/messages"
  authorization := token.text
  contentType := some "application/json"
  body := body

/-- What the answer says about the body. -/
def accepted : Except String Http.Status → Except LinkError Unit
  | .error words => .error (.connectionLost ("service bus request: " ++ words))
  | .ok status =>
    let detail := "service bus responded " ++ status.shown
    if status.isSuccess then .ok ()
    else if status.code = 401 || status.code = 429 || status.isServerError then
      .error (.connectionLost detail)
    else if status.code = 404 then .error (.sendFailed (detail ++ " (entity does not exist)") {})
    else .error (.sendFailed detail {})

/-- Hands over a body. -/
def post (s : Sender) (token : Token) (body : ByteArray) :
    Program Http.calls (Except LinkError Unit) := do
  return accepted (← Http.request (s.delivery token body))

/-- The sender behind the link of a sink.  A session stays open until it is closed, and no
link holds on to one that it closed. -/
def answer (s : Sender) : (c : (Link.calls Bus.calls Token).Call) →
    Program Http.calls ((Link.calls Bus.calls Token).Answer c)
  | .connect => s.connect
  | .isOpen _ => return true
  | .close _ => return .ok ()
  | .ask token c => s.post token c.body

end Sender

end QueueRelay.Bus

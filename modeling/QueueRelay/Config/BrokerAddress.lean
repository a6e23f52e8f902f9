import QueueRelay.Config.Secret
import QueueRelay.LinkError
import QueueRelay.Text.Blank
import QueueRelay.Url
/-!
Where an AMQP broker is and how to log in.

The connection URI holds the user, the password and the virtual host percent-encoded,
the virtual host as one path segment and the heartbeat as the query.
-/
namespace QueueRelay

/-- Address of and login on a broker. -/
structure BrokerAddress where
  host : String
  port : Nat := 5672
  username : String := "guest"
  password : Secret := ⟨"guest"⟩
  vhost : String := "/"
  /-- Heartbeat interval negotiated with the broker. -/
  heartbeatSecs : Nat := 600
deriving DecidableEq

namespace BrokerAddress

/-- The broker of this machine. -/
def standard : BrokerAddress := { host := "localhost" }

/-- Host and port as they are written in messages. -/
def hostPort (b : BrokerAddress) : String := b.host ++ ":" ++ toString b.port

/-- The URL without credentials. -/
def url (b : BrokerAddress) : Except LinkError Url :=
  match Url.parse ("amqp://" ++ b.hostPort ++ "/") with
  | .ok u => .ok (u.withSegment b.vhost)
  | .error e =>
    .error (.invalidConfig ("invalid broker address '" ++ b.hostPort ++ "': " ++ e.message))

/-- The connection URI. -/
def uri (b : BrokerAddress) : Except LinkError String := do
  let u ← b.url
  match u.withCredentials? b.username b.password.value with
  | none => throw (.invalidConfig "broker URI cannot carry a username")
  | some u => return (u.withQuery ("heartbeat=" ++ toString b.heartbeatSecs)).render

/-- The address for people, without credentials. -/
def endpoint (b : BrokerAddress) : String :=
  match b.url with
  | .ok u => u.render
  | .error _ => "amqp://" ++ b.hostPort

/-- Checks that the address can be used. -/
def validate (b : BrokerAddress) : Except LinkError Unit := do
  if Text.allBlank b.host then throw (.invalidConfig "broker host cannot be empty")
  if b.username.isEmpty then throw (.invalidConfig "broker username cannot be empty")
  let _ ← b.url

/-- The record form, in which the password is covered. -/
def form (b : BrokerAddress) : String :=
  Text.recordForm "BrokerSettings"
    [("host", Text.quoted b.host), ("port", toString b.port),
     ("username", Text.quoted b.username), ("password", b.password.form),
     ("vhost", Text.quoted b.vhost), ("heartbeat_secs", toString b.heartbeatSecs)]

end BrokerAddress

end QueueRelay

import QueueRelay.Message
import QueueRelay.Text.Quoted
/-!
What can go wrong on a link to a broker or to a cloud service.

The one distinction that decides anything is `isConnection`: such an error says that the
link itself is gone, so a new one may help.
-/
namespace QueueRelay

/-- What is known about a send that failed. -/
structure SendContext where
  /-- Payload size in bytes. -/
  size : Nat := 0
  /-- Tag of the source delivery. -/
  tag : Option DeliveryTag := none
  /-- Routing key the message arrived with. -/
  routingKey : Option String := none
  /-- Where the send was aimed. -/
  destination : Option String := none
deriving DecidableEq

/-- The record form. -/
def SendContext.form (c : SendContext) : String :=
  Text.recordForm "SendContext"
    [("message_size", toString c.size),
     ("delivery_tag", Text.optional DeliveryTag.form c.tag),
     ("routing_key", Text.optional Text.quoted c.routingKey),
     ("destination", Text.optional Text.quoted c.destination)]

/-- A failure of a link or of one operation on it. -/
inductive LinkError where
  | connectionFailed (text : String)
  | connectionLost (text : String)
  | notFound (text : String)
  | rejected (text : String)
  | unroutable (text : String)
  | sendFailed (text : String) (context : SendContext)
  | invalidConfig (text : String)
  | closed
  | io (text : String)
  | other (text : String)
deriving DecidableEq

namespace LinkError

/-- The link is gone or could not be made. -/
def isConnection : LinkError → Bool
  | connectionFailed _ | connectionLost _ | closed | io _ => true
  | _ => false

/-- A passive declaration found no such object. -/
def isNotFound : LinkError → Bool
  | notFound _ => true
  | _ => false

/-- The wording of an error. -/
def message : LinkError → String
  | connectionFailed text => "Connection failed: " ++ text
  | connectionLost text => "Connection lost: " ++ text
  | notFound text => "Not found: " ++ text
  | rejected text => "Rejected by broker: " ++ text
  | unroutable text => "Unroutable: " ++ text
  | sendFailed text context =>
    "Send failed: " ++ text ++ " (size: " ++ toString context.size ++ "B, tag: " ++
      Text.optional DeliveryTag.form context.tag ++ ", destination: " ++
      Text.optional Text.quoted context.destination ++ ")"
  | invalidConfig text => "Invalid configuration: " ++ text
  | closed => "Sink closed"
  | io text => "IO error: " ++ text
  | other text => "Other error: " ++ text

/-- The form inside record forms. -/
def form : LinkError → String
  | connectionFailed text => "ConnectionFailed(" ++ Text.quoted text ++ ")"
  | connectionLost text => "ConnectionLost(" ++ Text.quoted text ++ ")"
  | notFound text => "NotFound(" ++ Text.quoted text ++ ")"
  | rejected text => "Rejected(" ++ Text.quoted text ++ ")"
  | unroutable text => "Unroutable(" ++ Text.quoted text ++ ")"
  | sendFailed text context =>
    Text.recordForm "SendFailed" [("error", Text.quoted text), ("context", context.form)]
  | invalidConfig text => "InvalidConfig(" ++ Text.quoted text ++ ")"
  | closed => "Closed"
  | io text => "Io(" ++ Text.quoted text ++ ")"
  | other text => "Other(" ++ Text.quoted text ++ ")"

end LinkError

end QueueRelay

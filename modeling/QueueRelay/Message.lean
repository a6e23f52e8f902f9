import QueueRelay.Bytes
/-!
Messages taken from a source queue.

A message is forwarded byte for byte and never looked into.  Its tag is the handle under
which the source channel wants it acknowledged; tags are counted per channel.
-/
namespace QueueRelay

/-- The handle of one delivery on the channel it arrived on. -/
structure DeliveryTag where
  value : Nat
deriving DecidableEq, Inhabited

/-- The form of a tag inside messages. -/
def DeliveryTag.form (t : DeliveryTag) : String :=
  "DeliveryTag(" ++ toString t.value ++ ")"

/-- A delivery as the relay sees it. -/
structure Message where
  /-- The bytes to forward. -/
  payload : ByteArray
  /-- Handle for the disposition. -/
  tag : DeliveryTag := ⟨0⟩
  /-- Routing key it was published with. -/
  routingKey : Option String := none
  /-- Set when the broker has delivered this copy before. -/
  redelivered : Bool := false
  /-- Id given by the producer. -/
  messageId : Option String := none
deriving DecidableEq

namespace Message

/-- Number of payload bytes. -/
def size (m : Message) : Nat := m.payload.size

/-- The payload as text, when it is valid UTF-8. -/
def text? (m : Message) : Option String := String.fromUTF8? m.payload

end Message

end QueueRelay

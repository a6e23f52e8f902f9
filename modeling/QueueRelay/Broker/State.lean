import QueueRelay.Bytes
import QueueRelay.Channel
import QueueRelay.Table
/-!
The state of an AMQP broker that lives in memory.

A message that is published to several queues becomes one copy on each.  A copy is at any
time in one of three places: ready in its queue, unacknowledged on one channel, or gone.
Every copy has a number of its own, and the journal records where each one went, so what
happened to a copy can be read off the journal.
-/
namespace QueueRelay

namespace Broker

/-- One message on one queue. -/
structure Copy where
  /-- Number of this copy, counted over all queues. -/
  number : Nat
  payload : ByteArray
  /-- Routing key it was published with. -/
  key : String
  /-- Set when it came back from a channel. -/
  redelivered : Bool := false
deriving DecidableEq

structure Queue where
  durable : Bool := true
  /-- Copies that wait to be delivered, the next one first. -/
  ready : List Copy := []
deriving DecidableEq

structure Exchange where
  kind : ExchangeKind
  durable : Bool := true
deriving DecidableEq

/-- A key under which a queue takes messages from an exchange. -/
structure Binding where
  queue : String
  exchange : String
  key : String
deriving DecidableEq

/-- A copy that is out with a consumer, and the queue it came from. -/
structure Delivery where
  queue : String
  copy : Copy
deriving DecidableEq

/-- What the broker knows about a channel. -/
structure Lane where
  /-- The connection it belongs to. -/
  connection : Nat
  isOpen : Bool := true
  /-- Most deliveries that may be outstanding; zero is no limit. -/
  prefetch : Nat := 0
  /-- Tag of the latest delivery. -/
  lastTag : Nat := 0
  /-- Deliveries that are neither acknowledged nor returned, by rising tag. -/
  unacked : Table Nat Delivery := .empty
deriving DecidableEq

/-- Something that happened. -/
inductive Event where
  | exchangeDeclared (name : String) (passive : Bool)
  | queueDeclared (name : String) (passive : Bool)
  | bound (b : Binding)
  /-- A copy was put at the end of a queue. -/
  | enqueued (queue : String) (copy : Copy)
  | published (exchange key : String) (payload : ByteArray)
  /-- No queue took a message that was published through a session. -/
  | returned (exchange key : String)
  | delivered (channel tag : Nat) (d : Delivery)
  | acked (channel tag : Nat) (d : Delivery)
  | nacked (channel tag : Nat) (d : Delivery) (requeue : Bool)
  | channelClosed (channel : Nat) (reason : String)
deriving DecidableEq

/-- Whether an event is listed in the broker's log. -/
def Event.isListed : Event → Bool
  | enqueued _ _ => false
  | _ => true

/-- A client's connection and the channel it uses. -/
structure Session where
  connection : Nat
  channel : Nat
deriving DecidableEq, Inhabited

/-- A consumer: the channel that holds its deliveries and the queue it drains. -/
structure Stream where
  session : Session
  queue : String
deriving DecidableEq, Inhabited

end Broker

/-- A broker. -/
structure Broker where
  exchanges : Table String Broker.Exchange := .empty
  queues : Table String Broker.Queue := .empty
  /-- Without repetition, in order of queue, exchange and key. -/
  bindings : List Broker.Binding := []
  /-- Connections that are open, the oldest first. -/
  connections : List Nat := []
  channels : Table Nat Broker.Lane := .empty
  /-- The number last given to a connection or a channel. -/
  lastId : Nat := 0
  /-- Connections ever opened. -/
  connectionsOpened : Nat := 0
  /-- Connection attempts still to be refused. -/
  refusalsDue : Nat := 0
  /-- Whether active declarations are refused. -/
  deniesDeclarations : Bool := false
  /-- Publishes still to be confirmed negatively. -/
  nacksDue : Nat := 0
  /-- Copies made so far. -/
  copies : Nat := 0
  /-- Everything that happened, in order. -/
  journal : List Broker.Event := []
deriving DecidableEq

namespace Broker

/-- Adds an event to the journal. -/
def record (b : Broker) (e : Event) : Broker :=
  { b with journal := b.journal ++ [e] }

/-! ### Views -/

/-- The listed events. -/
def log (b : Broker) : List Event := b.journal.filter Event.isListed

/-- The copies that wait in a queue, the next one first. -/
def ready (b : Broker) (queue : String) : List Copy :=
  match b.queues.get? queue with
  | some q => q.ready
  | none => []

/-- Number of outstanding deliveries over all channels. -/
def unackedCount (b : Broker) : Nat :=
  b.channels.entries.foldr (fun c rest => c.2.unacked.size + rest) 0

/-- The payload of an acknowledged delivery. -/
def Event.ackedPayload? : Event → Option ByteArray
  | acked _ _ d => some d.copy.payload
  | _ => none

/-- The payload of a delivery that was returned by its consumer. -/
def Event.nackedPayload? : Event → Option ByteArray
  | nacked _ _ d _ => some d.copy.payload
  | _ => none

/-- Whether the event is a delivery. -/
def Event.isDelivered : Event → Bool
  | delivered _ _ _ => true
  | _ => false

/-- The payloads acknowledged so far, in order. -/
def acked (b : Broker) : List ByteArray := b.journal.filterMap Event.ackedPayload?

/-- The payloads returned so far, in order. -/
def nacked (b : Broker) : List ByteArray := b.journal.filterMap Event.nackedPayload?

/-- Number of deliveries made so far. -/
def deliveredCount (b : Broker) : Nat := b.journal.countP Event.isDelivered

end Broker

end QueueRelay

import QueueRelay.ExchangeKind
import QueueRelay.LinkError
import QueueRelay.Link
/-!
What can be asked of a session on an AMQP broker.

A session is one connection with one channel on it.  Tags, the prefetch limit and
consumers belong to the channel; a broker that refuses a call closes the channel, and
`reopen` puts a fresh one in its place.
-/
namespace QueueRelay

/-- How an exchange or a queue is declared. -/
inductive Declaration where
  /-- Only asks whether it exists. -/
  | passive
  /-- Creates it unless it exists with the same arguments. -/
  | active (durable autoDelete : Bool)
deriving DecidableEq

namespace Declaration

def isPassive : Declaration → Bool
  | passive => true
  | active _ _ => false

/-- Whether what is declared is to outlive the broker. -/
def durable : Declaration → Bool
  | passive => false
  | active durable _ => durable

end Declaration

/-- What the broker is asked to do for a message. -/
structure PublishOptions where
  /-- Send it back when no queue takes it. -/
  mandatory : Bool := true
  /-- Keep it on disk. -/
  persistent : Bool := true
deriving DecidableEq

/-- The broker's word on a published message. -/
inductive PublishStatus where
  /-- It is in every queue it was routed to. -/
  | confirmed
  /-- No queue took it. -/
  | returned (reason : String)
  /-- The broker could not take charge of it. -/
  | nacked
deriving DecidableEq

namespace Channel

/-- A call on a session. -/
inductive Call where
  | declareExchange (name : String) (kind : ExchangeKind) (how : Declaration)
  | declareQueue (name : String) (how : Declaration)
  | bind (queue exchange key : String)
  /-- Limits the deliveries that may be outstanding; zero is no limit. -/
  | setPrefetch (count : Nat)
  | publish (exchange key : String) (payload : ByteArray) (options : PublishOptions)
  /-- Starts a consumer, which yields a stream of deliveries. -/
  | consume (queue consumerTag : String)
  | ack (tag : DeliveryTag)
  | nack (tag : DeliveryTag) (requeue : Bool)
  /-- Replaces the channel on the same connection. -/
  | reopen

/-- The calls on a session and their answers; a stream is a handle of type `δ`. -/
abbrev calls (δ : Type) : Interface where
  Call := Call
  Answer
    | .publish _ _ _ _ => Except LinkError PublishStatus
    | .consume _ _ => Except LinkError δ
    | _ => Except LinkError Unit

variable {δ : Type}

def declareExchange (name : String) (kind : ExchangeKind) (how : Declaration) :
    Program (calls δ) (Except LinkError Unit) :=
  .perform (I := calls δ) (.declareExchange name kind how)

def declareQueue (name : String) (how : Declaration) :
    Program (calls δ) (Except LinkError Unit) :=
  .perform (I := calls δ) (.declareQueue name how)

def bind (queue exchange key : String) : Program (calls δ) (Except LinkError Unit) :=
  .perform (I := calls δ) (.bind queue exchange key)

def reopen : Program (calls δ) (Except LinkError Unit) :=
  .perform (I := calls δ) .reopen

end Channel

/-- The calls of one who holds a link to an AMQP broker. -/
abbrev BrokerLink (σ δ : Type) : Interface := Link.calls (Channel.calls δ) σ

end QueueRelay

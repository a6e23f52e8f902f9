import QueueRelay.Channel
import QueueRelay.Sink
import QueueRelay.Sink.Place
/-!
A sink that publishes to an AMQP broker.

Messages are published so that the broker confirms them and sends back what no queue
takes.  Such a message is unroutable, and so is one for an exchange that does not exist;
for the latter the broker closes the channel, so the link is degraded as well.
-/
namespace QueueRelay

/-- A sink that publishes to an AMQP broker. -/
abbrev BrokerSink (σ : Type) := Sink BrokerPlace σ

namespace BrokerSink

variable {σ δ : Type}

def ofPlace (name endpoint : String) (place : BrokerPlace) : BrokerSink σ where
  name := name
  kind := "local_broker"
  endpoint := endpoint
  place := place

/-- The destination in words. -/
def destination (s : BrokerSink σ) : String := s.place.shown s.endpoint

/-- The error for a message that no queue took. -/
def unroutable (reason exchange key : String) : LinkError :=
  .unroutable (reason ++ " (exchange: '" ++ exchange ++ "', routing key: '" ++ key ++ "')")

/-- What the broker's word on a message means for the sink. -/
def verdict (s : BrokerSink σ) (m : Message) :
    Except LinkError PublishStatus → Except LinkError Unit
  | .ok .confirmed => .ok ()
  | .ok (.returned reason) | .error (.notFound reason) =>
    .error (unroutable reason (s.place.aim m).1 (s.place.aim m).2)
  | .ok .nacked =>
    .error (.sendFailed "broker nacked publish"
      { size := m.size, tag := some m.tag, destination := some s.endpoint })
  | .error e => .error e

/-- Takes a failed publish into account: the link is degraded if the failure says so or
if the session has closed over it. -/
def failedWith (s : BrokerSink σ) (e : LinkError) :
    Program (BrokerLink σ δ) (BrokerSink σ) := do
  let gone ← if e.isConnection then pure true else Bool.not <$> s.link.isLive
  return (if gone then s.degraded e else s).rejected e

/-- Publishes a message once. -/
def transmit (m : Message) (s : BrokerSink σ) :
    Program (BrokerLink σ δ) (Except LinkError Unit × BrokerSink σ) :=
  s.overLiveLink fun session => do
    let (exchange, key) := s.place.aim m
    let word ← Link.ask (C := Channel.calls δ) session (.publish exchange key m.payload {})
    match s.verdict m word with
    | .ok _ => return (.ok (), s.accepted)
    | .error e => return (.error e, ← s.failedWith e)

/-- Sends a message. -/
def send (m : Message) (s : BrokerSink σ) : Program (BrokerLink σ δ) (Outcome × BrokerSink σ) :=
  Sink.sendThrough Sink.establish transmit m s

/-- The record form. -/
def form (s : BrokerSink σ) : String :=
  Text.recordForm "AmqpSink"
    [("manager", s.link.form s.endpoint), ("destination", s.place.form)]

end BrokerSink

end QueueRelay

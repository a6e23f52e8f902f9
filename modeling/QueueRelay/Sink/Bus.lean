import QueueRelay.Bytes
import QueueRelay.Sink
import QueueRelay.Sink.Place
/-!
A sink that hands messages to a queue or a topic of a managed bus.
-/
namespace QueueRelay

namespace Bus

/-- A call on a session with the bus: hand over one body. -/
structure Call where
  body : ByteArray
deriving DecidableEq

/-- The calls and their answers. -/
abbrev calls : Interface where
  Call := Call
  Answer _ := Except LinkError Unit

end Bus

/-- A sink for a queue or a topic of a bus. -/
abbrev BusSink (σ : Type) := Sink Place σ

namespace BusSink

variable {σ : Type}

def ofPlace (name endpoint : String) (place : Place) : BusSink σ where
  name := name
  kind := "managed_bus"
  endpoint := endpoint
  place := place

/-- The destination in words. -/
def destination (s : BusSink σ) : String := s.place.shownKindLast

/-- The error with what the sink knows about the message. -/
def explain (s : BusSink σ) (m : Message) : LinkError → LinkError
  | .sendFailed text _ =>
    .sendFailed text { size := m.size, tag := some m.tag, destination := some s.place.name }
  | e => e

/-- The result of a call and the sink after it.  The sink remembers the error as the
session gave it. -/
def settle (s : BusSink σ) (m : Message) :
    Except LinkError Unit → Except LinkError Unit × BusSink σ
  | .ok _ => (.ok (), s.accepted)
  | .error e =>
    if e.isConnection then (.error e, (s.rejected e).degraded e)
    else (.error (s.explain m e), s.rejected e)

/-- Hands over a message once. -/
def transmit (m : Message) (s : BusSink σ) :
    Program (Link.calls Bus.calls σ) (Except LinkError Unit × BusSink σ) :=
  s.overLiveLink fun session => do
    return s.settle m (← Link.ask (C := Bus.calls) session ⟨m.payload⟩)

/-- Sends a message. -/
def send (m : Message) (s : BusSink σ) :
    Program (Link.calls Bus.calls σ) (Outcome × BusSink σ) :=
  Sink.sendThrough Sink.establish transmit m s

/-- The record form. -/
def form (s : BusSink σ) : String :=
  Text.recordForm "ServiceBusSink"
    [("name", Text.quoted s.name), ("manager", s.link.form s.endpoint),
     ("destination", s.place.form), ("messages_sent", toString s.sent)]

end BusSink

end QueueRelay

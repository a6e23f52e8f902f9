import QueueRelay.Sink
import QueueRelay.Sink.Place
/-!
A sink that hands messages to a cloud queue or a cloud topic.

The services carry text, so a payload that is no text is refused before anything is
asked of the link.
-/
namespace QueueRelay

namespace Cloud

/-- A call on a session with the cloud services. -/
inductive Call where
  | sendToQueue (url body origin : String)
  | publishToTopic (arn body origin : String)
deriving DecidableEq

/-- The calls and their answers. -/
abbrev calls : Interface where
  Call := Call
  Answer _ := Except LinkError Unit

/-- Where messages go and which origin they carry. -/
structure Route where
  place : Place
  origin : String
deriving DecidableEq

/-- The call that hands over a text. -/
def Route.handOver (r : Route) (body : String) : Call :=
  match r.place with
  | .queue url => .sendToQueue url body r.origin
  | .topic arn => .publishToTopic arn body r.origin

end Cloud

/-- A sink for a cloud queue or topic. -/
abbrev CloudSink (σ : Type) := Sink Cloud.Route σ

namespace CloudSink

variable {σ : Type}

def ofRoute (name endpoint : String) (route : Cloud.Route) : CloudSink σ where
  name := name
  kind := "cloud_queue"
  endpoint := endpoint
  place := route

/-- The destination in words. -/
def destination (s : CloudSink σ) : String := s.place.place.shownKindFirst

/-- The error for a payload that is no text. -/
def notText (s : CloudSink σ) (m : Message) : LinkError :=
  .sendFailed "payload is not valid UTF-8"
    { size := m.size, tag := some m.tag, destination := some s.destination }

/-- The result of a call and the sink after it. -/
def settle (s : CloudSink σ) : Except LinkError Unit → Except LinkError Unit × CloudSink σ
  | .ok _ => (.ok (), s.accepted)
  | .error e => (.error e, (if e.isConnection then s.degraded e else s).rejected e)

/-- Hands over a message once. -/
def transmit (m : Message) (s : CloudSink σ) :
    Program (Link.calls Cloud.calls σ) (Except LinkError Unit × CloudSink σ) :=
  match m.text? with
  | none => return (.error (s.notText m), s)
  | some body => s.overLiveLink fun session => do
    return s.settle (← Link.ask (C := Cloud.calls) session (s.place.handOver body))

/-- Sends a message. -/
def send (m : Message) (s : CloudSink σ) :
    Program (Link.calls Cloud.calls σ) (Outcome × CloudSink σ) :=
  Sink.sendThrough Sink.establish transmit m s

/-- The record form. -/
def form (s : CloudSink σ) : String :=
  Text.recordForm "CloudQueueSink"
    [("manager", s.link.form s.endpoint), ("destination", s.place.place.form),
     ("origin", Text.quoted s.place.origin)]

end CloudSink

end QueueRelay

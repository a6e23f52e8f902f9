import QueueRelay.Link
import QueueRelay.Sink.Send
import QueueRelay.Sink.Status
/-!
Sinks that reach their destination over a link.

Such a sink has a place on the other side, a link and three counters.  It says it is
connected when its link is live, and a transmission over a link that is not live fails
without a call.
-/
namespace QueueRelay

/-- A sink with a place of type `P` and sessions of type `σ`. -/
structure Sink (P σ : Type) where
  /-- Name given to the sink. -/
  name : String
  /-- Kind of destination. -/
  kind : String
  /-- Address without credentials. -/
  endpoint : String
  place : P
  link : Link σ := {}
  /-- Transmissions the destination accepted. -/
  sent : Nat := 0
  /-- Transmissions it did not accept. -/
  failed : Nat := 0
  /-- Wording of the last failure. -/
  lastError : Option String := none

namespace Sink

variable {P σ : Type} {C : Interface}

/-- What the sink reports about itself. -/
def status (s : Sink P σ) : SinkStatus where
  name := s.name
  kind := s.kind
  endpoint := some s.endpoint
  phase := s.link.phase
  sent := s.sent
  failed := s.failed
  reconnects := s.link.reconnects
  lastError := s.lastError

/-! ### Changes of state -/

/-- After the destination accepted a message. -/
def accepted (s : Sink P σ) : Sink P σ :=
  { s with sent := s.sent + 1 }

/-- After a transmission failed. -/
def rejected (s : Sink P σ) (e : LinkError) : Sink P σ :=
  { s with failed := s.failed + 1, lastError := some e.message }

/-- After a failure says that the link is gone. -/
def degraded (s : Sink P σ) (e : LinkError) : Sink P σ :=
  { s with link := s.link.degraded e.message }

/-! ### Operations -/

/-- Whether the link is live. -/
def isConnected (s : Sink P σ) : Program (Link.calls C σ) Bool :=
  s.link.isLive

/-- Opens a new session. -/
def establish (s : Sink P σ) : Program (Link.calls C σ) (Except LinkError Unit × Sink P σ) := do
  let (r, link) ← s.link.establish
  return (r.map fun _ => (), { s with link := link })

/-- Closes the session. -/
def close (s : Sink P σ) : Program (Link.calls C σ) (Sink P σ) := do
  return { s with link := ← s.link.release }

/-- Goes on with the session of a live link; without one the message is not sent. -/
def overLiveLink (s : Sink P σ)
    (act : σ → Program (Link.calls C σ) (Except LinkError Unit × Sink P σ)) :
    Program (Link.calls C σ) (Except LinkError Unit × Sink P σ) := do
  if ← s.link.isLive then
    match s.link.session with
    | some session => act session
    | none => return (.error .closed, s)
  else return (.error .closed, s)

end Sink

end QueueRelay

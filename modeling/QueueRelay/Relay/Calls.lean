import QueueRelay.Channel
import QueueRelay.Duration
import QueueRelay.Outcome
import QueueRelay.Relay.Error
/-!
Everything a relay asks of the world around it.

It holds a link to the source broker, takes deliveries from a stream, hands messages to
a backend and waits.  Only two of its calls wait for something that may never come, the
next delivery and the end of a pause; both are cut short when the relay is told to stop,
and that is the only way in which it learns of it.
-/
namespace QueueRelay.Relay

/-- What came of waiting for the next delivery. -/
inductive Next where
  /-- The relay was told to stop. -/
  | stop
  | message (m : Message)
  | failed (e : LinkError)
  /-- The stream is over. -/
  | ended

/-- What came of a pause. -/
inductive Pause where
  /-- The relay was told to stop. -/
  | stop
  | elapsed
deriving DecidableEq

/-- What came of handing a message to the backend. -/
inductive Handed where
  | outcome (o : Outcome)
  /-- The backend panicked with a message. -/
  | panicked (detail : String)

/-- A call of a relay. -/
inductive Call (σ δ : Type) where
  /-- A call on the link to the source. -/
  | source (c : (BrokerLink σ δ).Call)
  /-- Wait for the next delivery of a stream. -/
  | next (stream : δ)
  /-- Establish the backend. -/
  | establish
  /-- Hand a message to the backend. -/
  | send (m : Message)
  /-- Close the backend. -/
  | closeBackend
  /-- Do nothing for a while. -/
  | pause (d : Duration)

/-- The calls of a relay and their answers. -/
abbrev calls (σ δ : Type) : Interface where
  Call := Call σ δ
  Answer
    | .source c => (BrokerLink σ δ).Answer c
    | .next _ => Next
    | .establish => Except LinkError Unit
    | .send _ => Handed
    | .closeBackend => Unit
    | .pause _ => Pause

variable {σ δ α : Type}

/-- A program on the link to the source as a part of the relay. -/
def onSource (p : Program (BrokerLink σ δ) α) : Program (calls σ δ) α :=
  p.through fun c => .perform (I := calls σ δ) (.source c)

/-- A program on one session as a program on the link it belongs to. -/
def onSession (s : σ) (p : Program (Channel.calls δ) α) : Program (BrokerLink σ δ) α :=
  p.through (Link.ask s)

def next (stream : δ) : Program (calls σ δ) Next :=
  .perform (I := calls σ δ) (.next stream)

def establishBackend : Program (calls σ δ) (Except LinkError Unit) :=
  .perform (I := calls σ δ) .establish

def hand (m : Message) : Program (calls σ δ) Handed :=
  .perform (I := calls σ δ) (.send m)

def closeBackend : Program (calls σ δ) Unit :=
  .perform (I := calls σ δ) .closeBackend

def pause (d : Duration) : Program (calls σ δ) Pause :=
  .perform (I := calls σ δ) (.pause d)

end QueueRelay.Relay

/-
Relays that share a queue.

A crew consumes one queue of one broker together.  Each of its relays has settings and a
backend of its own, and knows nothing of the others.  At any time one of them may go on with
one call, or its backend may move by itself, or others may do something to the broker; so
the steps of all of them come in any order, and a call of one relay can fall between any two
of another.

A relay that has not begun has asked for nothing yet, so the relays of a crew need not begin
at one time.
-/
import QueueRelay.Proofs.Relay.Tending

namespace QueueRelay

open Broker Relay

/-- One of the relays that consume a queue together. -/
structure Hand (queue : String) where
  settings : Settings
  backend : Setting Errand.calls
  /-- Bound on the rounds it goes. -/
  rounds : Nat
  start : Relay.State Nat Stream
  /-- The state its backend begins in. -/
  side : backend.State
  ofQueue : settings.queue = queue
  /-- It begins without a session. -/
  apart : start.source.session = none

namespace Hand

variable {queue : String} {h : Hand queue}

/-- How far a relay has come. -/
structure Progress (h : Hand queue) where
  /-- The sessions that it was given. -/
  sessions : List Broker.Session
  /-- What it exchanged so far. -/
  trace : List (calls Nat Stream).Exchange
  stage : Stage (calls Nat Stream) (Option Finish × Relay.State Nat Stream)
  side : h.backend.State

/-- A relay that has not begun. -/
def first (h : Hand queue) : h.Progress where
  sessions := []
  trace := []
  stage := .ready (run h.settings h.rounds h.start)
  side := h.side

namespace Progress

/-- The source as the relay sees it. -/
def source (p : h.Progress) (b : Broker) : Source := { broker := b, sessions := p.sessions }

/-- A channel of one of the relay's sessions. -/
def Mine (p : h.Progress) (channel : Nat) : Prop := ∃ s ∈ p.sessions, s.channel = channel

/-- The relay got the delivery with this tag on this channel, its backend took charge of the
message, and the relay acknowledged it after that. -/
def Vouches (p : h.Progress) (channel tag : Nat) (d : Delivery) : Prop :=
  ∃ pre j s m w post,
    p.trace = pre ++ ⟨.next ⟨s, queue⟩, .message m⟩ :: ⟨.send m, w⟩ ::
      ⟨.source (.ask j (.ack m.tag)), .ok ()⟩ :: post ∧
    w.isDelivered = true ∧ s.channel = channel ∧ m.tag.value = tag ∧ d.copy.Is m

end Progress

/-- A step of one relay, on the broker it shares. -/
inductive Goes (h : Hand queue) (b : Broker) (p : h.Progress) : Broker → h.Progress → Prop
  | moved {side : h.backend.State} (hm : h.backend.moves p.side side) :
      Goes h b p b { p with side := side }
  | asked {k : (calls Nat Stream).Call}
      {next : (calls Nat Stream).Answer k →
        Program (calls Nat Stream) (Option Finish × Relay.State Nat Stream)}
      {v : (setting queue h.backend).State} (hp : p.stage = .ready (.call k next))
      (hb : (setting queue h.backend).begins (p.source b, p.side) k v) :
      Goes h b p b { p with stage := .waiting k next, side := v.2 }
  | answered {k : (calls Nat Stream).Call}
      {next : (calls Nat Stream).Answer k →
        Program (calls Nat Stream) (Option Finish × Relay.State Nat Stream)}
      {v : (setting queue h.backend).State} (hp : p.stage = .waiting k next)
      (a : (calls Nat Stream).Answer k)
      (he : (setting queue h.backend).ends (p.source b, p.side) k a v) :
      Goes h b p v.1.broker
        { sessions := v.1.sessions, trace := p.trace ++ [⟨k, a⟩], stage := .ready (next a),
          side := v.2 }

end Hand

variable {queue : String} {ι : Type} {hands : ι → Hand queue}

/-- A broker and the relays that share it. -/
structure Crew (hands : ι → Hand queue) where
  broker : Broker
  progress : (i : ι) → (hands i).Progress

namespace Crew

/-- A channel that one of the relays has. -/
def Mine (w : Crew hands) (channel : Nat) : Prop := ∃ i, (w.progress i).Mine channel

/-- What a crew can come to on a broker that was new. -/
inductive Reached (hands : ι → Hand queue) : Crew hands → Prop
  | start : Reached hands { broker := {}, progress := fun i => (hands i).first }
  | outside {w : Crew hands} {b : Broker} (h : Reached hands w)
      (ho : Source.Outside queue w.broker w.Mine b) : Reached hands { w with broker := b }
  | went {w w' : Crew hands} (h : Reached hands w) (i : ι)
      (hi : (hands i).Goes w.broker (w.progress i) w'.broker (w'.progress i))
      (hothers : ∀ j, j ≠ i → w'.progress j = w.progress j) : Reached hands w'

end Crew

end QueueRelay

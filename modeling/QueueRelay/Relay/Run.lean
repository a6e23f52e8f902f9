import QueueRelay.Backoff
import QueueRelay.Relay.Calls
import QueueRelay.Topology.Ensure
/-!
The relay: consume, forward, acknowledge.

A relay handles one message at a time.  It takes a delivery, hands it to the backend and
then disposes of it: what was delivered is acknowledged, everything else goes back to the
queue.  Only then does it take the next one, and the source holds back the next one until
then, so a slow backend slows the relay down instead of filling its memory.

A disposition that fails is not tried again.  Tags belong to a channel, so the relay opens
a new session, and the broker delivers again what the old one still held.

The loop has no end of its own.  It goes in rounds, each of them one delivery or one
attempt to subscribe again, and a run is given a number of rounds that it may take.
-/
namespace QueueRelay.Relay

/-- Deliveries that the source may have outstanding. -/
def prefetch : Nat := 1

/-- Where a relay consumes, and how. -/
structure Settings where
  queue : String
  consumerTag : String := "report-relay"
  /-- What to provision on the source first. -/
  topology : Option Topology := none
  backoff : Backoff := .standard

/-- Counters of one relay. -/
structure Stats where
  received : Nat := 0
  acked : Nat := 0
  requeued : Nat := 0
  /-- Panics of the backend. -/
  faults : Nat := 0
  /-- Deliveries that the source had delivered before. -/
  redelivered : Nat := 0
  sourceReconnects : Nat := 0
deriving DecidableEq

/-- A relay while it runs. -/
structure State (σ δ : Type) where
  source : Link σ := {}
  /-- The stream of deliveries, while there is one. -/
  stream : Option δ := none
  stats : Stats := {}
  /-- Attempts to subscribe since the stream was lost. -/
  resubscribes : Nat := 0
  /-- Connectivity failures in a row. -/
  streak : Nat := 0

/-- How a run ends. -/
inductive Finish where
  /-- It was told to stop. -/
  | stopped
  /-- It could not start. -/
  | refused (e : RelayError)
  /-- A delay was too long to be waited for, which it does not survive. -/
  | overflowed
deriving DecidableEq

/-- What comes after a round. -/
inductive Round (σ δ : Type) where
  /-- Another round. -/
  | go (r : State σ δ)
  /-- The relay was told to stop. -/
  | stop (r : State σ δ)
  /-- A delay was too long. -/
  | overflow (r : State σ δ)

variable {σ δ : Type}

/-- One more, up to the largest number of 32 bits. -/
def bump (n : Nat) : Nat := min (n + 1) 0xFFFFFFFF

/-! ### Changes of state -/

namespace State

/-- After a failure on the source: the stream is lost. -/
def lost (r : State σ δ) (reason : String) : State σ δ :=
  { r with source := r.source.degraded reason, stream := none }

/-- After a new stream was opened in place of a lost one. -/
def restored (r : State σ δ) (stream : δ) : State σ δ :=
  { r with
    stream := some stream
    resubscribes := 0
    stats := { r.stats with sourceReconnects := r.source.reconnects } }

/-- After a message was taken from the stream. -/
def took (r : State σ δ) (m : Message) : State σ δ :=
  { r with stats := { r.stats with
      received := r.stats.received + 1
      redelivered := if m.redelivered then r.stats.redelivered + 1 else r.stats.redelivered } }

/-- After the backend panicked. -/
def faulted (r : State σ δ) : State σ δ :=
  { r with stats := { r.stats with faults := r.stats.faults + 1 } }

/-- After a delivery was acknowledged. -/
def acked (r : State σ δ) : State σ δ :=
  { r with stats := { r.stats with acked := r.stats.acked + 1 } }

/-- After a delivery was given back. -/
def requeued (r : State σ δ) : State σ δ :=
  { r with stats := { r.stats with requeued := r.stats.requeued + 1 } }

end State

/-! ### Subscribing -/

/-- Starts a consumer on a session that holds back the next delivery. -/
def consumeOn (c : Settings) (s : σ) : Program (BrokerLink σ δ) (Except LinkError δ) := do
  match ← Link.ask (C := Channel.calls δ) s (.setPrefetch prefetch) with
  | .error e => return .error e
  | .ok _ => Link.ask (C := Channel.calls δ) s (.consume c.queue c.consumerTag)

/-- Subscribes on a live session. -/
def subscribe (c : Settings) (l : Link σ) :
    Program (BrokerLink σ δ) (Except LinkError δ × Link σ) := do
  match ← l.ensureLive with
  | (.error e, l) => return (.error e, l)
  | (.ok s, l) => return (← consumeOn c s, l)

/-! ### Starting and ending -/

/-- Provisions the source, if it is to be. -/
def provision (c : Settings) (s : σ) : Program (calls σ δ) (Except RelayError Unit) :=
  match c.topology with
  | none => return .ok ()
  | some t => do return (← onSource (onSession s t.ensure)).map fun _ => ()

/-- Connects the source, provisions it and establishes the backend. -/
def start (c : Settings) (r : State σ δ) :
    Program (calls σ δ) (Except RelayError Unit × State σ δ) := do
  let (session, source) ← onSource r.source.establish
  let r := { r with source := source }
  match session with
  | .error e => return (.error (.connection e), r)
  | .ok s =>
    match ← provision c s with
    | .error e => return (.error e, r)
    | .ok _ =>
      match ← establishBackend with
      | .error e => return (.error (.backend e), r)
      | .ok _ => return (.ok (), r)

/-- Starts, and subscribes for the first time. -/
def begin (c : Settings) (r : State σ δ) :
    Program (calls σ δ) (Except RelayError Unit × State σ δ) := do
  match ← start c r with
  | (.error e, r) => return (.error e, r)
  | (.ok _, r) =>
    match ← onSource (subscribe c r.source) with
    | (.error e, source) => return (.error (.connection e), { r with source := source })
    | (.ok stream, source) =>
      return (.ok (), { r with source := source, stream := some stream })

/-- Closes the backend, then the source. -/
def close (r : State σ δ) : Program (calls σ δ) (State σ δ) := do
  closeBackend
  return { r with source := ← onSource r.source.release }

/-! ### One message -/

/-- Hands a message to the backend.  A panic counts as a failure of unknown kind. -/
def forward (m : Message) (r : State σ δ) : Program (calls σ δ) (Outcome × State σ δ) := do
  let r := r.took m
  match ← hand m with
  | .outcome o => return (o, r)
  | .panicked detail => return (.unknownFailure ("backend panicked: " ++ detail), r.faulted)

/-- Acknowledges a delivery on a session, or gives it back. -/
def settle (s : σ) (tag : DeliveryTag) (o : Outcome) :
    Program (BrokerLink σ δ) (Except LinkError Unit) :=
  if o.isDelivered then Link.ask (C := Channel.calls δ) s (.ack tag)
  else Link.ask (C := Channel.calls δ) s (.nack tag true)

/-- Disposes of a delivery.  If that fails, the stream is lost. -/
def dispose (m : Message) (o : Outcome) (r : State σ δ) : Program (calls σ δ) (State σ δ) := do
  match r.source.session with
  | none => return r.lost LinkError.closed.message
  | some s =>
    match ← onSource (settle s m.tag o) with
    | .ok _ => return if o.isDelivered then r.acked else r.requeued
    | .error e => return r.lost e.message

/-- Waits before the next round if the backend cannot be reached. -/
def recover (c : Settings) (o : Outcome) (r : State σ δ) : Program (calls σ δ) (Round σ δ) := do
  match o with
  | .connectivityFailure _ =>
    let r := { r with streak := bump r.streak }
    match c.backoff.delay? r.streak with
    | none => return .overflow r
    | some d =>
      match ← pause d with
      | .stop => return .stop r
      | .elapsed => return .go r
  | _ => return .go { r with streak := 0 }

/-- Forwards a message and disposes of it. -/
def handle (c : Settings) (m : Message) (r : State σ δ) : Program (calls σ δ) (Round σ δ) := do
  let (o, r) ← forward m r
  let r ← dispose m o r
  recover c o r

/-! ### Rounds -/

/-- Takes the next delivery and handles it. -/
def deliver (c : Settings) (stream : δ) (r : State σ δ) : Program (calls σ δ) (Round σ δ) := do
  match ← next stream with
  | .stop => return .stop r
  | .message m => handle c m r
  | .failed e => return .go (r.lost e.message)
  | .ended => return .go (r.lost "consumer cancelled or channel closed")

/-- Waits, and tries to subscribe again. -/
def resubscribe (c : Settings) (r : State σ δ) : Program (calls σ δ) (Round σ δ) := do
  match c.backoff.delay? r.resubscribes with
  | none => return .overflow r
  | some d =>
    match ← pause d with
    | .stop => return .stop r
    | .elapsed =>
      let (stream, source) ← onSource (subscribe c r.source)
      let r := { r with source := source, resubscribes := bump r.resubscribes }
      match stream with
      | .ok stream => return .go (r.restored stream)
      | .error e => return .go { r with source := r.source.degraded e.message }

/-- One delivery, or one attempt to subscribe again. -/
def round (c : Settings) (r : State σ δ) : Program (calls σ δ) (Round σ δ) :=
  match r.stream with
  | some stream => deliver c stream r
  | none => resubscribe c r

/-- At most `n` rounds; nothing comes back if the relay would go on. -/
def rounds (c : Settings) : Nat → State σ δ → Program (calls σ δ) (Option Finish × State σ δ)
  | 0, r => return (none, r)
  | n + 1, r => do
    match ← round c r with
    | .go r => rounds c n r
    | .stop r => return (some .stopped, ← close r)
    | .overflow r => return (some .overflowed, r)

/-- Runs a relay from its start, for at most `n` rounds. -/
def run (c : Settings) (n : Nat) (r : State σ δ) :
    Program (calls σ δ) (Option Finish × State σ δ) := do
  match ← begin c r with
  | (.error e, r) => return (some (.refused e), ← close r)
  | (.ok _, r) => rounds c n r

end QueueRelay.Relay

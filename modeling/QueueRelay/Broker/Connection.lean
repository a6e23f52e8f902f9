import QueueRelay.Broker.State
/-!
Connections and channels, and what becomes of deliveries when they end.

A channel that closes gives every outstanding delivery back to the front of its queue, in
the order in which they had been delivered, each marked as redelivered.  Closing a
connection closes its channels.
-/
namespace QueueRelay.Broker

/-- Puts a delivery back in front of its queue, marked as redelivered. -/
def giveBack (d : Delivery) (queues : Table String Queue) : Table String Queue :=
  queues.modify d.queue fun q =>
    { q with ready := { d.copy with redelivered := true } :: q.ready }

/-- Puts deliveries back so that the first one is in front afterwards. -/
def giveBackAll (ds : List Delivery) (queues : Table String Queue) : Table String Queue :=
  ds.foldr giveBack queues

/-- Closes a channel, unless it is closed. -/
def closeChannel (b : Broker) (channel : Nat) (reason : String) : Broker :=
  match b.channels.get? channel with
  | some lane =>
    if lane.isOpen then
      { b with
        channels := b.channels.set channel { lane with isOpen := false, unacked := .empty }
        queues := giveBackAll (lane.unacked.entries.map Prod.snd) b.queues
        journal := b.journal ++ [.channelClosed channel reason] }
    else b
  | none => b

/-- The channels of a connection, the oldest first. -/
def channelsOf (b : Broker) (connection : Nat) : List Nat :=
  (b.channels.entries.filter fun c => c.2.connection = connection).map Prod.fst

/-- Closes a connection and its channels. -/
def closeConnection (b : Broker) (connection : Nat) (reason : String) : Broker :=
  (b.channelsOf connection).foldl (fun b c => b.closeChannel c reason)
    { b with connections := b.connections.filter (· ≠ connection) }

/-- Severs every connection. -/
def dropConnections (b : Broker) : Broker :=
  b.connections.foldl (fun b c => b.closeConnection c "connection reset by peer") b

/-- Opens a channel on a connection; its number is the new `lastId`. -/
def openChannel (b : Broker) (connection : Nat) : Broker :=
  { b with
    lastId := b.lastId + 1
    channels := b.channels.set (b.lastId + 1) { connection := connection } }

/-- Opens a connection with one channel on it, unless a refusal is due. -/
def connect (b : Broker) : Except LinkError Session × Broker :=
  if 0 < b.refusalsDue then
    (.error (.connectionFailed "connection refused"),
      { b with refusalsDue := b.refusalsDue - 1 })
  else
    let connection := b.lastId + 1
    let b := { b with
      lastId := connection
      connections := b.connections ++ [connection]
      connectionsOpened := b.connectionsOpened + 1 }
    let b := b.openChannel connection
    (.ok ⟨connection, b.lastId⟩, b)

/-- Whether a session's connection and channel are both open, and if not, which is not. -/
def check (b : Broker) (s : Session) : Except LinkError Unit :=
  if b.connections.contains s.connection then
    match b.channels.get? s.channel with
    | some lane => if lane.isOpen then .ok () else .error (.connectionLost "channel closed")
    | none => .error (.connectionLost "channel closed")
  else .error (.connectionLost "connection closed")

/-- Whether a session reports itself open. -/
def isOpen (b : Broker) (s : Session) : Bool :=
  match b.check s with
  | .ok _ => true
  | .error _ => false

/-- Closes a session at its client's wish. -/
def closeSession (b : Broker) (s : Session) : Broker :=
  b.closeConnection s.connection "closed by client"

/-- Puts a fresh channel in place of the session's own. -/
def reopen (b : Broker) (s : Session) : Except LinkError Unit × Session × Broker :=
  if b.connections.contains s.connection then
    let b := (b.closeChannel s.channel "reopened").openChannel s.connection
    (.ok (), ⟨s.connection, b.lastId⟩, b)
  else (.error (.connectionLost "connection closed"), s, b)

end QueueRelay.Broker

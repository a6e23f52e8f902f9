import QueueRelay.Channel
import QueueRelay.Topology
/-!
Making sure that a topology exists.

The exchange and the queue are first asked for without creating them, so a user who may
not create anything can run a relay on objects that are there.  A broker closes the
channel of one who asks for a missing object; the channel is then reopened and the object
declared for real.  Binding twice does no harm, so running this again changes nothing.
-/
namespace QueueRelay.Topology

variable {δ : Type}

/-- What was changed. -/
structure Report where
  exchangeCreated : Bool
  queueCreated : Bool
  /-- Number of keys bound. -/
  bindings : Nat
deriving DecidableEq

/-- Creates an object on a fresh channel. -/
def create (t : Topology) (name : String)
    (declare : Declaration → Program (Channel.calls δ) (Except LinkError Unit)) :
    Program (Channel.calls δ) (Except RelayError Bool) := do
  match ← Channel.reopen with
  | .error e => return .error (.provisioning name e)
  | .ok _ =>
    match ← declare (.active t.durable t.autoDelete) with
    | .error e => return .error (.provisioning name e)
    | .ok _ => return .ok true

/-- Makes sure that an object exists, and tells whether it had to be created. -/
def ensureObject (t : Topology) (name : String)
    (declare : Declaration → Program (Channel.calls δ) (Except LinkError Unit)) :
    Program (Channel.calls δ) (Except RelayError Bool) := do
  match ← declare .passive with
  | .ok _ => return .ok false
  | .error e =>
    if e.isNotFound then t.create name declare
    else return .error (.provisioning name e)

/-- Binds the queue to the exchange under each of the keys. -/
def bindAll (t : Topology) : List String → Program (Channel.calls δ) (Except RelayError Unit)
  | [] => return .ok ()
  | key :: rest => do
    match ← Channel.bind t.queue t.exchange key with
    | .error e => return .error (.provisioning ("binding '" ++ key ++ "'") e)
    | .ok _ => t.bindAll rest

/-- Makes sure that the exchange, the queue and the bindings exist. -/
def ensure (t : Topology) : Program (Channel.calls δ) (Except RelayError Report) := do
  match ← t.ensureObject t.exchange (Channel.declareExchange t.exchange t.kind) with
  | .error e => return .error e
  | .ok exchangeCreated =>
    match ← t.ensureObject t.queue (Channel.declareQueue t.queue) with
    | .error e => return .error e
    | .ok queueCreated =>
      match ← t.bindAll t.routingKeys with
      | .error e => return .error e
      | .ok _ => return .ok ⟨exchangeCreated, queueCreated, t.routingKeys.length⟩

end QueueRelay.Topology

import QueueRelay.Bus.Credentials
import QueueRelay.Sink.Broker
import QueueRelay.Sink.Bus
import QueueRelay.Sink.Cloud
/-!
Making the sink for a target.

The target is validated first, so a sink that was made has a place to send to.  Making a
sink opens nothing.
-/
namespace QueueRelay

/-- A sink of one of the three kinds that hold a link. -/
inductive LinkedSink (σ : Type) where
  | broker (s : BrokerSink σ)
  | cloud (s : CloudSink σ)
  | bus (s : BusSink σ)

namespace LinkedSink

variable {σ : Type}

def status : LinkedSink σ → SinkStatus
  | broker s => Sink.status s
  | cloud s => Sink.status s
  | bus s => Sink.status s

def destination : LinkedSink σ → String
  | broker s => s.destination
  | cloud s => s.destination
  | bus s => s.destination

def form : LinkedSink σ → String
  | broker s => s.form
  | cloud s => s.form
  | bus s => s.form

def link : LinkedSink σ → Link σ
  | broker s => s.link
  | cloud s => s.link
  | bus s => s.link

/-- The sink with another state of its link. -/
def withLink (l : Link σ) : LinkedSink σ → LinkedSink σ
  | broker s => broker { s with link := l }
  | cloud s => cloud { s with link := l }
  | bus s => bus { s with link := l }

end LinkedSink

/-- Where the cloud service of a target is. -/
def CloudTarget.endpoint (t : CloudTarget) : String :=
  match t.endpointUrl with
  | some url => url
  | none => "aws://" ++ t.region

/-- Where the bus of some credentials has the queue or topic called `name`. -/
def Bus.Credentials.endpoint (c : Bus.Credentials) (name : String) : String :=
  "sb://" ++ c.host ++ "/" ++ name

namespace BrokerSink

/-- The sink for a broker target. -/
def ofTarget {σ : Type} (name : String) (t : BrokerTarget) : Except LinkError (BrokerSink σ) :=
  (BrokerPlace.ofTarget t).map (ofPlace name t.broker.endpoint)

end BrokerSink

namespace CloudSink

/-- The sink for a cloud target. -/
def ofTarget {σ : Type} (name : String) (t : CloudTarget) : Except LinkError (CloudSink σ) :=
  (Place.ofCloudTarget t).map fun place => ofRoute name t.endpoint ⟨place, t.origin⟩

end CloudSink

namespace BusSink

/-- The sink for a bus target. -/
def ofTarget {σ : Type} (name : String) (t : BusTarget) : Except LinkError (BusSink σ) := do
  let credentials ← Bus.Credentials.parse t.connectionString.value
  let place ← Place.ofBusTarget t
  return ofPlace name (credentials.endpoint place.name) place

end BusSink

namespace Target

/-- The sink for a target, called after its kind. -/
def sinkFor {σ : Type} (name : String) (t : Target) : Except LinkError (LinkedSink σ) := do
  t.validate
  let name := name ++ "-" ++ t.kind
  match t with
  | localBroker t => return .broker (← BrokerSink.ofTarget name t)
  | cloudQueue t => return .cloud (← CloudSink.ofTarget name t)
  | managedBus t => return .bus (← BusSink.ofTarget name t)

end Target

end QueueRelay

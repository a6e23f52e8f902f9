import QueueRelay.ExchangeKind
import QueueRelay.Relay.Error
import QueueRelay.Text.Blank
/-!
The exchange, the queue and the bindings that a relay consumes from.
-/
namespace QueueRelay

/-- What has to exist on the source broker before consuming starts. -/
structure Topology where
  exchange : String := "upload_exchange"
  kind : ExchangeKind := .direct
  queue : String := "upload_queue"
  durable : Bool := true
  autoDelete : Bool := false
  /-- Keys under which the queue is bound to the exchange. -/
  routingKeys : List String :=
    ["metadata.verify", "upload.started", "upload.status", "upload.completed", "upload.routed"]
deriving DecidableEq

namespace Topology

/-- The upload pipeline's topology. -/
def standard : Topology := {}

/-- Checks that the names are not blank and that there is a key to bind. -/
def validate (t : Topology) : Except RelayError Unit := do
  if Text.allBlank t.exchange then throw (.config "topology.exchange must not be empty")
  if Text.allBlank t.queue then throw (.config "topology.queue must not be empty")
  if t.routingKeys.isEmpty then
    throw (.config "topology.routing_keys needs at least one key")

end Topology

end QueueRelay

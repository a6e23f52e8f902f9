import QueueRelay.Config
import QueueRelay.Relay.Run
/-!
The relay that a configuration describes.
-/
namespace QueueRelay.Relay

/-- The settings that a configuration gives a relay. -/
def Settings.ofConfig (c : Config) : Settings where
  queue := c.topology.queue
  consumerTag := c.relay.consumerTag
  topology := if c.relay.provision then some c.topology else none
  backoff := c.reconnect.toBackoff

end QueueRelay.Relay

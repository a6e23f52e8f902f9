import QueueRelay.Config.BrokerAddress
/-!
Where forwarded messages go.

Exactly one kind of target is active in a relay, and inside it one flag chooses between a
queue and a topic.
-/
namespace QueueRelay

/-- Another AMQP broker. -/
structure BrokerTarget where
  broker : BrokerAddress
  /-- Exchange to publish to in topic mode. -/
  exchange : String := ""
  /-- Fixed routing key of topic mode; without one the message's own key is used. -/
  routingKey : Option String := none
  /-- Queue to publish to in queue mode. -/
  queue : Option String := none
  useQueue : Bool := true
deriving DecidableEq

/-- The origin that cloud messages carry unless another one is set. -/
def standardOrigin : String := "RabbitMQ-Bridge"

/-- A cloud queue, named by its URL, or a cloud topic, named by its resource name. -/
structure CloudTarget where
  accessKeyId : String
  secretAccessKey : Secret
  region : String
  queueUrl : Option String := none
  topicArn : Option String := none
  /-- Address of the service; the region's own when unset. -/
  endpointUrl : Option String := none
  useQueue : Bool := true
  /-- Origin attribute of every message. -/
  origin : String := standardOrigin
deriving DecidableEq

/-- A queue or a topic of a managed bus. -/
structure BusTarget where
  connectionString : Secret
  queueName : Option String := none
  topicName : Option String := none
  useQueue : Bool := true
deriving DecidableEq

/-- The active target. -/
inductive Target where
  | localBroker (t : BrokerTarget)
  | cloudQueue (t : CloudTarget)
  | managedBus (t : BusTarget)
deriving DecidableEq

namespace Target

/-- The name of the kind of target. -/
def kind : Target → String
  | localBroker _ => "local_broker"
  | cloudQueue _ => "cloud_queue"
  | managedBus _ => "managed_bus"

/-- Whether the target is a queue. -/
def useQueue : Target → Bool
  | localBroker t => t.useQueue
  | cloudQueue t => t.useQueue
  | managedBus t => t.useQueue

/-- Checks that a field is given and not blank. -/
def require (field : String) (value : Option String) : Except LinkError Unit :=
  match value with
  | some v =>
    if Text.allBlank v then .error (.invalidConfig (field ++ " is required")) else .ok ()
  | none => .error (.invalidConfig (field ++ " is required"))

/-- Checks that the fields are given which the target's kind and mode need. -/
def validate : Target → Except LinkError Unit
  | localBroker t => do
    t.broker.validate
    if t.useQueue then require "queue" t.queue else require "exchange" (some t.exchange)
  | cloudQueue t => do
    require "access_key_id" (some t.accessKeyId)
    require "secret_access_key" (some t.secretAccessKey.value)
    require "region" (some t.region)
    if t.useQueue then require "queue_url" t.queueUrl else require "topic_arn" t.topicArn
  | managedBus t => do
    require "connection_string" (some t.connectionString.value)
    if t.useQueue then require "queue_name" t.queueName else require "topic_name" t.topicName

end Target

end QueueRelay

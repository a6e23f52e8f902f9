import QueueRelay.Config
import QueueRelay.Config.Reading
/-!
Configurations as untyped data, and back.

Every field is written, an absent option as null, and the target with the name of its
kind.  Reading takes standard values for fields that are missing, and knows the targets
under a second name each.
-/
namespace QueueRelay

/-- An optional value, null for none. -/
def Value.ofOption {α : Type} (write : α → Value) : Option α → Value
  | none => .null
  | some a => write a

/-- A whole number. -/
def Value.ofNat (n : Nat) : Value := .int (Int.ofNat n)

namespace ExchangeKind

def toValue (k : ExchangeKind) : Value := .text k.name

def ofValue? (r : Reading) (v : Value) : Option ExchangeKind :=
  (r.choice v).bind ofName?

end ExchangeKind

namespace Secret

def toValue (s : Secret) : Value := .text s.value

def ofValue? (r : Reading) (v : Value) : Option Secret := (r.text v).map Secret.mk

end Secret

namespace BrokerAddress

def toValue (b : BrokerAddress) : Value :=
  .record [("host", .text b.host), ("port", .ofNat b.port), ("username", .text b.username),
    ("password", b.password.toValue), ("vhost", .text b.vhost),
    ("heartbeat_secs", .ofNat b.heartbeatSecs)]

def ofValue? (r : Reading) (v : Value) : Option BrokerAddress := do
  let f ← Fields.ofValue? r 6 v
  return { host := ← f.required 0 "host" r.text
           port := ← f.withDefault 1 "port" (r.word 16) 5672
           username := ← f.withDefault 2 "username" r.text "guest"
           password := ← f.withDefault 3 "password" (Secret.ofValue? r) ⟨"guest"⟩
           vhost := ← f.withDefault 4 "vhost" r.text "/"
           heartbeatSecs := ← f.withDefault 5 "heartbeat_secs" (r.word 16) 600 }

end BrokerAddress

namespace BrokerTarget

def toFields (t : BrokerTarget) : List (String × Value) :=
  [("broker", t.broker.toValue), ("exchange", .text t.exchange),
    ("routing_key", .ofOption .text t.routingKey), ("queue", .ofOption .text t.queue),
    ("use_queue", .bool t.useQueue)]

def ofValue? (r : Reading) (v : Value) : Option BrokerTarget := do
  let f ← Fields.ofValue? r 5 v
  return { broker := ← f.required 0 "broker" (BrokerAddress.ofValue? r)
           exchange := ← f.withDefault 1 "exchange" r.text ""
           routingKey := ← f.withDefault 2 "routing_key" (Reading.nullable r.text) none
           queue := ← f.withDefault 3 "queue" (Reading.nullable r.text) none
           useQueue := ← f.withDefault 4 "use_queue" r.bool true }

end BrokerTarget

namespace CloudTarget

def toFields (t : CloudTarget) : List (String × Value) :=
  [("access_key_id", .text t.accessKeyId), ("secret_access_key", t.secretAccessKey.toValue),
    ("region", .text t.region), ("queue_url", .ofOption .text t.queueUrl),
    ("topic_arn", .ofOption .text t.topicArn), ("endpoint_url", .ofOption .text t.endpointUrl),
    ("use_queue", .bool t.useQueue), ("origin", .text t.origin)]

def ofValue? (r : Reading) (v : Value) : Option CloudTarget := do
  let f ← Fields.ofValue? r 8 v
  return { accessKeyId := ← f.required 0 "access_key_id" r.text
           secretAccessKey := ← f.required 1 "secret_access_key" (Secret.ofValue? r)
           region := ← f.required 2 "region" r.text
           queueUrl := ← f.withDefault 3 "queue_url" (Reading.nullable r.text) none
           topicArn := ← f.withDefault 4 "topic_arn" (Reading.nullable r.text) none
           endpointUrl := ← f.withDefault 5 "endpoint_url" (Reading.nullable r.text) none
           useQueue := ← f.withDefault 6 "use_queue" r.bool true
           origin := ← f.withDefault 7 "origin" r.text standardOrigin }

end CloudTarget

namespace BusTarget

def toFields (t : BusTarget) : List (String × Value) :=
  [("connection_string", t.connectionString.toValue),
    ("queue_name", .ofOption .text t.queueName), ("topic_name", .ofOption .text t.topicName),
    ("use_queue", .bool t.useQueue)]

def ofValue? (r : Reading) (v : Value) : Option BusTarget := do
  let f ← Fields.ofValue? r 4 v
  return { connectionString := ← f.required 0 "connection_string" (Secret.ofValue? r)
           queueName := ← f.withDefault 1 "queue_name" (Reading.nullable r.text) none
           topicName := ← f.withDefault 2 "topic_name" (Reading.nullable r.text) none
           useQueue := ← f.withDefault 3 "use_queue" r.bool true }

end BusTarget

namespace Target

/-- The key under which a target's kind is written. -/
def tagKey : String := "target"

/-- A target's fields after the name of its kind. -/
def toValue (t : Target) : Value :=
  .record ((tagKey, .text t.kind) :: match t with
    | localBroker t => t.toFields
    | cloudQueue t => t.toFields
    | managedBus t => t.toFields)

/-- The fields of the kind of target called `kind`. -/
def ofTagged? (kind : String) (v : Value) : Option Target :=
  if kind = "local_broker" ∨ kind = "rabbitmq" then
    (BrokerTarget.ofValue? .exact v).map localBroker
  else if kind = "cloud_queue" ∨ kind = "aws" then
    (CloudTarget.ofValue? .exact v).map cloudQueue
  else if kind = "managed_bus" ∨ kind = "azure" then
    (BusTarget.ofValue? .exact v).map managedBus
  else none

/-- A target: a record that names its kind, or a list that begins with the name.  Its
scalars are read exactly, wherever it stands. -/
def ofValue? : Value → Option Target
  | .record fields => do
    let some (_, .text kind) := fields.find? fun e => e.1 = tagKey | none
    ofTagged? kind (.record fields)
  | .list (.text kind :: rest) => ofTagged? kind (.list rest)
  | _ => none

end Target

namespace BackoffSettings

def toValue (s : BackoffSettings) : Value :=
  .record [("retry_delay_ms", .ofOption .ofNat s.retryDelayMs),
    ("backoff_multiplier", .ofOption .float s.multiplier),
    ("max_retry_delay_secs", .ofOption .ofNat s.maxDelaySecs)]

def ofValue? (r : Reading) (v : Value) : Option BackoffSettings := do
  let f ← Fields.ofValue? r 3 v
  return { retryDelayMs := ← f.nullable 0 "retry_delay_ms" (r.word 64)
           multiplier := ← f.nullable 1 "backoff_multiplier" r.float
           maxDelaySecs := ← f.nullable 2 "max_retry_delay_secs" (r.word 64) }

end BackoffSettings

namespace Identity

def toValue (i : Identity) : Value :=
  .record [("name", .text i.name), ("consumer_tag", .text i.consumerTag),
    ("provision", .bool i.provision)]

def ofValue? (r : Reading) (v : Value) : Option Identity := do
  let f ← Fields.ofValue? r 3 v
  return { name := ← f.withDefault 0 "name" r.text "report-relay"
           consumerTag := ← f.withDefault 1 "consumer_tag" r.text "report-relay"
           provision := ← f.withDefault 2 "provision" r.bool true }

end Identity

namespace Topology

def toValue (t : Topology) : Value :=
  .record [("exchange", .text t.exchange), ("exchange_kind", t.kind.toValue),
    ("queue", .text t.queue), ("durable", .bool t.durable),
    ("auto_delete", .bool t.autoDelete),
    ("routing_keys", .list (t.routingKeys.map .text))]

def ofValue? (r : Reading) (v : Value) : Option Topology := do
  let f ← Fields.ofValue? r 6 v
  return { exchange := ← f.withDefault 0 "exchange" r.text "upload_exchange"
           kind := ← f.withDefault 1 "exchange_kind" (ExchangeKind.ofValue? r) .direct
           queue := ← f.withDefault 2 "queue" r.text "upload_queue"
           durable := ← f.withDefault 3 "durable" r.bool true
           autoDelete := ← f.withDefault 4 "auto_delete" r.bool false
           routingKeys := ← f.withDefault 5 "routing_keys" (Reading.list r.text)
             Topology.standard.routingKeys }

end Topology

namespace Config

def toValue (c : Config) : Value :=
  .record [("relay", c.relay.toValue), ("source", c.source.toValue),
    ("topology", c.topology.toValue), ("destination", c.destination.toValue),
    ("reconnect", c.reconnect.toValue)]

def ofValue? (r : Reading) (v : Value) : Option Config := do
  let f ← Fields.ofValue? r 5 v
  return { relay := ← f.withDefault 0 "relay" (Identity.ofValue? r) {}
           source := ← f.withDefault 1 "source" (BrokerAddress.ofValue? r) .standard
           topology := ← f.withDefault 2 "topology" (Topology.ofValue? r) .standard
           destination := ← f.required 3 "destination" Target.ofValue?
           reconnect := ← f.withDefault 4 "reconnect" (BackoffSettings.ofValue? r) .standard }

end Config

end QueueRelay

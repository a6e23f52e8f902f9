import QueueRelay.Config.Target
/-!
The place at a destination to which a sink hands its messages.

It is taken from the target when the sink is made, and never changes.
-/
namespace QueueRelay

/-- A place on an AMQP broker. -/
inductive BrokerPlace where
  /-- A queue, reached through the exchange without a name. -/
  | queue (name : String)
  /-- An exchange; without a key of its own it is given each message's own key. -/
  | exchange (name : String) (key : Option String)
deriving DecidableEq

/-- A queue or a topic of a service. -/
inductive Place where
  | queue (name : String)
  | topic (name : String)
deriving DecidableEq

/-- A value that is there and not empty. -/
def Place.given? : Option String → Option String
  | some name => if name.isEmpty then none else some name
  | none => none

namespace BrokerPlace

/-- The place that a target selects. -/
def ofTarget (t : BrokerTarget) : Except LinkError BrokerPlace :=
  if t.useQueue then
    match Place.given? t.queue with
    | some name => .ok (queue name)
    | none => .error (.invalidConfig "queue is required in queue mode")
  else if t.exchange.isEmpty then
    .error (.invalidConfig "exchange is required in topic mode")
  else .ok (exchange t.exchange t.routingKey)

/-- The exchange and the key with which a message is published. -/
def aim (p : BrokerPlace) (m : Message) : String × String :=
  match p with
  | queue name => ("", name)
  | exchange name (some key) => (name, key)
  | exchange name none => (name, m.routingKey.getD "")

/-- The place in words. -/
def shown (endpoint : String) : BrokerPlace → String
  | queue name => endpoint ++ " queue '" ++ name ++ "'"
  | exchange name _ => endpoint ++ " exchange '" ++ name ++ "'"

/-- The form of a place inside record forms. -/
def form : BrokerPlace → String
  | queue name => "Queue(" ++ Text.quoted name ++ ")"
  | exchange name key =>
    Text.recordForm "Exchange"
      [("name", Text.quoted name), ("routing_key", Text.optional Text.quoted key)]

end BrokerPlace

namespace Place

/-- The place that a cloud target selects. -/
def ofCloudTarget (t : CloudTarget) : Except LinkError Place :=
  if t.useQueue then
    match given? t.queueUrl with
    | some url => .ok (queue url)
    | none => .error (.invalidConfig "queue_url is required")
  else
    match given? t.topicArn with
    | some arn => .ok (topic arn)
    | none => .error (.invalidConfig "topic_arn is required")

/-- The place that a bus target selects. -/
def ofBusTarget (t : BusTarget) : Except LinkError Place :=
  if t.useQueue then
    match given? t.queueName with
    | some name => .ok (queue name)
    | none => .error (.invalidConfig "queue_name is required in queue mode")
  else
    match given? t.topicName with
    | some name => .ok (topic name)
    | none => .error (.invalidConfig "topic_name is required in topic mode")

/-- The name without its kind. -/
def name : Place → String
  | queue name | topic name => name

/-- The place in words, the kind in front. -/
def shownKindFirst : Place → String
  | queue name => "queue " ++ name
  | topic name => "topic " ++ name

/-- The place in words, the kind behind. -/
def shownKindLast : Place → String
  | queue name => name ++ " (queue)"
  | topic name => name ++ " (topic)"

/-- The form of a place inside record forms. -/
def form : Place → String
  | queue name => "Queue(" ++ Text.quoted name ++ ")"
  | topic name => "Topic(" ++ Text.quoted name ++ ")"

end Place

end QueueRelay

import QueueRelay.Backoff
import QueueRelay.Config.Target
import QueueRelay.DotEnv
import QueueRelay.Topology
/-!
The configuration of a relay.

It can be read from typed data or put together from the keys of a `KEY=value` file.
Either way it is validated before it is used, and the first fault found is the one
reported: consumer tag, source, topology, target.
-/
namespace QueueRelay

/-- How a relay calls itself. -/
structure Identity where
  name : String := "report-relay"
  /-- Tag under which it consumes. -/
  consumerTag : String := "report-relay"
  /-- Whether it declares the source topology at startup. -/
  provision : Bool := true
deriving DecidableEq

/-- Everything a relay has to know. -/
structure Config where
  relay : Identity := {}
  source : BrokerAddress := .standard
  topology : Topology := .standard
  destination : Target
  reconnect : BackoffSettings := .standard

namespace Config

/-- Checks every part, in order. -/
def validate (c : Config) : Except RelayError Unit := do
  if Text.allBlank c.relay.consumerTag then
    throw (.config "relay.consumer_tag must not be empty")
  (c.source.validate).mapError fun e => .config ("source: " ++ e.message)
  c.topology.validate
  (c.destination.validate).mapError fun e => .config ("destination: " ++ e.message)

/-! ### From the keys of a file -/

/-- The broker that four keys describe; absent and empty ones take standard values. -/
def brokerOf (d : DotEnv) (host user password vhost : String) : BrokerAddress where
  host := d.getOr host "localhost"
  username := d.getOr user "guest"
  password := ⟨d.getOr password "guest"⟩
  vhost := d.getOr vhost "/"

/-- The cloud target that the keys describe. -/
def cloudTargetOf (d : DotEnv) (useQueue : Bool) : CloudTarget where
  accessKeyId := d.getOr "aws_access_key_id" ""
  secretAccessKey := ⟨d.getOr "aws_secret_access_key" ""⟩
  region := d.getOr "aws_region" ""
  queueUrl := d.nonEmpty? "aws_queue_url"
  topicArn := d.nonEmpty? "aws_topic_arn"
  endpointUrl := d.nonEmpty? "aws_endpoint_url"
  useQueue := useQueue

/-- The bus target that the keys describe. -/
def busTargetOf (d : DotEnv) (useQueue : Bool) : BusTarget where
  connectionString := ⟨d.getOr "azure_service_bus_connection_str" ""⟩
  queueName := d.nonEmpty? "azure_queue_name"
  topicName := d.nonEmpty? "azure_topic_name"
  useQueue := useQueue

/-- The broker target that the keys describe. -/
def brokerTargetOf (d : DotEnv) (useQueue : Bool) : BrokerTarget where
  broker := brokerOf d "target_rabbitmq_host" "target_rabbitmq_user"
    "target_rabbitmq_password" "target_rabbitmq_vhost"
  exchange := d.getOr "target_rabbitmq_exchange" ""
  routingKey := d.nonEmpty? "target_rabbitmq_routing_key"
  queue := d.nonEmpty? "target_rabbitmq_queue"
  useQueue := useQueue

/-- The target that the keys select and describe. -/
def targetOf (d : DotEnv) : Except RelayError Target :=
  let useQueue := d.getBool "use_queue" true
  let service := Text.asciiLower (d.getOr "target_service" "")
  if service = "aws" then .ok (.cloudQueue (cloudTargetOf d useQueue))
  else if service = "azure" then .ok (.managedBus (busTargetOf d useQueue))
  else if service = "rabbitmq" then .ok (.localBroker (brokerTargetOf d useQueue))
  else if service = "" then .error (.config "target_service is required")
  else
    .error (.config
      ("unknown target_service '" ++ service ++ "', expected aws, azure or rabbitmq"))

/-- The configuration that the keys describe, validated. -/
def ofDotEnv (d : DotEnv) : Except RelayError Config := do
  let destination ← targetOf d
  let c : Config := {
    source := brokerOf d "rabbitmq_host" "rabbitmq_user" "rabbitmq_password" "rabbitmq_vhost"
    topology :=
      { exchange := d.getOr "rabbitmq_exchange_name" "upload_exchange"
        queue := d.getOr "queue_name" "upload_queue" }
    destination := destination }
  c.validate
  return c

/-- The configuration in a `KEY=value` file that holds `bytes`, or that is not there. -/
def ofDotEnvFile (vars : DotEnv.Variables) (path : String) (bytes : Option ByteArray) :
    Except RelayError Config := do
  let d ← (DotEnv.load vars path bytes).mapError fun e => .config e.message
  ofDotEnv d

end Config

end QueueRelay

import QueueRelay.Broker.Delivery
import QueueRelay.Health.Report
import QueueRelay.Relay.Run
import QueueRelay.Sink.Build
import QueueRelay.Sink.Collector
/-!
What can be done in a simulated world, and what is answered.

Brokers, connectors, endpoints, sessions, streams, managers and sinks live in the world
under names.  An action does one thing to one of them.  A plan runs a relay between a
connector and a sink, with cues that act on the world at given times meanwhile.
-/
namespace QueueRelay.Simulation

/-- A method of a connector that can be made to fail. -/
inductive Method where
  | connect
  | close
  | declareExchange
  | declareQueue
  | bind
  | setPrefetch
  | publish
  | consume
  | ack
  | nack
  | reopen
  | next
deriving DecidableEq

/-- The `count`-th call of a method fails. -/
structure Fault where
  method : Method
  /-- Which call, counted from one. -/
  count : Nat
  error : LinkError

/-- What a scripted endpoint was asked. -/
inductive Entry where
  | connect
  | connectFailed
  | queue (url body origin : String)
  | topic (arn body origin : String)
  | body (bytes : ByteArray)
  | sendFailed
  | close

/-- New instructions for a scripted endpoint. -/
structure Instructions where
  /-- Results of coming attempts to connect; none is a success. -/
  connects : List (Option LinkError) := []
  /-- Results of coming sends. -/
  sends : List (Option LinkError) := []
  /-- Results of coming closes. -/
  closes : List (Option LinkError) := []
  /-- Whether new sessions report themselves open. -/
  openOnConnect : Option Bool := none
  connectDelayMs : Option Nat := none
  sendDelayMs : Option Nat := none

/-- Where sessions come from. -/
inductive Origin where
  /-- The broker behind a named connector. -/
  | connector (id : String)
  /-- A named scripted endpoint. -/
  | script (id : String)
  /-- A broker on the network, of which there is none here. -/
  | address (b : BrokerAddress)

/-- A sink to be made. -/
inductive SinkPlan where
  | collector (c : Collector)
  | refuser (r : Refuser)
  | brokerAt (name connector : String) (place : BrokerPlace)
  | brokerFor (name connector : String) (t : BrokerTarget)
  | cloudAt (name script : String) (route : Cloud.Route)
  | cloudFor (name script : String) (t : CloudTarget)
  | busAt (name script : String) (place : Place)
  | target (name : String) (t : Target)

/-- An operation on a manager. -/
inductive ManagerCall where
  | establish
  | ensureLive
  | degrade (reason : String)
  | release
  /-- Closes the session without telling the manager. -/
  | closeSession

/-- An operation on a collector that arranges what it will do. -/
inductive Arrangement where
  | failBody (body : ByteArray) (error : LinkError) (times : Nat)
  | panicOnBody (body : ByteArray)
  | refuse (count : Nat)
  | delay (ms : Nat)
  | disconnect

/-- An operation on a broker that needs no session. -/
inductive BrokerCall where
  | declareQueue (name : String)
  | declareExchange (name : String) (kind : ExchangeKind)
  | bind (b : Broker.Binding)
  /-- Declares and binds the standard topology. -/
  | provision
  | refuseConnects (count : Nat)
  | denyDeclarations (deny : Bool)
  | nackPublishes (count : Nat)
  | dropConnections

/-- One thing done to the world. -/
inductive Action where
  | newBroker (id : String)
  | newConnector (id broker : String) (faults : List Fault)
  | onBroker (id : String) (c : BrokerCall)
  | publish (broker exchange key : String) (payload : ByteArray)
  | events (broker : String) (skip : Nat)
  | inspectBroker (broker : String) (queues exchanges : List String)
  | awaitAcks (broker : String) (count timeoutMs : Nat)
  | connect (id connector : String)
  | sessionIsOpen (session : String)
  | sessionChannel (session : String)
  | ask (session : String) (c : Channel.Call)
  | consume (session stream queue : String)
  | next (stream : String)
  | closeSession (session : String)
  | ensure (session : String) (t : Topology)
  | newScript (id endpoint : String)
  | instruct (script : String) (i : Instructions)
  | dropSessions (script : String)
  | scriptLog (script : String)
  | newManager (id : String) (o : Origin)
  | managerState (id : String)
  | manage (id : String) (c : ManagerCall)
  | managerForm (id : String)
  | newSink (id : String) (p : SinkPlan)
  | establish (sink : String)
  | transmit (sink : String) (m : Message)
  | send (sink : String) (m : Message)
  | closeSink (sink : String)
  | sinkState (sink : String)
  | sinkForm (sink : String)
  | arrange (sink : String) (a : Arrangement)
  | collectorState (sink : String)
  | checkSource (o : Origin) (limitMs : Nat)
  | checkSink (sink : String) (limitMs : Nat)
  | sleep (ms : Nat)

/-! ### Answers -/

/-- What can be seen of a queue. -/
structure QueueView where
  durable : Bool
  payloads : List ByteArray

/-- What can be seen of a broker. -/
structure BrokerView where
  queues : List (String × Option QueueView)
  exchanges : List (String × Option ExchangeKind)
  bindings : List Broker.Binding
  unacked : Nat
  connections : Nat
  acked : List ByteArray
  nacked : List ByteArray

/-- What can be seen of a manager. -/
structure ManagerView where
  phase : Phase
  isLive : Bool
  reconnects : Nat
  lastError : Option String
  endpoint : String

/-- What can be seen of a sink. -/
structure SinkView where
  isConnected : Bool
  status : SinkStatus

/-- What came of asking a stream for its next delivery. -/
inductive NextView where
  | noStream
  | failed (e : LinkError)
  | taken (t : Broker.Taken)

/-- The answer to an action. -/
inductive Answer where
  | done
  | flag (b : Bool)
  | number (n : Nat)
  | text (s : String)
  | result (r : Except LinkError Unit)
  | published (r : Except LinkError PublishStatus)
  | connected (r : Except LinkError (Nat × String))
  | events (l : List Broker.Event)
  | broker (v : BrokerView)
  | next (v : NextView)
  | ensured (r : Except RelayError Topology.Report)
  | entries (l : List Entry)
  | manager (v : ManagerView)
  /-- Nothing as a result: there was no session to act on. -/
  | managed (r : Option (Except LinkError Unit)) (v : ManagerView)
  | made (r : Except LinkError (String × SinkStatus))
  | sinkResult (r : Except LinkError Unit) (v : SinkView)
  | sent (o : Outcome) (v : SinkView)
  | sink (destination : String) (v : SinkView)
  | collector (c : Collector)
  | report (r : Health.Report)
  | sinkReport (r : Health.Report) (v : SinkView)
  | panicked (p : Panic)
  /-- Nothing in the world has the name that the action gives. -/
  | unknown (name : String)

/-! ### Plans -/

/-- Actions that happen while a relay runs. -/
structure Cue where
  /-- Time since the cue before, or since the run began. -/
  afterMs : Nat
  actions : List Action
  /-- Whether the relay is then told to stop. -/
  stop : Bool

/-- A kind of event that is counted on the source broker. -/
inductive Counted where
  | acked
  | nacked
  | delivered

/-- The relay is told to stop when the broker has seen so many of these events. -/
structure Goal where
  counted : Counted
  count : Nat

/-- A run of a relay. -/
structure Plan where
  connector : String
  sink : String
  settings : Relay.Settings
  goals : List Goal
  cues : List Cue

/-- A cue that came: when, counted from the beginning of the run, and its answers. -/
structure PlayedCue where
  atMs : Nat
  answers : List Answer

/-- What came of a run. -/
structure Performance where
  finish : Option Relay.Finish
  stats : Relay.Stats
  elapsedMs : Nat
  cues : List PlayedCue
  backend : SinkStatus

end QueueRelay.Simulation

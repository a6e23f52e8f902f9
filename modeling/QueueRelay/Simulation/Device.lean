import QueueRelay.Health.Check
import QueueRelay.Simulation.Session
/-!
Sinks in a simulated world.
-/
namespace QueueRelay.Simulation

/-- The broker behind a sink's link. -/
def overBroker {α : Type} (clock : Clock) (o : Origin)
    (p : Program (BrokerLink Nat Broker.Stream) α) : Sim α :=
  p.runIn (answerLink clock o askChannel)

/-- The cloud behind a sink's link. -/
def overCloud {α : Type} (clock : Clock) (o : Origin)
    (p : Program (Link.calls Cloud.calls Nat) α) : Sim α :=
  p.runIn (answerLink clock o (askCloud clock))

/-- The bus behind a sink's link. -/
def overBus {α : Type} (clock : Clock) (o : Origin)
    (p : Program (Link.calls Bus.calls Nat) α) : Sim α :=
  p.runIn (answerLink clock o (askBus clock))

/-- Puts a sink with a link back after an operation. -/
def putBack {α : Type} (id : String) (o : Origin) (r : α × LinkedSink Nat) : Sim α := do
  setSink id (.linked o r.2)
  return r.1

/-- An operation's result with the sink in its common form. -/
def lift {α S : Type} (into : S → LinkedSink Nat) (r : α × S) : α × LinkedSink Nat :=
  (r.1, into r.2)

/-! ### Collectors

A collector is shared: what a cue does to it counts at once, also while the collector
takes its time over a message.
-/

/-- The collector with a name. -/
def collector (id : String) : Sim Collector := do
  match ← named World.sinks id with
  | .collector c => return c
  | _ => throw (.unknown id)

/-- Changes a collector with an operation that has a result. -/
def onCollector {α : Type} (id : String) (f : Collector → α × Collector) : Sim α := do
  let (a, c) := f (← collector id)
  setSink id (.collector c)
  return a

/-- One transmission through a collector. -/
def collect (clock : Clock) (id : String) (m : Message) : Sim (Except LinkError Unit) := do
  if let some ms := (← collector id).delayMs then clock ms
  match ← onCollector id (Collector.transmit m) with
  | .ok r => return r
  | .error p => throw (.panic p)

/-- The answer to a call on a collector. -/
def answerCollector (clock : Clock) (id : String) :
    (a : Attempt.calls.Call) → Sim (Attempt.calls.Answer a)
  | .establish => onCollector id Collector.establish
  | .transmit m => collect clock id m

/-- The answer to a call on a sink that accepts nothing. -/
def answerRefuser (r : Refuser) : (a : Attempt.calls.Call) → Sim (Attempt.calls.Answer a)
  | .establish => return r.establish
  | .transmit _ => return r.transmit

/-! ### Operations -/

/-- Opens the way to the destination.  Until that is done the old session is gone, which
is how the link stays if it is given up. -/
def establish (clock : Clock) (id : String) : Sim (Except LinkError Unit) := do
  match ← named World.sinks id with
  | .collector _ => onCollector id Collector.establish
  | .refuser r => return r.establish
  | .linked o s =>
    setSink id (.linked o (s.withLink s.link.interrupted))
    match s with
    | .broker s => putBack id o (lift .broker (← overBroker clock o (Sink.establish s)))
    | .cloud s => putBack id o (lift .cloud (← overCloud clock o (Sink.establish s)))
    | .bus s => putBack id o (lift .bus (← overBus clock o (Sink.establish s)))

/-- Hands over a message once. -/
def transmit (clock : Clock) (id : String) (m : Message) : Sim (Except LinkError Unit) := do
  match ← named World.sinks id with
  | .collector _ => collect clock id m
  | .refuser r => return r.transmit
  | .linked o (.broker s) =>
    putBack id o (lift .broker (← overBroker clock o (BrokerSink.transmit m s)))
  | .linked o (.cloud s) =>
    putBack id o (lift .cloud (← overCloud clock o (CloudSink.transmit m s)))
  | .linked o (.bus s) =>
    putBack id o (lift .bus (← overBus clock o (BusSink.transmit m s)))

/-- Sends a message. -/
def send (clock : Clock) (id : String) (m : Message) : Sim Outcome := do
  match ← named World.sinks id with
  | .collector _ => (Sink.send m).runIn (answerCollector clock id)
  | .refuser r => (Sink.send m).runIn (answerRefuser r)
  | .linked o (.broker s) =>
    putBack id o (lift .broker (← overBroker clock o (BrokerSink.send m s)))
  | .linked o (.cloud s) =>
    putBack id o (lift .cloud (← overCloud clock o (CloudSink.send m s)))
  | .linked o (.bus s) =>
    putBack id o (lift .bus (← overBus clock o (BusSink.send m s)))

/-- Closes a sink. -/
def closeSink (clock : Clock) (id : String) : Sim Unit := do
  match ← named World.sinks id with
  | .collector c => setSink id (.collector c.close)
  | .refuser _ => return ()
  | .linked o (.broker s) => setSink id (.linked o (.broker (← overBroker clock o s.close)))
  | .linked o (.cloud s) => setSink id (.linked o (.cloud (← overCloud clock o s.close)))
  | .linked o (.bus s) => setSink id (.linked o (.bus (← overBus clock o s.close)))

/-! ### Views -/

/-- Whether a sink says that it is connected. -/
def isConnected (id : String) : Sim Bool := do
  match ← named World.sinks id with
  | .collector c => return c.connected
  | .refuser _ => return false
  | .linked o s => (s.link.isLive (C := silent)).runIn (answerSilent advance o)

def statusOf (id : String) : Sim SinkStatus := do
  match ← named World.sinks id with
  | .collector c => return c.status
  | .refuser r => return r.status
  | .linked _ s => return s.status

def destinationOf (id : String) : Sim String := do
  match ← named World.sinks id with
  | .collector c => return c.destination
  | .refuser _ => return Refuser.destination
  | .linked _ s => return s.destination

def viewSink (id : String) : Sim SinkView := do
  return ⟨← isConnected id, ← statusOf id⟩

/-! ### Health -/

/-- Does something that may take only until `deadline`. -/
def inTime {α : Type} (deadline : Nat) (act : Clock → Sim α) : Sim (Health.Timed α) :=
  tryCatch (Health.Timed.inTime <$> act (advanceUntil deadline)) fun
    | .late => return .late
    | e => throw e

/-- Checks that sessions can be had. -/
def checkSource (o : Origin) (limitMs : Nat) : Sim Health.Report := do
  let answer : (c : (Health.sourceCalls Nat).Call) → Sim ((Health.sourceCalls Nat).Answer c)
    | .connect limit => do inTime ((← get).now + limit.millisUp) fun clock => connect clock o
    | .isOpen h => isOpen h
    | .close h => closeSession h
  (Health.checkSource (← endpointOf o) (.ofMillis limitMs)).runIn answer

/-- Checks that a sink can be established. -/
def checkSink (clock : Clock) (id : String) (limitMs : Nat) : Sim Health.Report := do
  let answer : (c : Health.sinkCalls.Call) → Sim (Health.sinkCalls.Answer c)
    | .establish limit => do
      inTime ((← get).now + limit.millisUp) fun clock => establish clock id
    | .isConnected => isConnected id
    | .close => closeSink clock id
  (Health.checkSink (← destinationOf id) (.ofMillis limitMs)).runIn answer

end QueueRelay.Simulation

import QueueRelay.Simulation.Device
/-!
Performing actions.

Every action is answered, also one that panics or that names something unknown; the world
keeps what was done until then, and the next action goes on from there.
-/
namespace QueueRelay.Simulation

/-! ### Brokers -/

/-- A broker with the standard exchange, queue and bindings. -/
def provision (b : Broker) : Broker :=
  let t := Topology.standard
  t.routingKeys.foldl (fun b key => b.addBinding ⟨t.queue, t.exchange, key⟩)
    ((b.ensureExchange t.exchange .direct).ensureQueue t.queue)

def applyToBroker (c : BrokerCall) (b : Broker) : Broker :=
  match c with
  | .declareQueue name => b.ensureQueue name
  | .declareExchange name kind => b.ensureExchange name kind
  | .bind x => b.addBinding x
  | .provision => provision b
  | .refuseConnects count => { b with refusalsDue := count }
  | .denyDeclarations deny => { b with deniesDeclarations := deny }
  | .nackPublishes count => { b with nacksDue := count }
  | .dropConnections => b.dropConnections

/-- What can be seen of a queue. -/
def viewQueue (q : Broker.Queue) : QueueView := ⟨q.durable, q.ready.map (·.payload)⟩

/-- What can be seen of a broker. -/
def viewBroker (b : Broker) (queues exchanges : List String) : BrokerView where
  queues := queues.map fun name => (name, (b.queues.get? name).map viewQueue)
  exchanges := exchanges.map fun name => (name, (b.exchanges.get? name).map (·.kind))
  bindings := b.bindings
  unacked := b.unackedCount
  connections := b.connectionsOpened
  acked := b.acked
  nacked := b.nacked

/-- Waits until a broker has seen so many acknowledgements.  Nothing else happens
meanwhile, so either they are there or the wait is in vain. -/
def awaitAcks (clock : Clock) (broker : String) (count timeoutMs : Nat) :
    Sim (Except LinkError Unit) := do
  if count ≤ (← named World.brokers broker).acked.length then return .ok ()
  else
    clock timeoutMs
    return .error (.other "timed out waiting for broker events")

/-! ### Sessions -/

/-- The handle of a session with a name. -/
def handleOf (id : String) : Sim Nat := named World.named id

/-- The channel that a session uses. -/
def channelOf (h : Nat) : Sim Nat := do
  match ← session h with
  | .broker _ s => return s.channel
  | .script id _ => throw (.unknown id)

/-- Opens a session and gives it a name. -/
def connectAs (id connector : String) : Sim (Except LinkError (Nat × String)) := do
  match ← connectBroker connector with
  | .error e => return .error e
  | .ok h =>
    modify fun w => { w with named := w.named.set id h }
    return .ok (← channelOf h, ← endpointOf (.connector connector))

/-- The answer to a call on a session. -/
def answerOf : (c : Channel.Call) → (Channel.calls Broker.Stream).Answer c → Answer
  | .publish _ _ _ _, r => .published r
  | .consume _ _, r => .result (r.map fun _ => ())
  | .declareExchange _ _ _, r => .result r
  | .declareQueue _ _, r => .result r
  | .bind _ _ _, r => .result r
  | .setPrefetch _, r => .result r
  | .ack _, r => .result r
  | .nack _ _, r => .result r
  | .reopen, r => .result r

/-- Starts a consumer and gives its stream a name. -/
def consumeAs (id stream queue : String) : Sim (Except LinkError Unit) := do
  let h ← handleOf id
  match ← askChannel h (.consume queue "consumer"), ← session h with
  | .ok t, .broker connector _ =>
    modify fun w => { w with streams := w.streams.set stream ⟨connector, t⟩ }
    return .ok ()
  | .error e, _ => return .error e
  | _, .script _ _ => return .error .closed

/-- Asks a stream for its next delivery without waiting for one. -/
def nextOf (id : String) : Sim NextView := do
  match (← get).streams.get? id with
  | none => return .noStream
  | some t =>
    match ← countCall t.connector .next with
    | (some e, _) => return .failed e
    | (none, _) => return .taken (← takeNow t)

/-- Makes sure of a topology on a session. -/
def ensureOn (id : String) (t : Topology) : Sim (Except RelayError Topology.Report) := do
  let h ← handleOf id
  t.ensure.runIn (askChannel h)

/-! ### Scripted endpoints -/

/-- Gives an endpoint new instructions. -/
def Script.instruct (s : Script) (i : Instructions) : Script :=
  { s with
    connects := s.connects ++ i.connects
    sends := s.sends ++ i.sends
    closes := s.closes ++ i.closes
    openOnConnect := i.openOnConnect.getD s.openOnConnect
    connectDelayMs := i.connectDelayMs.getD s.connectDelayMs
    sendDelayMs := i.sendDelayMs.getD s.sendDelayMs }

/-- A session as its endpoint leaves it when it drops all its sessions. -/
def Session.droppedBy (id : String) : Session → Session
  | .script owner isOpen => .script owner (isOpen && owner != id)
  | s => s

/-- Drops the sessions of an endpoint. -/
def dropSessions (id : String) : Sim Unit :=
  modify fun w => { w with
    sessions := ⟨w.sessions.entries.map fun (h, s) => (h, s.droppedBy id)⟩ }

/-! ### Managers -/

def viewManager (m : Manager) : Sim ManagerView := do
  return { phase := m.link.phase
           isLive := ← (m.link.isLive (C := silent)).runIn (answerSilent advance m.origin)
           reconnects := m.link.reconnects
           lastError := m.link.lastError
           endpoint := ← endpointOf m.origin }

/-- Performs an operation on a link; answers its result and the link afterwards. -/
def manage (clock : Clock) (m : Manager) :
    ManagerCall → Sim (Option (Except LinkError Unit) × Link Nat)
  | .establish => do
    let (r, l) ← (m.link.establish (C := silent)).runIn (answerSilent clock m.origin)
    return (some (r.map fun _ => ()), l)
  | .ensureLive => do
    let (r, l) ← (m.link.ensureLive (C := silent)).runIn (answerSilent clock m.origin)
    return (some (r.map fun _ => ()), l)
  | .degrade reason => return (some (.ok ()), m.link.degraded reason)
  | .release => do
    return (some (.ok ()),
      ← (m.link.release (C := silent)).runIn (answerSilent clock m.origin))
  | .closeSession => do
    match m.link.session with
    | none => return (none, m.link)
    | some h => return (some (← closeSession h), m.link)

/-! ### Sinks -/

/-- The sink that a plan describes. -/
def makeSink : SinkPlan → Sim (Except LinkError Device)
  | .collector c => return .ok (.collector c)
  | .refuser r => return .ok (.refuser r)
  | .brokerAt name connector place => do
    let o := Origin.connector connector
    return .ok (.linked o (.broker (.ofPlace name (← endpointOf o) place)))
  | .brokerFor name connector t => do
    let o := Origin.connector connector
    let endpoint ← endpointOf o
    return (BrokerPlace.ofTarget t).map fun place =>
      .linked o (.broker (.ofPlace name endpoint place))
  | .cloudAt name script route => do
    let o := Origin.script script
    return .ok (.linked o (.cloud (.ofRoute name (← endpointOf o) route)))
  | .cloudFor name script t => do
    let o := Origin.script script
    let endpoint ← endpointOf o
    return (Place.ofCloudTarget t).map fun place =>
      .linked o (.cloud (.ofRoute name endpoint ⟨place, t.origin⟩))
  | .busAt name script place => do
    let o := Origin.script script
    return .ok (.linked o (.bus (.ofPlace name (← endpointOf o) place)))
  | .target name t =>
    return (Target.sinkFor name t).map (.linked (.address .standard))

/-- Makes a sink and gives it a name. -/
def newSink (id : String) (p : SinkPlan) : Sim (Except LinkError (String × SinkStatus)) := do
  match ← makeSink p with
  | .error e => return .error e
  | .ok d =>
    setSink id d
    return .ok (← destinationOf id, ← statusOf id)

/-- Arranges what a collector will do. -/
def applyToCollector (a : Arrangement) (c : Collector) : Collector :=
  match a with
  | .failBody body error times => { c with failures := c.failures ++ [⟨body, error, times⟩] }
  | .panicOnBody body => { c with panics := c.panics ++ [body] }
  | .refuse count => { c with refusalsDue := count }
  | .delay ms => { c with delayMs := some ms }
  | .disconnect => { c with connected := false }

/-- The record form of a sink. -/
def formOf (id : String) : Sim String := do
  match ← named World.sinks id with
  | .linked _ s => return s.form
  | .collector c => return c.form
  | .refuser r => return r.form

/-! ### All actions -/

/-- Performs an action. -/
def act (clock : Clock) : Action → Sim Answer
  | .newBroker id => do
    setBroker id {}
    setConnector id { broker := id }
    return .done
  | .newConnector id broker faults => do
    setConnector id { broker := broker, faults := faults }
    return .done
  | .onBroker id c => do
    onBroker id fun b => ((), applyToBroker c b)
    return .done
  | .publish broker exchange key payload =>
    .flag <$> onBroker broker fun b => b.publishOutside exchange key payload
  | .events broker skip => return .events ((← named World.brokers broker).log.drop skip)
  | .inspectBroker broker queues exchanges => do
    return .broker (viewBroker (← named World.brokers broker) queues exchanges)
  | .awaitAcks broker count timeoutMs => .result <$> awaitAcks clock broker count timeoutMs
  | .connect id connector => .connected <$> connectAs id connector
  | .sessionIsOpen id => do return .flag (← isOpen (← handleOf id))
  | .sessionChannel id => do return .number (← channelOf (← handleOf id))
  | .ask id c => do return answerOf c (← askChannel (← handleOf id) c)
  | .consume id stream queue => .result <$> consumeAs id stream queue
  | .next stream => .next <$> nextOf stream
  | .closeSession id => do return .result (← closeSession (← handleOf id))
  | .ensure id t => .ensured <$> ensureOn id t
  | .newScript id endpoint => do
    setScript id { endpoint := endpoint }
    return .done
  | .instruct id i => do
    setScript id ((← named World.scripts id).instruct i)
    return .done
  | .dropSessions id => do
    dropSessions id
    return .done
  | .scriptLog id => return .entries (← named World.scripts id).log
  | .newManager id o => do
    let m : Manager := { origin := o }
    setManager id m
    return .manager (← viewManager m)
  | .managerState id => do return .manager (← viewManager (← named World.managers id))
  | .manage id c => do
    let m ← named World.managers id
    let (r, l) ← manage clock m c
    let m := { m with link := l }
    setManager id m
    return .managed r (← viewManager m)
  | .managerForm id => do
    let m ← named World.managers id
    let endpoint ← endpointOf m.origin
    return .text (m.link.form endpoint ++ " " ++ endpoint)
  | .newSink id p => .made <$> newSink id p
  | .establish id => do return .sinkResult (← establish clock id) (← viewSink id)
  | .transmit id m => do return .sinkResult (← transmit clock id m) (← viewSink id)
  | .send id m => do return .sent (← send clock id m) (← viewSink id)
  | .closeSink id => do
    closeSink clock id
    return .sinkResult (.ok ()) (← viewSink id)
  | .sinkState id => do return .sink (← destinationOf id) (← viewSink id)
  | .sinkForm id => .text <$> formOf id
  | .arrange id a => do
    onCollector id fun c => ((), applyToCollector a c)
    return .done
  | .collectorState id => .collector <$> collector id
  | .checkSource o limitMs => .report <$> checkSource o limitMs
  | .checkSink id limitMs => do
    return .sinkReport (← checkSink clock id limitMs) (← viewSink id)
  | .sleep ms => do
    clock ms
    return .done

/-- Performs an action to an answer in any case. -/
def perform (clock : Clock) (a : Action) : StateM World Answer := do
  match ← (act clock a).run with
  | .ok answer => return answer
  | .error (.panic p) => return .panicked p
  | .error (.unknown name) => return .unknown name
  | .error .late => return .unknown "time"

end QueueRelay.Simulation

import QueueRelay.Simulation.World
/-!
The other side of links in a simulated world.

A connector passes calls on to its broker and answers, and counts them by method.  A call
that is to fail does not reach the broker; only a close does its work first.  A scripted
endpoint takes its time, answers what it was told to, and writes down what it was asked.
-/
namespace QueueRelay.Simulation

/-! ### Connectors -/

/-- Counts a call, and finds out whether it is to fail. -/
def Connector.count (c : Connector) (m : Method) : Option LinkError × Connector :=
  let n := (c.calls.get? m).getD 0 + 1
  ((c.faults.find? fun f => f.method = m ∧ f.count = n).map Fault.error,
    { c with calls := c.calls.set m n })

/-- Counts a call on a connector; answers its fault, if it has one, and its broker. -/
def countCall (connector : String) (m : Method) : Sim (Option LinkError × String) := do
  let c ← named World.connectors connector
  let (fault, c) := c.count m
  setConnector connector c
  return (fault, c.broker)

/-- Opens a session through a connector. -/
def connectBroker (connector : String) : Sim (Except LinkError Nat) := do
  match ← countCall connector .connect with
  | (some e, _) => return .error e
  | (none, broker) =>
    match ← onBroker broker Broker.connect with
    | .error e => return .error e
    | .ok s => return .ok (← handOut (.broker connector s))

/-- The method that a call counts as. -/
def methodOf : Channel.Call → Method
  | .declareExchange _ _ _ => .declareExchange
  | .declareQueue _ _ => .declareQueue
  | .bind _ _ _ => .bind
  | .setPrefetch _ => .setPrefetch
  | .publish _ _ _ _ => .publish
  | .consume _ _ => .consume
  | .ack _ => .ack
  | .nack _ _ => .nack
  | .reopen => .reopen

/-- The answer to a call that fails. -/
def failing (e : LinkError) : (c : Channel.Call) → (Channel.calls Broker.Stream).Answer c
  | .publish _ _ _ _ => .error e
  | .consume _ _ => .error e
  | .declareExchange _ _ _ => .error e
  | .declareQueue _ _ => .error e
  | .bind _ _ _ => .error e
  | .setPrefetch _ => .error e
  | .ack _ => .error e
  | .nack _ _ => .error e
  | .reopen => .error e

/-- Makes a call on a session with a broker. -/
def askChannel (h : Nat) (c : Channel.Call) :
    Sim ((Channel.calls Broker.Stream).Answer c) := do
  match ← session h with
  | .script _ _ => return failing .closed c
  | .broker connector s =>
    match ← countCall connector (methodOf c) with
    | (some e, _) => return failing e c
    | (none, broker) =>
      let (answer, s) ← onBroker broker fun b =>
        let (answer, s, b) := b.answer s c
        ((answer, s), b)
      setSession h (.broker connector s)
      return answer

/-- The next delivery of a stream, as far as it is known without waiting. -/
def takeNow (t : Stream) : Sim Broker.Taken := do
  let c ← named World.connectors t.connector
  onBroker c.broker fun b => b.take t.stream

/-! ### Scripted endpoints -/

/-- The result that is due, and those that come after it. -/
def due : List (Option LinkError) → Except LinkError Unit × List (Option LinkError)
  | some e :: rest => (.error e, rest)
  | none :: rest => (.ok (), rest)
  | [] => (.ok (), [])

/-- Writes down what an endpoint was asked. -/
def Script.write (s : Script) (e : Entry) : Script :=
  { s with log := s.log ++ [e] }

/-- Opens a session with a scripted endpoint. -/
def connectScript (clock : Clock) (id : String) : Sim (Except LinkError Nat) := do
  clock (← named World.scripts id).connectDelayMs
  let s ← named World.scripts id
  let (result, rest) := due s.connects
  let s := { s with connects := rest }
  match result with
  | .error e =>
    setScript id (s.write .connectFailed)
    return .error e
  | .ok _ =>
    setScript id (s.write .connect)
    return .ok (← handOut (.script id s.openOnConnect))

/-- Hands something over to a scripted endpoint. -/
def sendScript (clock : Clock) (id : String) (what : Entry) : Sim (Except LinkError Unit) := do
  clock (← named World.scripts id).sendDelayMs
  let s ← named World.scripts id
  let (result, rest) := due s.sends
  let s := { s with sends := rest }
  match result with
  | .error e =>
    setScript id (s.write .sendFailed)
    return .error e
  | .ok _ =>
    setScript id (s.write what)
    return .ok ()

/-- Closes a session with a scripted endpoint. -/
def closeScript (h : Nat) (id : String) : Sim (Except LinkError Unit) := do
  setSession h (.script id false)
  let s ← named World.scripts id
  let (result, rest) := due s.closes
  setScript id ({ s with closes := rest }.write .close)
  return result

/-- Hands something over on a session with a scripted endpoint. -/
def sendOn (clock : Clock) (h : Nat) (what : Entry) : Sim (Except LinkError Unit) := do
  match ← session h with
  | .script id _ => sendScript clock id what
  | .broker _ _ => return .error .closed

def askCloud (clock : Clock) (h : Nat) : (c : Cloud.Call) → Sim (Except LinkError Unit)
  | .sendToQueue url body origin => sendOn clock h (.queue url body origin)
  | .publishToTopic arn body origin => sendOn clock h (.topic arn body origin)

def askBus (clock : Clock) (h : Nat) (c : Bus.Call) : Sim (Except LinkError Unit) :=
  sendOn clock h (.body c.body)

/-! ### Links -/

/-- Whether a session reports itself open. -/
def isOpen (h : Nat) : Sim Bool := do
  match ← session h with
  | .script _ isOpen => return isOpen
  | .broker connector s =>
    let c ← named World.connectors connector
    return (← named World.brokers c.broker).isOpen s

/-- Closes a session. -/
def closeSession (h : Nat) : Sim (Except LinkError Unit) := do
  match ← session h with
  | .script id _ => closeScript h id
  | .broker connector s =>
    let (fault, broker) ← countCall connector .close
    onBroker broker fun b => ((), b.closeSession s)
    match fault with
    | some e => return .error e
    | none => return .ok ()

/-- Opens a session. -/
def connect (clock : Clock) : Origin → Sim (Except LinkError Nat)
  | .connector id => connectBroker id
  | .script id => connectScript clock id
  | .address b =>
    match b.uri with
    | .error e => return .error e
    | .ok _ => return .error (.connectionFailed "no network")

/-- The address of an origin. -/
def endpointOf : Origin → Sim String
  | .connector _ => return "memory://broker"
  | .script id => return (← named World.scripts id).endpoint
  | .address b => return b.endpoint

/-- The answer to a call on a link. -/
def answerLink {C : Interface} (clock : Clock) (o : Origin)
    (ask : Nat → (c : C.Call) → Sim (C.Answer c)) :
    (c : (Link.calls C Nat).Call) → Sim ((Link.calls C Nat).Answer c)
  | .connect => connect clock o
  | .isOpen h => isOpen h
  | .close h => closeSession h
  | .ask h c => ask h c

/-- No calls at all. -/
abbrev silent : Interface where
  Call := Empty
  Answer _ := Unit

/-- The answer to a call on a link whose sessions are never used. -/
def answerSilent (clock : Clock) (o : Origin) :
    (c : (Link.calls silent Nat).Call) → Sim ((Link.calls silent Nat).Answer c) :=
  answerLink clock o fun _ => nofun

end QueueRelay.Simulation

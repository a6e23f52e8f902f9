import QueueRelay.Bus.Sender
import QueueRelay.Cloud.Client
import QueueRelay.Number.Nearest
import QueueRelay.Simulation.Action
/-!
Sinks that talk to a simulated server.

A server that can be reached logs every request and answers with the statuses it was given,
then with success; for a status of zero it gives no answer.  A server that cannot be
reached sees nothing.
-/
namespace QueueRelay.Simulation

/-- A server for requests of type `R`. -/
structure Server (R : Type) where
  reachable : Bool := true
  /-- Statuses of the coming answers. -/
  statuses : List Nat := []
  /-- Requests so far. -/
  requests : List R := []

/-- What the words of the transport are when there is no answer. -/
def noAnswer : String := ""

/-- The answer to a request. -/
def Server.handle {R : Type} (r : R) : StateM (Server R) (Except String Http.Status) := do
  let s ← get
  if !s.reachable then return .error noAnswer
  set { s with statuses := s.statuses.tail, requests := s.requests ++ [r] }
  let code := s.statuses.headD 200
  return if code = 0 then .error noAnswer else .ok ⟨code⟩

/-- The answer to a call on the transport of a bus.  A request that cannot be written is
not made, and the clock stands at zero. -/
def answerHttp : (c : Http.calls.Call) → StateM (Server Http.Request) (Http.calls.Answer c)
  | .now => return (0 : Nat)
  | .request r => if r.line?.isSome then Server.handle r else return .error noAnswer

/-! ### Rehearsals -/

/-- What is asked of a sink. -/
inductive SinkStep where
  | establish
  | transmit (m : Message)
  | send (m : Message)
  | close

/-- What comes of it. -/
inductive SinkResult where
  | result (r : Except LinkError Unit)
  | outcome (o : Outcome)

/-- What can be seen after a step, and the requests that it made. -/
structure SinkReport (R : Type) where
  result : SinkResult
  view : SinkView
  requests : List R

variable {P σ R : Type} {C : Interface}

/-- One step with the sink that it leaves. -/
def SinkStep.program
    (transmit : Message → Sink P σ →
      Program (Link.calls C σ) (Except LinkError Unit × Sink P σ))
    (s : Sink P σ) : SinkStep → Program (Link.calls C σ) (SinkResult × Sink P σ)
  | establish => do
    let (r, s) ← s.establish
    return (.result r, s)
  | .transmit m => do
    let (r, s) ← transmit m s
    return (.result r, s)
  | send m => do
    let (o, s) ← Sink.sendThrough Sink.establish transmit m s
    return (.outcome o, s)
  | close => return (.result (.ok ()), ← s.close)

/-- Takes a sink through steps. -/
def rehearseSink (answer : (c : (Link.calls C σ).Call) → StateM (Server R) ((Link.calls C σ).Answer c))
    (transmit : Message → Sink P σ →
      Program (Link.calls C σ) (Except LinkError Unit × Sink P σ)) :
    List SinkStep → Sink P σ → StateM (Server R) (List (SinkReport R))
  | [], _ => return []
  | step :: rest, s => do
    modify fun server => { server with requests := [] }
    let (result, s) ← (step.program transmit s).runIn answer
    let connected ← (Sink.isConnected (C := C) s).runIn answer
    let report := ⟨result, ⟨connected, s.status⟩, (← get).requests⟩
    return report :: (← rehearseSink answer transmit rest s)

/-- What can be seen of a token. -/
structure TokenView where
  /-- The resource in its encoded form. -/
  resource : String
  keyName : String
  /-- Whether the token is what the sender signs for its own resource and that second. -/
  signed : Bool
  /-- Whether it expires an hour from now. -/
  timely : Bool

/-- A token that a sender used. -/
def viewToken (s : Bus.Sender) (token : String) : Option TokenView := do
  let fields ← Bus.Credentials.tokenFields? token
  let value (name : String) := (fields.find? fun f => f.1 = name).map Prod.snd
  let expiry ← Number.wholeNumber? (← value "se").toList
  return { resource := ← value "sr"
           keyName := ← value "skn"
           signed := s.credentials.token s.resource expiry.toNat = token
           timely := expiry = Bus.tokenLife }

/-- The destination of a bus target in words, and what comes of steps on its sink. -/
def rehearseBus (name base : String) (t : BusTarget) (server : Server Http.Request)
    (steps : List SinkStep) :
    Except LinkError (String × List (SinkReport (Http.Request × Option TokenView))) := do
  let sender := (← Bus.Sender.ofTarget t).onServer base
  let sink ← BusSink.ofTarget name t
  let answer c := (sender.answer c).runIn answerHttp
  let reports := ((rehearseSink answer BusSink.transmit steps sink).run server).1
  return (sink.destination, reports.map fun report =>
    { report with
      requests := report.requests.map fun r => (r, viewToken sender r.authorization) })

/-- The destination of a cloud target in words, and what comes of steps on its sink. -/
def rehearseCloud (name : String) (t : CloudTarget) (server : Server Cloud.Request)
    (steps : List SinkStep) : Except LinkError (String × List (SinkReport Cloud.Request)) := do
  let sink ← CloudSink.ofTarget name t
  let answer c := (Cloud.answer sink.place.place c).runIn Server.handle
  return (sink.destination, ((rehearseSink answer CloudSink.transmit steps sink).run server).1)

end QueueRelay.Simulation

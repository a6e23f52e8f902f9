import QueueRelay.Simulation.Perform
/-!
Runs of a relay in a simulated world.

While the relay waits, the cues come, each at its time: a cue comes when the relay can do
nothing more at that instant, and if the relay's own wait ends at the same instant, the
relay goes first.  A wait that the end of the run may cut short looks for that before it
begins and after each cue.  An hour after the last cue the relay is told to stop in any
case, which is one more cue that does nothing else.
-/
namespace QueueRelay.Simulation

/-- How long after the last cue the relay is told to stop. -/
def patienceMs : Nat := 3600000

/-- The cue that comes after all others. -/
def lastCue : Cue := { afterMs := patienceMs, actions := [], stop := true }

/-- Performs the actions of a cue.  The relay does not move meanwhile. -/
def playCue (began : Nat) (cue : Cue) (rest : List Cue) : Sim Unit := do
  let at_ := max (← get).now ((← get).cuedAt + cue.afterMs)
  modify fun w => { w with now := at_, cuedAt := at_, cues := rest }
  let answers ← ExceptT.lift (cue.actions.mapM (perform advance))
  modify fun w => { w with
    stopped := w.stopped || cue.stop
    played :=
      if rest.isEmpty then w.played else ⟨at_ - began, answers⟩ :: w.played }

/-- Plays the next cue if it comes before `target`; answers whether it did. -/
def playBefore (began target : Nat) : Sim Bool := do
  let w ← get
  match w.cues with
  | cue :: rest =>
    if w.cuedAt + cue.afterMs < target then
      playCue began cue rest
      return true
    else return false
  | [] => return false

/-- Plays the cues that come before `target`, at most `n` of them. -/
def playAllBefore (began target : Nat) : Nat → Sim Unit
  | 0 => return ()
  | n + 1 => do
    if ← playBefore began target then playAllBefore began target n

/-- A wait of the relay that is not cut short. -/
def relayClock (began : Nat) : Clock := fun ms => do
  let w ← get
  let target := w.now + ms
  playAllBefore began target w.cues.length
  modify fun w => { w with now := max w.now target }

/-- Counts events of one kind on a broker. -/
def Counted.on : Counted → Broker → Nat
  | acked, b => b.acked.length
  | nacked, b => b.nacked.length
  | delivered, b => b.deliveredCount

/-- Whether the relay is told to stop. -/
def isStopped (p : Plan) : Sim Bool := do
  let c ← named World.connectors p.connector
  let b ← named World.brokers c.broker
  return (← get).stopped || p.goals.any fun g => g.count ≤ g.counted.on b

/-- A pause that ends at `target`, with at most `n` cues in it. -/
def pauseUntil (p : Plan) (began target : Nat) : Nat → Sim Relay.Pause
  | 0 => do
    modify fun w => { w with now := max w.now target }
    return .elapsed
  | n + 1 => do
    if ← playBefore began target then
      if ← isStopped p then return .stop else pauseUntil p began target n
    else
      modify fun w => { w with now := max w.now target }
      return .elapsed

/-- A pause of the relay. -/
def pause (p : Plan) (began : Nat) (d : Duration) : Sim Relay.Pause := do
  if ← isStopped p then return .stop
  let w ← get
  pauseUntil p began (w.now + d.millisUp) (w.cues.length + 1)

/-- The next delivery of a stream, with at most `n` cues until it comes. -/
def awaitNext (p : Plan) (began : Nat) (t : Stream) : Nat → Sim Relay.Next
  | 0 => return .stop
  | n + 1 => do
    match ← takeNow t with
    | .message m => return .message m
    | .ended => return .ended
    | .pending =>
      match (← get).cues with
      | [] => return .stop
      | cue :: rest =>
        playCue began cue rest
        if ← isStopped p then return .stop else awaitNext p began t n

/-- The relay's wait for a delivery. -/
def next (p : Plan) (began : Nat) (t : Broker.Stream) : Sim Relay.Next := do
  if ← isStopped p then return .stop
  match ← countCall p.connector .next with
  | (some e, _) => return .failed e
  | (none, _) => awaitNext p began ⟨p.connector, t⟩ ((← get).cues.length + 1)

/-- Hands a message of the relay to its sink. -/
def hand (p : Plan) (began : Nat) (m : Message) : Sim Relay.Handed :=
  tryCatch (Relay.Handed.outcome <$> send (relayClock began) p.sink m) fun
    | .panic p => return .panicked p.message
    | e => throw e

/-- The answer to a call of the relay. -/
def answerRelay (p : Plan) (began : Nat) :
    (c : (Relay.calls Nat Broker.Stream).Call) →
      Sim ((Relay.calls Nat Broker.Stream).Answer c)
  | .source c => answerLink (relayClock began) (.connector p.connector) askChannel c
  | .next t => next p began t
  | .establish => establish (relayClock began) p.sink
  | .send m => hand p began m
  | .closeBackend => closeSink (relayClock began) p.sink
  | .pause d => pause p began d

/-- More rounds than any rehearsal takes. -/
def roundLimit : Nat := 100000000

/-- Takes a sink that was used up out of the world. -/
def useUp (id : String) : Sim Unit := do
  match ← named World.sinks id with
  | .collector _ => return ()
  | _ => modify fun w => { w with sinks := w.sinks.erase id }

/-- Runs a relay. -/
def rehearse (p : Plan) : Sim Performance := do
  let began := (← get).now
  modify fun w => { w with
    cues := p.cues ++ [lastCue], cuedAt := began, played := [], stopped := false }
  let (finish, r) ←
    (Relay.run p.settings roundLimit {}).runIn (answerRelay p began)
  let backend ← statusOf p.sink
  useUp p.sink
  let w ← get
  modify fun w => { w with cues := [], played := [] }
  return { finish := finish
           stats := r.stats
           elapsedMs := w.now - began
           cues := w.played.reverse
           backend := backend }

/-! ### Steps -/

/-- One step of a rehearsal. -/
inductive Step where
  | action (a : Action)
  | run (p : Plan)

/-- The answer to a step. -/
inductive StepAnswer where
  | action (a : Answer)
  | run (p : Performance)

/-- Performs a step. -/
def Step.perform : Step → StateM World StepAnswer
  | .action a => do return .action (← Simulation.perform advance a)
  | .run p => do
    match ← (rehearse p).run with
    | .ok r => return .run r
    | .error (.panic p) => return .action (.panicked p)
    | .error (.unknown name) => return .action (.unknown name)
    | .error .late => return .action (.unknown "time")

/-- Performs steps one after the other in a new world. -/
def performAll (steps : List Step) : List StepAnswer :=
  ((steps.mapM Step.perform).run {}).run.1

end QueueRelay.Simulation

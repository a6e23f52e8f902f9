import QueueRelay.Broker
import QueueRelay.Simulation.Action
/-!
The state of a simulated world.

The clock stands still while something happens, and moves only when all that happens is
waiting.  Sessions are known by numbers, which are the handles that links hold.
-/
namespace QueueRelay.Simulation

/-- A way to a broker on which chosen calls fail. -/
structure Connector where
  /-- Name of the broker. -/
  broker : String
  faults : List Fault := []
  /-- Calls made so far, by method. -/
  calls : Table Method Nat := .empty

/-- An endpoint that does what it was told to. -/
structure Script where
  endpoint : String
  connects : List (Option LinkError) := []
  sends : List (Option LinkError) := []
  closes : List (Option LinkError) := []
  openOnConnect : Bool := true
  connectDelayMs : Nat := 0
  sendDelayMs : Nat := 0
  /-- What it was asked, in order. -/
  log : List Entry := []

/-- A session that was handed out. -/
inductive Session where
  /-- A session on the broker behind a connector. -/
  | broker (connector : String) (s : Broker.Session)
  /-- A session with a scripted endpoint. -/
  | script (id : String) (isOpen : Bool)

/-- A consumer's stream and the connector it came through. -/
structure Stream where
  connector : String
  stream : Broker.Stream

/-- A link on its own. -/
structure Manager where
  origin : Origin
  link : Link Nat := {}

/-- A sink. -/
inductive Device where
  | collector (c : Collector)
  | refuser (r : Refuser)
  | linked (o : Origin) (s : LinkedSink Nat)

/-- Everything there is. -/
structure World where
  /-- Milliseconds since the beginning. -/
  now : Nat := 0
  brokers : Table String Broker := .empty
  connectors : Table String Connector := .empty
  scripts : Table String Script := .empty
  /-- Sessions by handle. -/
  sessions : Table Nat Session := .empty
  /-- Number of sessions handed out. -/
  handles : Nat := 0
  /-- Handles of sessions with a name. -/
  named : Table String Nat := .empty
  streams : Table String Stream := .empty
  managers : Table String Manager := .empty
  sinks : Table String Device := .empty
  /-- Cues to come while a relay runs. -/
  cues : List Cue := []
  /-- When the latest cue came, or the run began. -/
  cuedAt : Nat := 0
  /-- Cues that came, the latest first. -/
  played : List PlayedCue := []
  /-- Whether a cue told the relay to stop. -/
  stopped : Bool := false

/-- Why something was not done to its end. -/
inductive Abort where
  | panic (p : Panic)
  /-- The time given for it was over. -/
  | late
  /-- There is nothing of this name. -/
  | unknown (name : String)

/-- Something that happens in the world, perhaps not to its end. -/
abbrev Sim := ExceptT Abort (StateM World)

/-- How time passes during a wait of some milliseconds. -/
abbrev Clock := Nat → Sim Unit

/-- Time passes and nothing else happens. -/
def advance : Clock := fun ms =>
  modify fun w => { w with now := w.now + ms }

/-- Time passes, but not beyond `deadline`. -/
def advanceUntil (deadline : Nat) : Clock := fun ms => do
  let now := (← get).now
  if now + ms ≤ deadline then advance ms
  else
    modify fun w => { w with now := max now deadline }
    throw .late

/-- The entry with a name. -/
def named {α : Type} (table : World → Table String α) (id : String) : Sim α := do
  match (table (← get)).get? id with
  | some a => return a
  | none => throw (.unknown id)

def setBroker (id : String) (b : Broker) : Sim Unit :=
  modify fun w => { w with brokers := w.brokers.set id b }

def setConnector (id : String) (c : Connector) : Sim Unit :=
  modify fun w => { w with connectors := w.connectors.set id c }

def setScript (id : String) (s : Script) : Sim Unit :=
  modify fun w => { w with scripts := w.scripts.set id s }

def setManager (id : String) (m : Manager) : Sim Unit :=
  modify fun w => { w with managers := w.managers.set id m }

def setSink (id : String) (d : Device) : Sim Unit :=
  modify fun w => { w with sinks := w.sinks.set id d }

def setSession (h : Nat) (s : Session) : Sim Unit :=
  modify fun w => { w with sessions := w.sessions.set h s }

/-- Hands out a session. -/
def handOut (s : Session) : Sim Nat := do
  let h := (← get).handles
  modify fun w => { w with handles := h + 1 }
  setSession h s
  return h

/-- The session with a handle. -/
def session (h : Nat) : Sim Session := do
  match (← get).sessions.get? h with
  | some s => return s
  | none => throw (.unknown ("session " ++ toString h))

/-- Changes a broker with an operation that has a result. -/
def onBroker {α : Type} (id : String) (f : Broker → α × Broker) : Sim α := do
  let (a, b) := f (← named World.brokers id)
  setBroker id b
  return a

end QueueRelay.Simulation

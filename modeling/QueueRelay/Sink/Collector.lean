import QueueRelay.Duration
import QueueRelay.Sink.Send
import QueueRelay.Sink.Status
/-!
A sink that keeps what it is given.

It stands in for a destination in rehearsals, and can be told to fail: some bodies a
number of times, some bodies with a panic, the next attempts to establish it.  A panic
abandons the attempt in the middle, after it was counted.
-/
namespace QueueRelay

/-- The next attempts with this body fail. -/
structure Collector.Failure where
  body : ByteArray
  error : LinkError
  /-- Attempts that still fail. -/
  remaining : Nat

/-- A sink that keeps what it is given. -/
structure Collector where
  name : String := "test-collector"
  connected : Bool := false
  /-- The messages it accepted, in order. -/
  received : List Message := []
  /-- How often it was asked to establish itself. -/
  establishments : Nat := 0
  /-- How often it was asked to transmit. -/
  attempts : Nat := 0
  /-- Transmissions that failed. -/
  failed : Nat := 0
  /-- Attempts to establish it that still fail. -/
  refusalsDue : Nat := 0
  failures : List Collector.Failure := []
  /-- Bodies that make it panic. -/
  panics : List ByteArray := []
  /-- How long a transmission takes, in milliseconds. -/
  delayMs : Option Nat := none
  closed : Bool := false

/-- An attempt that was abandoned with a message. -/
structure Panic where
  message : String
deriving DecidableEq

namespace Collector

/-- The destination in words. -/
def destination (c : Collector) : String := "memory://" ++ c.name

def status (c : Collector) : SinkStatus where
  name := c.name
  kind := "collector"
  endpoint := some c.destination
  phase := if c.connected then .connected else .disconnected
  sent := c.received.length
  failed := c.failed
  reconnects := c.establishments - 1
  lastError := none

def establish (c : Collector) : Except LinkError Unit × Collector :=
  let c := { c with establishments := c.establishments + 1 }
  if 0 < c.refusalsDue then
    (.error (.connectionFailed "collector unreachable"),
      { c with refusalsDue := c.refusalsDue - 1, connected := false })
  else (.ok (), { c with connected := true, closed := false })

/-- The failure that is due for a body, and the failures left after it. -/
def dueFailure? (body : ByteArray) : List Failure → Option (LinkError × List Failure)
  | [] => none
  | f :: rest =>
    if f.body = body ∧ 0 < f.remaining then
      some (f.error, { f with remaining := f.remaining - 1 } :: rest)
    else (dueFailure? body rest).map fun (e, rest) => (e, f :: rest)

/-- A scripted failure with what the collector knows about the message. -/
def explain (c : Collector) (m : Message) : LinkError → LinkError
  | .sendFailed text _ =>
    .sendFailed text { size := m.size, tag := some m.tag, destination := some c.name }
  | e => e

/-- One attempt to hand over a message, after the time that it takes. -/
def transmit (m : Message) (c : Collector) :
    Except Panic (Except LinkError Unit) × Collector :=
  let c := { c with attempts := c.attempts + 1 }
  if !c.connected then (.ok (.error .closed), { c with failed := c.failed + 1 })
  else
    match dueFailure? m.payload c.failures with
    | some (e, failures) =>
      (.ok (.error (c.explain m e)), { c with failed := c.failed + 1, failures := failures })
    | none =>
      if c.panics.contains m.payload then
        (.error ⟨"collector asked to panic on delivery " ++ toString m.tag.value⟩, c)
      else (.ok (.ok ()), { c with received := c.received ++ [m] })

def close (c : Collector) : Collector :=
  { c with connected := false, closed := true }

/-- Sends a message when transmissions take no time. -/
def send (m : Message) (c : Collector) : Except Panic Outcome × Collector :=
  let answer : (a : Attempt.calls.Call) → ExceptT Panic (StateM Collector) (Attempt.calls.Answer a)
    | .establish => ExceptT.lift (m := StateM Collector) establish
    | .transmit m => ExceptT.mk (m := StateM Collector) (transmit m)
  (Sink.send m).runIn answer c

/-! ### Record forms -/

/-- The form of a message that was kept, without the time at which it came. -/
def messageForm (m : Message) : String :=
  Text.recordForm "Message"
    [("payload", Text.byteList m.payload),
     ("metadata", Text.openRecordForm "MessageMetadata"
        [("routing_key", Text.optional Text.quoted m.routingKey),
         ("delivery_tag", m.tag.form), ("redelivered", toString m.redelivered),
         ("message_id", Text.optional Text.quoted m.messageId)])]

def Failure.form (f : Failure) : String :=
  Text.recordForm "Script"
    [("body", Text.byteList f.body), ("error", f.error.form),
     ("remaining", toString f.remaining)]

/-- What a collector keeps, in a record form. -/
def stateForm (c : Collector) : String :=
  Text.recordForm "CollectorState"
    [("connected", toString c.connected), ("received", Text.listed messageForm c.received),
     ("initializations", toString c.establishments),
     ("transmit_attempts", toString c.attempts), ("failed", toString c.failed),
     ("fail_next_initializations", toString c.refusalsDue),
     ("scripts", Text.listed Failure.form c.failures),
     ("panic_bodies", Text.listed Text.byteList c.panics),
     ("transmit_delay",
      Text.optional (fun ms => (Duration.ofMillis ms).shown) c.delayMs),
     ("closed", toString c.closed)]

/-- The record form.  The state stands behind a lock that others can share. -/
def form (c : Collector) : String :=
  Text.recordForm "CollectorSink"
    [("name", Text.quoted c.name),
     ("state", Text.openRecordForm "Mutex" [("data", c.stateForm), ("poisoned", "false")])]

end Collector

/-- A sink whose destination accepts nothing. -/
structure Refuser where
  /-- The error of every attempt. -/
  error : LinkError := .sendFailed "Simulated failure" {}

namespace Refuser

/-- The destination in words. -/
def destination : String := "memory://failing"

def status (r : Refuser) : SinkStatus where
  name := "failing-sink"
  kind := "test-failing"
  lastError := some r.error.message

/-- It can be established unless its error says that the link is gone. -/
def establish (r : Refuser) : Except LinkError Unit :=
  if r.error.isConnection then .error r.error else .ok ()

def transmit (r : Refuser) : Except LinkError Unit := .error r.error

/-- The record form. -/
def form (r : Refuser) : String :=
  Text.recordForm "FailingSink" [("error", r.error.form)]

end Refuser

end QueueRelay

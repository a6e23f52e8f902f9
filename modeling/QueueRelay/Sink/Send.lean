import QueueRelay.Outcome
import QueueRelay.Program
/-!
Sending one message through a sink.

A sink can transmit a message and can be established anew.  When the first transmission
fails because the link is gone, the sink is established once and the same message is
transmitted once more.  Nothing else is tried, so a message is transmitted at most twice.
-/
namespace QueueRelay

namespace Attempt

/-- What every sink can do. -/
inductive Call where
  /-- Open the way to the destination. -/
  | establish
  /-- Hand over a message, once. -/
  | transmit (m : Message)

/-- The calls on a sink; each of them works or fails. -/
abbrev calls : Interface where
  Call := Call
  Answer _ := Except LinkError Unit

def establish : Program calls (Except LinkError Unit) :=
  .perform (I := calls) .establish

def transmit (m : Message) : Program calls (Except LinkError Unit) :=
  .perform (I := calls) (.transmit m)

end Attempt

namespace Sink

/-- The last attempt to hand over a message. -/
def resend (m : Message) : Program Attempt.calls Outcome := do
  match ← Attempt.transmit m with
  | .ok _ => return .delivered
  | .error e => return .ofError e

/-- Hands over a message, with a second attempt on a new link if the first one was lost. -/
def send (m : Message) : Program Attempt.calls Outcome := do
  match ← Attempt.transmit m with
  | .ok _ => return .delivered
  | .error e =>
    if e.isConnection then
      match ← Attempt.establish with
      | .ok _ => resend m
      | .error e => return .connectivityFailure e.message
    else return .ofError e

/-- Sends through a sink with state `S` whose two operations are given. -/
def sendThrough {I : Interface} {S : Type}
    (establish : S → Program I (Except LinkError Unit × S))
    (transmit : Message → S → Program I (Except LinkError Unit × S)) (m : Message) (s : S) :
    Program I (Outcome × S) :=
  let answer : (c : Attempt.calls.Call) → StateT S (Program I) (Attempt.calls.Answer c)
    | .establish => establish
    | .transmit m => transmit m
  (send m).runIn answer s

end Sink

end QueueRelay

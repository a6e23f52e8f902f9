import QueueRelay.LinkError
/-!
The result of forwarding one message.

Only `delivered` lets the source delivery be acknowledged; after any other outcome the
message goes back to its queue.
-/
namespace QueueRelay

/-- What happened to a message that was handed to a destination. -/
inductive Outcome where
  /-- The destination accepted it. -/
  | delivered
  /-- The destination was reached and has no place for it. -/
  | unroutable (reason : String)
  /-- The link failed, and a new one did not help. -/
  | connectivityFailure (reason : String)
  /-- Anything else. -/
  | unknownFailure (reason : String)
deriving DecidableEq

namespace Outcome

def isDelivered : Outcome → Bool
  | delivered => true
  | _ => false

/-- A short name for the kind of outcome. -/
def kind : Outcome → String
  | delivered => "delivered"
  | unroutable _ => "unroutable"
  | connectivityFailure _ => "connectivity_failure"
  | unknownFailure _ => "unknown_failure"

/-- Why the message was not delivered. -/
def detail? : Outcome → Option String
  | delivered => none
  | unroutable reason | connectivityFailure reason | unknownFailure reason => some reason

/-- The outcome that a failed attempt amounts to. -/
def ofError : LinkError → Outcome
  | .unroutable reason => unroutable reason
  | e => if e.isConnection then connectivityFailure e.message else unknownFailure e.message

/-- The kind, and the reason if there is one. -/
def shown (o : Outcome) : String :=
  match o.detail? with
  | some reason => o.kind ++ ": " ++ reason
  | none => o.kind

end Outcome

end QueueRelay

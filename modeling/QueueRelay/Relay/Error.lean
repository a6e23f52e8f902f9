import QueueRelay.LinkError
/-!
Errors that end a relay.  Failures of single messages never appear here.
-/
namespace QueueRelay

/-- Why a relay could not be set up. -/
inductive RelayError where
  | config (text : String)
  | connection (cause : LinkError)
  | provisioning (object : String) (cause : LinkError)
  | backend (cause : LinkError)
  | io (text : String)
deriving DecidableEq

namespace RelayError

/-- The wording of an error. -/
def message : RelayError → String
  | config text => "Configuration error: " ++ text
  | connection cause => "Source connection error: " ++ cause.message
  | provisioning object cause => "Provisioning '" ++ object ++ "' failed: " ++ cause.message
  | backend cause => "Backend error: " ++ cause.message
  | io text => "IO error: " ++ text

/-- The wording of the error underneath, if there is one. -/
def cause? : RelayError → Option String
  | config _ => none
  | connection cause | provisioning _ cause | backend cause => some cause.message
  | io text => some text

end RelayError

end QueueRelay

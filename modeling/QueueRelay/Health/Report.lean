/-!
The result of a health check.
-/
namespace QueueRelay.Health

/-- What a check found out about one service. -/
structure Report where
  /-- The service that was checked. -/
  service : String
  /-- Whether it can be used. -/
  isUp : Bool
  /-- Why not. -/
  reason : Option String
deriving DecidableEq

namespace Report

def up (service : String) : Report := ⟨service, true, none⟩

def down (service reason : String) : Report := ⟨service, false, some reason⟩

/-- One line for people. -/
def shown (r : Report) : String :=
  if r.isUp then r.service ++ ": UP"
  else match r.reason with
    | some reason => r.service ++ ": DOWN (" ++ reason ++ ")"
    | none => r.service ++ ": DOWN"

end Report

end QueueRelay.Health

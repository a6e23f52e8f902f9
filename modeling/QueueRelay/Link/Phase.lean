/-!
The life of a link.

    disconnected --established--> connected --failed--> degraded
         ^                            ^                     |
         |                            +-----established-----+
         +--------------- released (from any phase) --------+

Only a link that has been connected can degrade: a failure while disconnected leaves it
disconnected.
-/
namespace QueueRelay

/-- Where a link is in its life. -/
inductive Phase where
  | disconnected
  | connected
  | degraded
deriving DecidableEq, Inhabited

namespace Phase

/-- The link may be used. -/
def isActive : Phase → Bool
  | connected => true
  | _ => false

/-- After a session has been opened. -/
def established (_ : Phase) : Phase := connected

/-- After a detected failure. -/
def failed : Phase → Phase
  | disconnected => disconnected
  | _ => degraded

/-- After an explicit close. -/
def released (_ : Phase) : Phase := disconnected

/-- The name used in reports. -/
def name : Phase → String
  | disconnected => "disconnected"
  | connected => "connected"
  | degraded => "degraded"

/-- The name used in record forms. -/
def form : Phase → String
  | disconnected => "Disconnected"
  | connected => "Connected"
  | degraded => "Degraded"

theorem isActive_iff {p : Phase} : p.isActive = true ↔ p = connected := by
  cases p <;> simp [isActive]

/-- A failure ends the use of a link. -/
@[simp] theorem isActive_failed (p : Phase) : p.failed.isActive = false := by
  cases p <;> rfl

theorem failed_ne_connected (p : Phase) : p.failed ≠ connected := by
  rw [ne_eq, ← isActive_iff, isActive_failed]
  exact Bool.false_ne_true

/-- A failure does not disconnect. -/
theorem failed_eq_disconnected_iff {p : Phase} : p.failed = disconnected ↔ p = disconnected := by
  cases p <;> simp [failed]

end Phase

end QueueRelay

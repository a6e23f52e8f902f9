import QueueRelay.Duration
import QueueRelay.Health.Report
import QueueRelay.Link
/-!
Health checks: open, look, close.

A check may take only so long.  Whether it took too long is the other side's answer, so
that the check itself needs no clock.
-/
namespace QueueRelay.Health

/-- The answer of something that may take only so long. -/
inductive Timed (α : Type) where
  | inTime (a : α)
  | late

/-! ### A source -/

/-- What a check of a source can ask. -/
inductive SourceCall (σ : Type) where
  /-- Open a session within the given time. -/
  | connect (limit : Duration)
  | isOpen (s : σ)
  | close (s : σ)

abbrev sourceCalls (σ : Type) : Interface where
  Call := SourceCall σ
  Answer
    | .connect _ => Timed (Except LinkError σ)
    | .isOpen _ => Bool
    | .close _ => Except LinkError Unit

/-- Opens and closes a session on the source at `endpoint`. -/
def checkSource {σ : Type} (endpoint : String) (limit : Duration) :
    Program (sourceCalls σ) Report := do
  match ← Program.perform (I := sourceCalls σ) (.connect limit) with
  | .late => return .down endpoint ("connect timed out after " ++ limit.shown)
  | .inTime (.error e) => return .down endpoint e.message
  | .inTime (.ok s) =>
    let isOpen ← Program.perform (I := sourceCalls σ) (.isOpen s)
    let _ ← Program.perform (I := sourceCalls σ) (.close s)
    return if isOpen then .up endpoint
      else .down endpoint "session closed right after connect"

/-! ### A sink -/

/-- What a check of a sink can ask. -/
inductive SinkCall where
  /-- Establish it within the given time. -/
  | establish (limit : Duration)
  | isConnected
  | close

abbrev sinkCalls : Interface where
  Call := SinkCall
  Answer
    | .establish _ => Timed (Except LinkError Unit)
    | .isConnected => Bool
    | .close => Unit

/-- What is found out about a sink before it is closed. -/
def probeSink (destination : String) (limit : Duration) : Program sinkCalls Report := do
  match ← Program.perform (I := sinkCalls) (.establish limit) with
  | .late => return .down destination ("initialize timed out after " ++ limit.shown)
  | .inTime (.error e) => return .down destination e.message
  | .inTime (.ok _) =>
    if ← Program.perform (I := sinkCalls) .isConnected then return .up destination
    else return .down destination "initialized but not connected"

/-- Establishes and closes a sink. -/
def checkSink (destination : String) (limit : Duration) : Program sinkCalls Report := do
  let report ← probeSink destination limit
  Program.perform (I := sinkCalls) .close
  return report

end QueueRelay.Health

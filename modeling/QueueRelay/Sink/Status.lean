import QueueRelay.Link.Phase
/-!
What a sink reports about itself.
-/
namespace QueueRelay

/-- A sink's description of itself and its counters. -/
structure SinkStatus where
  /-- Name given to the sink. -/
  name : String
  /-- Kind of destination. -/
  kind : String
  /-- Address without credentials, if it has one. -/
  endpoint : Option String := none
  /-- Phase of its link. -/
  phase : Phase := .disconnected
  /-- Transmissions the destination accepted. -/
  sent : Nat := 0
  /-- Transmissions that failed. -/
  failed : Nat := 0
  /-- Sessions opened after the first. -/
  reconnects : Nat := 0
  /-- Wording of the last failure. -/
  lastError : Option String := none
deriving DecidableEq

namespace SinkStatus

/-- One more transmission was accepted. -/
def recordSuccess (s : SinkStatus) : SinkStatus :=
  { s with sent := s.sent + 1 }

/-- One more transmission failed. -/
def recordFailure (s : SinkStatus) (error : Option String) : SinkStatus :=
  { s with failed := s.failed + 1, lastError := error }

end SinkStatus

end QueueRelay

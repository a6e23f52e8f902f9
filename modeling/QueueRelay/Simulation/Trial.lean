import QueueRelay.Relay.Setup
import QueueRelay.Simulation.Rehearsal
/-!
A trial of a configuration.

Its relay runs between a broker whose queue holds the given messages and a collector that
stands in for the destination, until every message is acknowledged.
-/
namespace QueueRelay.Simulation

/-- The run of a trial. -/
def trialRun (c : Config) (count : Nat) : Plan where
  connector := "source"
  sink := "destination"
  settings := .ofConfig c
  goals := [⟨.acked, count⟩]
  cues := []

/-- The steps of a trial. -/
def trial (c : Config) (payloads : List ByteArray) : List Step :=
  [.action (.newBroker "source"),
   .action (.onBroker "source" (.declareQueue c.topology.queue))] ++
  payloads.map (fun payload => .action (.publish "source" "" c.topology.queue payload)) ++
  [.action (.newSink "destination" (.collector { name := c.relay.name })),
   .run (trialRun c payloads.length)]

/-- The counters of a run in words. -/
def statsShown (s : Relay.Stats) : String :=
  "received " ++ toString s.received ++ ", acknowledged " ++ toString s.acked ++
    ", requeued " ++ toString s.requeued ++ ", redelivered " ++ toString s.redelivered ++
    ", faults " ++ toString s.faults ++ ", reconnects " ++ toString s.sourceReconnects

/-- What came of a run in words. -/
def Performance.shown (p : Performance) : String :=
  match p.finish with
  | some .stopped => statsShown p.stats
  | some (.refused e) => e.message
  | some .overflowed => "a delay was too long to be waited for"
  | none => "the relay did not come to an end"

/-- What came of a trial in words. -/
def trialShown (c : Config) (payloads : List ByteArray) : List String :=
  (performAll (trial c payloads)).filterMap fun
    | .run p => some p.shown
    | .action _ => none

end QueueRelay.Simulation

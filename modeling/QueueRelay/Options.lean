import QueueRelay.Config
import QueueRelay.Sink.Build
/-!
The options of the command line, and what is printed about a configuration.
-/
namespace QueueRelay

/-- What was asked for on the command line. -/
structure Options where
  /-- The base file. -/
  config : Option String := none
  /-- The environment whose overlay is put over the base file. -/
  environment : Option String := none
  /-- A file of `KEY=value` lines, in place of a base file. -/
  envFile : Option String := none
  /-- A file with the messages of a trial, one on each line. -/
  messages : Option String := none
deriving DecidableEq

namespace Options

/-- How the command is used. -/
def usage : String :=
  "usage: relay --config FILE [--environment NAME] [--messages FILE]\n" ++
  "       relay --env-file FILE [--messages FILE]"

/-- Takes options into account, the last one of a name counting. -/
def add (o : Options) : List String → Except String Options
  | [] => .ok o
  | [option] => .error ("'" ++ option ++ "' needs a value")
  | option :: value :: rest =>
    if option = "--config" || option = "-c" then add { o with config := some value } rest
    else if option = "--environment" || option = "-e" then
      add { o with environment := some value } rest
    else if option = "--env-file" then add { o with envFile := some value } rest
    else if option = "--messages" then add { o with messages := some value } rest
    else .error ("unknown option '" ++ option ++ "'")

/-- Reads a command line.  Exactly one file has to be given to configure from. -/
def parse (args : List String) : Except String Options := do
  let o ← add {} args
  match o.config, o.envFile with
  | some _, some _ => throw "--config and --env-file exclude each other"
  | none, none => throw "either --config or --env-file is required"
  | _, _ => return o

end Options

/-- A configuration in words, without its secrets. -/
def Config.shown (c : Config) : List String :=
  let sink : Except LinkError (LinkedSink Nat) := c.destination.sinkFor c.relay.name
  let destination := match sink with
    | .ok s => s.destination
    | .error e => e.message
  ["relay: " ++ c.relay.name,
   "source: " ++ c.source.endpoint ++ " queue '" ++ c.topology.queue ++ "'",
   "destination: " ++ c.destination.kind ++ " " ++ destination]

end QueueRelay

import QueueRelay.Config.File
import QueueRelay.Options
import QueueRelay.Simulation.Trial
/-!
The command line: reads a configuration, prints what it amounts to, and tries it out on
messages from a file.
-/
namespace QueueRelay.CommandLine

/-- The contents of a file, if it can be read. -/
def readFile? (path : String) : IO (Option ByteArray) := do
  try return some (← IO.FS.readBinFile path)
  catch _ => return none

/-- The variables of this process. -/
def processVariables : IO (List (String × String)) := do
  let bytes := (← readFile? "/proc/self/environ").getD .empty
  return ((String.fromUTF8? bytes).getD "").splitOn "\x00" |>.filterMap fun entry =>
    match entry.splitOn "=" with
    | name :: value@(_ :: _) => some (name, "=".intercalate value)
    | _ => none

/-- Loads the configuration that the options name, or says why it cannot be loaded. -/
def loadConfig (o : Options) : IO (Except String Config) := do
  let vars ← processVariables
  match o.envFile with
  | some path =>
    let lookup name := (vars.find? fun v => v.1 = name).map Prod.snd
    return (Config.ofDotEnvFile lookup path (← readFile? path)).mapError RelayError.message
  | none =>
    let base := o.config.getD ""
    let paths := base :: (o.environment.map (Config.overlayPath base)).toList
    let contents ← paths.mapM fun path => return (path, ← readFile? path)
    let files path := (contents.find? fun f => f.1 = path).bind Prod.snd
    return (Config.load files vars base o.environment).mapError fun
      | .unreadable => "cannot read the configuration from '" ++ base ++ "'"
      | .unfit => "the data of '" ++ base ++ "' are not a configuration"
      | .invalid e => e.message

/-- The lines of a file, the empty ones left out. -/
def readMessages (path : String) : IO (List ByteArray) := do
  let text := ((← readFile? path).bind String.fromUTF8?).getD ""
  return (text.splitOn "\n").filter (!·.isEmpty) |>.map String.toUTF8

/-- Prints the configuration and what comes of a trial. -/
def report (o : Options) (c : Config) : IO Unit := do
  for line in c.shown do IO.println line
  if let some path := o.messages then
    for line in Simulation.trialShown c (← readMessages path) do IO.println line

/-- Does what a command line asks for; answers the exit code. -/
def run (args : List String) : IO UInt32 := do
  match Options.parse args with
  | .error e =>
    IO.eprintln (e ++ "\n" ++ Options.usage)
    return 2
  | .ok o =>
    match ← loadConfig o with
    | .error e =>
      IO.eprintln e
      return 1
    | .ok c =>
      report o c
      return 0

end QueueRelay.CommandLine

def main (args : List String) : IO UInt32 := QueueRelay.CommandLine.run args

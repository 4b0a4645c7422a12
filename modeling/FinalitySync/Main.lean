import FinalitySync.Client.Event
import FinalitySync.Client.Run

/-!
The client as a program: reads its arguments and files, runs, and reports how it went.
-/

namespace FinalitySync.Client

/-- The file under a path. -/
def readFound (path : String) : IO Found := do
  try
    return .content (← IO.FS.readBinFile path).toList
  catch
    | .noFileOrDirectory _ _ _ => return .nothing
    | _ => return .unreadable

/-- Reads the files of some paths; there is nothing under any other path. -/
def readFiles (paths : List String) : IO Files := do
  let found ← paths.mapM fun path => do return (path, ← readFound path)
  return fun path => (found.lookup path).getD .nothing

def helpText : String :=
  String.intercalate "\n"
    ["Usage: finality-sync [OPTIONS]",
      "",
      "Options:",
      "  -c, --config <FILE>                 Configuration file",
      "  -f, --fragments <FILE>              Stored pages of proof fragments",
      "  -r, --runtime <FILE>                Runtime code of the final head",
      "      --fragment-request-timeout <N>  Time for a request in seconds",
      "      --verbosity <LEVEL>             Log level",
      "      --logs-json                     Write log lines as JSON",
      "  -h, --help                          Show this text",
      "  -V, --version                       Show the version"]

def versionText : String := "finality-sync 0.1.0"

def Usage.complaint : Usage → String
  | .unknownArgument => "unexpected argument"
  | .badValue => "invalid value of an option"
  | .missingValue => "an option has no value"
  | .repeated => "an option is given more than once"
  | .unexpectedValue => "a flag takes no value"
  | .helpRequested => helpText
  | .versionRequested => versionText

def exitUsage (usage : Usage) : IO UInt32 := do
  match usage with
  | .helpRequested | .versionRequested =>
      IO.println usage.complaint
      return 0
  | _ =>
      IO.eprintln ("error: " ++ usage.complaint)
      return 2

def exitFailure (message : String) : IO UInt32 := do
  IO.eprintln ("Error: " ++ message)
  return 1

def report (configuration : Configuration) (level : Level) (message : String) : IO Unit := do
  let event : Event := ⟨level, Event.clientTarget, message⟩
  match event.line? (.upTo configuration.level) configuration.logsJson with
  | some line => IO.println line
  | none => return

def runConfigured (configuration : Configuration) : IO UInt32 := do
  let files ← readFiles (configuration.fragmentsPath :: configuration.runtimePath.toList)
  match configuration.run .standard files with
  | .ok session =>
      report configuration .information (Sync.Finish.completed session.head.number).text
      return 0
  | .error failure =>
      report configuration .error failure.message
      exitFailure failure.message

end FinalitySync.Client

open FinalitySync.Client in
def main (arguments : List String) : IO UInt32 := do
  match Options.ofArguments arguments with
  | .error usage => exitUsage usage
  | .ok options =>
      match Configuration.load (← readFiles options.config.toList) options with
      | .error refusal => exitFailure refusal.message
      | .ok configuration => runConfigured configuration

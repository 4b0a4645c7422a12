import FinalitySync.Chain.Checkpoint
import FinalitySync.Client.CommandLine
import FinalitySync.Client.Files
import FinalitySync.Sync.Settings
import FinalitySync.Toml.Parser

/-!
The configuration of the client: a TOML file, where there is one, and what the command line sets
on top of it.
-/

namespace FinalitySync.Client

structure Configuration where
  settings : Sync.Settings
  checkpoint : Checkpoint
  fragmentsPath : String
  runtimePath : Option String
  level : Level
  logsJson : Bool
deriving DecidableEq

namespace Configuration

def standard : Configuration where
  settings := .standard
  checkpoint := ⟨.zero, 0, .zero, 0, []⟩
  fragmentsPath := "warp_sync_fragments.scale"
  runtimePath := none
  level := .information
  logsJson := false

instance : Inhabited Configuration := ⟨standard⟩

/-- Names of the members besides those of the settings. -/
def names : List String :=
  ["checkpoint", "fragments_path", "runtime_path", "log_level", "log_format_json"]

/-- Members that are missing have their standard values. The hashes of the checkpoint may be lists
of bytes. -/
def ofDocument? (document : Document) : Option Configuration := do
  let settings ← Sync.Settings.form.read? document
  match ← document.fieldsOrMissing? names with
  | [checkpoint, fragmentsPath, runtimePath, level, logsJson] =>
      return {
        settings := settings
        checkpoint := ← (Checkpoint.formWith Hash.textOrBytes).readOr? standard.checkpoint checkpoint
        fragmentsPath := ← Form.text.readOr? standard.fragmentsPath fragmentsPath
        runtimePath :=
          ← match runtimePath with
            | none => some standard.runtimePath
            | some path => some <$> Form.text.read? path
        level := ← Level.form.readOr? standard.level level
        logsJson := ← Form.boolean.readOr? standard.logsJson logsJson }
  | _ => none

def ofFile? (content : Bytes) : Option Configuration := do
  let text ← String.fromUTF8? (ByteArray.mk content.toArray)
  ofDocument? (← Toml.parse? text)

/-- Why there is no configuration. -/
inductive Refusal
  | missingFile
  | badFile (path : String)
deriving DecidableEq

def Refusal.message : Refusal → String
  | .missingFile => "Provided config file doesn't exist."
  | .badFile path => "Failed to load configuration from " ++ path

/-- The configuration of the file that the options name. -/
def base (files : Files) (options : Options) : Except Refusal Configuration :=
  match options.config with
  | none => .ok standard
  | some path =>
      match files path with
      | .nothing => .error .missingFile
      | .unreadable => .error (.badFile path)
      | .content content =>
          match ofFile? content with
          | some configuration => .ok configuration
          | none => .error (.badFile path)

/-- Options come before what the file says. -/
def overriddenBy (configuration : Configuration) (options : Options) : Configuration where
  settings := { configuration.settings with
    requestTimeout :=
      match options.timeoutSeconds with
      | some seconds => .ofSeconds seconds.toNat
      | none => configuration.settings.requestTimeout }
  checkpoint := configuration.checkpoint
  fragmentsPath := options.fragments.getD configuration.fragmentsPath
  runtimePath := options.runtime.or configuration.runtimePath
  level := options.verbosity.getD configuration.level
  logsJson := options.logsJson || configuration.logsJson

def load (files : Files) (options : Options) : Except Refusal Configuration := do
  return (← base files options).overriddenBy options

end Configuration

end FinalitySync.Client

import FinalitySync.Client.Level

/-!
Command lines: options with a value, and flags. An option takes its value from behind an equals
sign, from the rest of its letter's argument, or from the next argument, unless that looks like
an option itself. A value that comes with the next argument is looked at only when the argument
after it is read.
-/

namespace FinalitySync.Client

/-- What a command line sets. -/
structure Options where
  config : Option String
  fragments : Option String
  runtime : Option String
  timeoutSeconds : Option UInt64
  verbosity : Option Level
  logsJson : Bool
deriving DecidableEq

/-- Why a command line sets nothing. -/
inductive Usage
  | unknownArgument
  | badValue
  | missingValue
  | repeated
  | unexpectedValue
  | helpRequested
  | versionRequested
deriving DecidableEq, Repr

namespace Options

def none : Options := ⟨.none, .none, .none, .none, .none, false⟩

instance : Inhabited Options := ⟨none⟩

/-- The options with a value. -/
inductive Setting
  | config
  | fragments
  | runtime
  | timeout
  | verbosity
deriving DecidableEq, Repr

inductive Flag
  | logsJson
  | help
  | version
deriving DecidableEq, Repr

/-- What a name or a letter stands for. -/
inductive Switch
  | setting (setting : Setting)
  | flag (flag : Flag)

def Switch.ofName? (name : List Char) : Option Switch :=
  match String.ofList name with
  | "config" => some (.setting .config)
  | "fragments" => some (.setting .fragments)
  | "runtime" => some (.setting .runtime)
  | "fragment-request-timeout" => some (.setting .timeout)
  | "verbosity" => some (.setting .verbosity)
  | "logs-json" => some (.flag .logsJson)
  | "help" => some (.flag .help)
  | "version" => some (.flag .version)
  | _ => .none

def Switch.ofLetter? : Char → Option Switch
  | 'c' => some (.setting .config)
  | 'f' => some (.setting .fragments)
  | 'r' => some (.setting .runtime)
  | 'h' => some (.flag .help)
  | 'V' => some (.flag .version)
  | _ => .none

/-- A number of 64 bits, with or without a plus sign. -/
def seconds? (text : String) : Option UInt64 := do
  let characters := text.toList
  let value ← Decimal.value?
    (if characters.head? = some '+' then characters.tail else characters)
  if value < 2 ^ 64 then return UInt64.ofNat value else failure

def isSet (options : Options) : Setting → Bool
  | .config => options.config.isSome
  | .fragments => options.fragments.isSome
  | .runtime => options.runtime.isSome
  | .timeout => options.timeoutSeconds.isSome
  | .verbosity => options.verbosity.isSome

def valueOr {α : Type} : Option α → Except Usage α
  | some value => .ok value
  | .none => .error .badValue

/-- Sets what was not set before. -/
def set (options : Options) (setting : Setting) (value : String) : Except Usage Options :=
  if options.isSet setting then .error .repeated
  else
    match setting with
    | .config => .ok { options with config := some value }
    | .fragments => .ok { options with fragments := some value }
    | .runtime => .ok { options with runtime := some value }
    | .timeout => do
        return { options with timeoutSeconds := some (← valueOr (seconds? value)) }
    | .verbosity => do
        return { options with verbosity := some (← valueOr (Level.ofText? value)) }

def raise (options : Options) : Flag → Except Usage Options
  | .help => .error .helpRequested
  | .version => .error .versionRequested
  | .logsJson =>
      if options.logsJson then .error .repeated else .ok { options with logsJson := true }

/-- An option whose value is not yet looked at, and the value if it has come. -/
structure Pending where
  setting : Setting
  value : Option String

structure Reading where
  options : Options
  pending : Option Pending

namespace Reading

/-- The options once the value that is pending is looked at. -/
def settled (reading : Reading) : Except Usage Options :=
  match reading.pending with
  | .none => .ok reading.options
  | some ⟨_, .none⟩ => .error .missingValue
  | some ⟨setting, some value⟩ => reading.options.set setting value

/-- Sets an option whose value is attached, or waits for its value. -/
def withSetting (reading : Reading) (setting : Setting) (attached : Option String) :
    Except Usage Reading := do
  let options ← reading.settled
  match attached with
  | some value => return ⟨← options.set setting value, .none⟩
  | .none => return ⟨options, some ⟨setting, .none⟩⟩

def withFlag (reading : Reading) (flag : Flag) : Except Usage Reading := do
  let options ← reading.settled
  return ⟨← options.raise flag, .none⟩

/-- An argument that is no option: the value that is waited for. -/
def withPlain (reading : Reading) (argument : String) : Except Usage Reading :=
  match reading.pending with
  | some ⟨setting, .none⟩ =>
      .ok { reading with pending := some ⟨setting, some argument⟩ }
  | _ => .error .unknownArgument

/-- An argument behind two dashes, split at its first equals sign. -/
def withName (reading : Reading) (text : List Char) : Except Usage Reading :=
  let name := text.takeWhile (· != '=')
  let attached := match text.dropWhile (· != '=') with
    | [] => .none
    | _ :: value => some (String.ofList value)
  match Switch.ofName? name, attached with
  | .none, _ => .error .unknownArgument
  | some (.setting setting), attached => reading.withSetting setting attached
  | some (.flag _), some _ => .error .unexpectedValue
  | some (.flag flag), .none => reading.withFlag flag

/-- Letters behind one dash. What follows an option's letter is its value, without an equals sign
in front. -/
def withLetters (reading : Reading) : List Char → Except Usage Reading
  | [] => .ok reading
  | letter :: rest =>
      match Switch.ofLetter? letter with
      | .none => .error .unknownArgument
      | some (.flag flag) => do withLetters (← reading.withFlag flag) rest
      | some (.setting setting) =>
          match rest with
          | [] => reading.withSetting setting .none
          | '=' :: value => reading.withSetting setting (some (String.ofList value))
          | value => reading.withSetting setting (some (String.ofList value))

/-- Reads arguments in order. Two dashes alone end the options, and nothing may follow them. -/
def readAll (reading : Reading) : List String → Except Usage Options
  | [] => reading.settled
  | argument :: arguments =>
      match argument.toList with
      | ['-', '-'] => if arguments.isEmpty then reading.settled else .error .unknownArgument
      | '-' :: '-' :: text => do (← reading.withName text).readAll arguments
      | ['-'] => do (← reading.withPlain argument).readAll arguments
      | '-' :: letters => do (← reading.withLetters letters).readAll arguments
      | _ => do (← reading.withPlain argument).readAll arguments

end Reading

/-- What a command line sets, without the name of the program. -/
def ofArguments (arguments : List String) : Except Usage Options :=
  Reading.readAll ⟨none, .none⟩ arguments

end Options

end FinalitySync.Client

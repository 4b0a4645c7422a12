import FinalitySync.Document.Form
import FinalitySync.Text.Decimal

/-!
How severe a log event is, and which events pass a filter.
-/

namespace FinalitySync.Client

/-- Levels of log events, most severe first. -/
inductive Level
  | error
  | warning
  | information
  | debug
  | trace
deriving DecidableEq, Repr

namespace Level

def all : List Level := [.error, .warning, .information, .debug, .trace]

def name : Level → String
  | .error => "ERROR"
  | .warning => "WARN"
  | .information => "INFO"
  | .debug => "DEBUG"
  | .trace => "TRACE"

/-- Levels are also numbered, from one for the most severe. -/
def number : Level → Nat
  | .error => 1
  | .warning => 2
  | .information => 3
  | .debug => 4
  | .trace => 5

/-- Reads a number, with or without a plus sign, or a name in letters of either case. -/
def ofText? (text : String) : Option Level :=
  let characters := text.toList
  let digits := if characters.head? = some '+' then characters.tail else characters
  match Decimal.value? digits with
  | some value => all.find? fun level => level.number == value
  | none => all.find? fun level => level.name.toList == characters.map Char.toUpper

def form : Form Level := Form.spelled name ofText?

end Level

/-- A rule for events of the targets that begin with a text. -/
structure Directive where
  targets : String
  level : Level
deriving DecidableEq

/-- Which events pass: the rule for the longest beginning of their target decides. -/
structure LogFilter where
  directives : List Directive
deriving DecidableEq

namespace LogFilter

/-- Lets events of this program pass up to a level, and warnings of everything else. -/
def upTo (level : Level) : LogFilter :=
  ⟨[⟨"warp_sync_core", level⟩, ⟨"warp_sync_client", level⟩, ⟨"", .warning⟩]⟩

/-- The rule for a target. -/
def directive? (filter : LogFilter) (target : String) : Option Directive :=
  (filter.directives.filter fun directive =>
    directive.targets.toList.isPrefixOf target.toList).foldl longer none
where
  longer : Option Directive → Directive → Option Directive
    | none, directive => some directive
    | some best, directive =>
        if best.targets.length < directive.targets.length then some directive else some best

def passes (filter : LogFilter) (target : String) (level : Level) : Bool :=
  match filter.directive? target with
  | some directive => level.number ≤ directive.level.number
  | none => false

end LogFilter

end FinalitySync.Client

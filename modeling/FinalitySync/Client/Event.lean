import FinalitySync.Client.Level
import FinalitySync.Json.Printer

/-!
Log events and the lines that report them.
-/

namespace FinalitySync.Client

structure Event where
  level : Level
  target : String
  message : String
deriving DecidableEq

namespace Event

/-- The target of the client's own events. -/
def clientTarget : String := "warp_sync_client"

/-- An event as a JSON object or as plain text. -/
def line (event : Event) (asJson : Bool) : String :=
  if asJson then
    Json.print (.record [("level", .ofText event.level.name), ("target", .ofText event.target),
      ("message", .ofText event.message)])
  else event.level.name ++ " " ++ event.target ++ ": " ++ event.message

/-- The line of an event that passes a filter. -/
def line? (event : Event) (filter : LogFilter) (asJson : Bool) : Option String :=
  if filter.passes event.target event.level then some (event.line asJson) else none

end Event

end FinalitySync.Client

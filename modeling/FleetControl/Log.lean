import FleetControl.Json

/-!
# Log entries

A log entry is a message with a level.  Where entries are kept or printed, each
carries the time at which it was made.
-/

namespace FleetControl
namespace Log

/-- How serious a message is. -/
inductive Level where
  | info
  | error
deriving DecidableEq

/-- The name of a level in kept entries and in log files. -/
def Level.name : Level → Text
  | .info => text "info"
  | .error => text "error"

/-- A message with its level. -/
structure Entry where
  level : Level
  message : Text
deriving DecidableEq

/-- An entry as an object, with the time in seconds. -/
def Entry.toJson (time : Int64) (entry : Entry) : Json :=
  .ofEntries
    [(text "ts", .signed time), (text "level", .string entry.level.name),
      (text "msg", .string entry.message)]

end Log
end FleetControl

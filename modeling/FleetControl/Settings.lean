import FleetControl.Console
import FleetControl.Json.Reader
import FleetControl.Session

/-!
# Settings

Settings are read from a JSON object in a file.  An empty path means no
settings, and a file that cannot be used counts as none, which is logged.

Texts have to be texts: one of another kind is a fault when it is asked for.
Counts fall back to their defaults unless they are whole numbers from zero to
the largest signed one of 64 bits.
-/

namespace FleetControl

/-- The path of the settings and what was read from it. -/
structure Settings where
  path : Text
  entries : Dict Json

namespace Settings

/-- The object in the file at a path. -/
def readObject (files : FileTree) (path : Text) : Except Fault (Dict Json) :=
  match files.read? path with
  | none => .error (.noConfiguration path)
  | some content =>
    match Json.read? content with
    | none => .error .json
    | some (.object entries) => .ok entries
    | some _ => .error (.configurationNoObject path)

/-- The settings at a path, and the log entry on how reading them went. -/
def load (files : FileTree) (path : Text) : Settings × List Log.Entry :=
  if path.isEmpty then (⟨path, []⟩, [])
  else match readObject files path with
    | .ok entries =>
      (⟨path, entries⟩,
        [⟨.info, text "[ConfigManager] Loaded config from " ++ path⟩])
    | .error fault =>
      (⟨path, []⟩,
        [⟨.error, text "[ConfigManager] Error loading config: "
          ++ fault.message⟩])

/-- The text under a key, or a default if there is nothing. -/
def textAt (settings : Settings) (key default : String) : Except Fault Text :=
  match settings.entries.get? (text key) with
  | none => .ok (text default)
  | some (.string t) => .ok t
  | some _ => .error .json

/-- The count under a key, or a default if there is none that fits. -/
def countAt (settings : Settings) (key : String) (default : Nat) : Nat :=
  match (settings.entries.get? (text key)).bind Json.integer? with
  | some n => if 0 ≤ n ∧ n ≤ Int64.maxValue.toInt then n.toNat else default
  | none => default

/-- The user whose session is served. -/
def userId (settings : Settings) : Except Fault Text :=
  settings.textAt "user_id" "default"

/-- The path of the log file; empty for none. -/
def logFile (settings : Settings) : Except Fault Text :=
  settings.textAt "log_file" ""

/-- The path of the command journal; empty for the output stream. -/
def journalPath (settings : Settings) : Except Fault Text :=
  settings.textAt "journal_path" ""

/-- How many log entries are kept for the summary. -/
def maxLogBuffer (settings : Settings) : Nat :=
  settings.countAt "max_log_buffer" 200

/-- How many robots the user may have. -/
def maxRobots (settings : Settings) : Nat :=
  settings.countAt "max_robots" 10

/-- How many containers the user may have. -/
def maxContainers (settings : Settings) : Nat :=
  settings.countAt "max_containers" 10

/-- The longest keys that may be asked for, in bytes. -/
def keyBytesLimit : Nat := 1024

/-- How many random bytes a robot's key has; zero asks for the default. -/
def robotKeyBytes (settings : Settings) : Nat :=
  let bytes := settings.countAt "robot_key_bytes" 16
  if bytes = 0 then 16 else min bytes keyBytesLimit

/-- The limits of the user's session. -/
def limits (settings : Settings) : Limits :=
  ⟨settings.maxRobots, settings.maxContainers, settings.robotKeyBytes⟩

end Settings
end FleetControl

import FleetControl.Settings
import FleetControl.Journal
import FleetControl.Request
import FleetControl.Log.Buffer

/-!
# The program

One run of the program serves the session of one user: it reads the settings,
answers the requests of a file, destroys the session and sums up.
`Program.run` gives the exit code and the transcript of the run, which lists
everything that is printed or kept, oldest first; `Outcome.replay` plays a
transcript on a console.

All answers are worked out before the first of them is printed.  A fault that
ends the run early ends the session first, if there is one.
-/

namespace FleetControl
namespace Program

/-- What a run prints or keeps. -/
inductive Output where
  /-- An entry of the program's own log, which has no file. -/
  | announced (entry : Log.Entry)
  /-- An entry of the session's log. -/
  | logged (entry : Log.Entry)
  /-- A command that the journal has accepted. -/
  | journaled (command : Command)
  /-- The answer to a request. -/
  | answered (answer : Json)
  /-- The summary of a run that came to its end. -/
  | summed (summary : Json)
  /-- The fault that ended the run early. -/
  | failed (fault : Fault)

/-- What a run starts from: its arguments, the files, the random bytes
and the time. -/
structure Start where
  arguments : List Text
  files : FileTree
  entropy : Entropy
  time : Int64

/-- A run that is over. -/
structure Outcome where
  exitCode : UInt32
  logFile : Text
  journalPath : Text
  time : Int64
  files : FileTree
  transcript : List Output

/-- The path of the settings unless the first argument gives one. -/
def defaultSettingsPath : Text :=
  text "/etc/rce/master.json"

/-- The path of the settings. -/
def settingsPath (start : Start) : Text :=
  start.arguments.head?.getD defaultSettingsPath

/-- The path of the requests; empty for none. -/
def requestsPath (start : Start) : Text :=
  (start.arguments.drop 1).head?.getD []

/-! ## Before the session -/

/-- The entries that are printed before anything else. -/
def opening (start : Start) : List Output :=
  let (settings, entries) := Settings.load start.files (settingsPath start)
  let path : Log.Entry := ⟨.info, text "Using config: " ++ settings.path⟩
  (entries ++ [path]).map .announced

/-- The files after the journal has been opened, unless it is the
output stream. -/
def openJournal (files : FileTree) (path : Text) : Except Fault FileTree :=
  if path.isEmpty then .ok files else Journal.openAt files path

/-- The requests in the file at a path; no path means no requests. -/
def readRequests (files : FileTree) (path : Text) : Except Fault Json :=
  if path.isEmpty then .ok (.array [])
  else match files.read? path with
    | none => .error (.noRequests path)
    | some content =>
      match Json.read? content with
      | some requests => .ok requests
      | none => .error .json

/-- The session of a user whose only delegate is a journal. -/
def newSession (userId : Text) (limits : Limits) (entropy : Entropy) :
    Session :=
  let deaf : Listener := ⟨none, false, fun _ _ _ => none, 0⟩
  let fleet := Fleet.empty deaf
  let journal := fleet.controls.next
  Session.new userId (some journal) (some journal) limits entropy
    { fleet with controls := fleet.controls.insert .journal }

/-! ## The session -/

/-- What an event of the session's fleet adds to the transcript. -/
def ofEvent : Event → Option Output
  | .logged entry => some (.logged entry)
  | .commanded _ command => some (.journaled command)
  | .notified _ _ => none

/-- The outputs of a session since its history was empty, oldest first. -/
def outputs (session : Session) : List Output :=
  session.fleet.history.reverse.filterMap ofEvent

/-- The session with an empty history. -/
def forgetHistory (session : Session) : Session :=
  { session with fleet := { session.fleet with history := [] } }

/-- The answers as outputs, up to the first that cannot be printed. -/
def printAnswers : List Json → List Output × Bool
  | [] => ([], true)
  | answer :: rest =>
    if answer.isPrintable then
      let (outputs, all) := printAnswers rest
      (.answered answer :: outputs, all)
    else ([], false)

/-- The session's log entries of a transcript. -/
def loggedEntries (transcript : List Output) : List Log.Entry :=
  transcript.filterMap fun
    | .logged entry => some entry
    | _ => none

/-- The commands of a transcript. -/
def journaledCommands (transcript : List Output) : List Command :=
  transcript.filterMap fun
    | .journaled command => some command
    | _ => none

/-- How many commands there were, and the newest log entries with the number of
errors among them. -/
def summary (capacity : Nat) (time : Int64) (transcript : List Output) : Json :=
  let kept := (loggedEntries transcript).foldl (fun b entry => b.push entry)
    (Log.Buffer.empty capacity)
  .ofEntries
    [(text "commands", .ofNat (journaledCommands transcript).length),
      (text "errors", .ofNat (kept.countLevel Log.Level.error.name)),
      (text "logs", .array (kept.flush.1.map (Log.Entry.toJson time)))]

/-- What a run of the session adds to the transcript, from the requests on, and
the fault that ends it early, if there is one. -/
def serve (settings : Settings) (time : Int64) (requests : Json)
    (session : Session) :
    List Output × Option Fault :=
  let session := { session with
    fleet := session.fleet.log .info
      (text "RCE master session " ++ session.userId.quoted
        ++ text " starting") }
  let (answers, session) := session.handleAll requests
  let (printed, all) := printAnswers answers
  let transcript := outputs session ++ printed
  let session := forgetHistory session
  if !all then (transcript ++ outputs session.close, some .json)
  else match Act.run Session.destroy session with
    | (.error fault, session) => (transcript ++ outputs session, some fault)
    | (.ok _, session) =>
      let transcript := transcript ++ outputs session
      let summary := summary settings.maxLogBuffer time transcript
      if summary.isPrintable then (transcript ++ [.summed summary], none)
      else (transcript, some .json)

/-! ## The run -/

/-- The outcome with what a run has come to. -/
def finish (outcome : Outcome) (more : List Output) : Option Fault → Outcome
  | none =>
    { outcome with transcript := outcome.transcript ++ more, exitCode := 0 }
  | some fault =>
    { outcome with
      transcript := outcome.transcript ++ more ++ [.failed fault]
      exitCode := 1 }

/-- One run of the program. -/
def run (start : Start) : Outcome :=
  let settings := (Settings.load start.files (settingsPath start)).1
  let begun : Outcome := ⟨0, [], [], start.time, start.files, opening start⟩
  match settings.logFile with
  | .error fault => finish begun [] (some fault)
  | .ok logFile =>
  match settings.journalPath with
  | .error fault => finish begun [] (some fault)
  | .ok journalPath =>
  match openJournal start.files journalPath with
  | .error fault => finish begun [] (some fault)
  | .ok files =>
  let opened :=
    { begun with
      logFile := logFile, journalPath := journalPath, files := files }
  match settings.userId with
  | .error fault => finish opened [] (some fault)
  | .ok userId =>
  let session := newSession userId settings.limits start.entropy
  match readRequests files (requestsPath start) with
  | .error fault => finish opened (outputs session.close) (some fault)
  | .ok requests =>
    let (more, fault) := serve settings start.time requests session
    finish opened more fault

/-! ## Replaying a run -/

/-- Appends the line of a command to the journal, or prints it. -/
def writeCommand (journalPath : Text) (command : Command) (console : Console) :
    Console :=
  match command.line? with
  | none => console
  | some line =>
    if journalPath.isEmpty then console.printLine line
    else
      { console with
        files :=
          (console.files.append? journalPath (line ++ [Text.newline])).getD
            console.files }

/-- Plays one output on a console. -/
def play (outcome : Outcome) (console : Console) : Output → Console
  | .announced entry => console.log [] outcome.time entry
  | .logged entry => console.log outcome.logFile outcome.time entry
  | .journaled command => writeCommand outcome.journalPath command console
  | .answered answer => console.printLine answer.render
  | .summed summary => console.printLine summary.render
  | .failed fault => console.printError (text "[FATAL] " ++ fault.message)

/-- What stands on the console and in the files when the run is over. -/
def Outcome.replay (outcome : Outcome) : Console :=
  outcome.transcript.foldl (play outcome) (Console.start outcome.files)

end Program
end FleetControl

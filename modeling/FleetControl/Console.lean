import FleetControl.FileTree
import FleetControl.Log

/-!
# Consoles

A console has two streams of output and the files beside it.  It prints log
entries, the serious ones to the error stream, and repeats each of them in a log
file if there is one.  Keeping the log file is best effort: a log file that
cannot be opened is passed over, and a folder that cannot be made is reported on
the error stream.
-/

namespace FleetControl

/-- The output of a program so far, and the files. -/
structure Console where
  out : Text
  err : Text
  files : FileTree

namespace Console

/-- The console on which nothing has been printed. -/
def start (files : FileTree) : Console :=
  ⟨[], [], files⟩

/-- Prints a line of output. -/
def printLine (line : Text) (console : Console) : Console :=
  { console with out := console.out ++ line ++ [Text.newline] }

/-- Prints a line to the error stream. -/
def printError (line : Text) (console : Console) : Console :=
  { console with err := console.err ++ line ++ [Text.newline] }

/-- Prints a log entry. -/
def print (entry : Log.Entry) (console : Console) : Console :=
  match entry.level with
  | .info => console.printLine (text "[INFO] " ++ entry.message)
  | .error => console.printError (text "[ERROR] " ++ entry.message)

/-- The line of a log file for an entry. -/
def fileLine (time : Int64) (entry : Log.Entry) : Text :=
  Text.ofInt time.toInt ++ text " [" ++ entry.level.name
    ++ text "] " ++ entry.message ++ [Text.newline]

/-- Appends a log entry to a log file, whose folder is made if it is missing. -/
def keep (logFile : Text) (time : Int64) (entry : Log.Entry)
    (console : Console) : Console :=
  let folder := FileTree.parent logFile
  let (made, files) :=
    if folder.isEmpty then (true, console.files)
    else console.files.createFolders folder
  if made then
    { console with
      files := (files.append? logFile (fileLine time entry)).getD files }
  else
    { console with files := files }.printError
      (text "[ERROR] Cannot append to log file " ++ logFile
        ++ text ": <fs error>")

/-- Prints a log entry and, unless its path is empty, keeps it in a log file. -/
def log (logFile : Text) (time : Int64) (entry : Log.Entry)
    (console : Console) : Console :=
  let console := console.print entry
  if logFile.isEmpty then console else console.keep logFile time entry

end Console
end FleetControl

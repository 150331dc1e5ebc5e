import FleetControl.Program
import Std.Time.DateTime.Timestamp

/-!
# The command line

The arguments are the path of the settings and the path of the requests, both
optional.  The run itself is `Program.run`: here the part of the disk, the
random bytes and the time that it starts from are gathered, and what it has come
to is written out.
-/

namespace FleetControl
namespace CommandLine

/-- The bytes of a text. -/
def bytes (t : Text) : ByteArray :=
  ⟨t.toArray⟩

/-- The name of a location on the disk. -/
def diskName (location : Location) : String :=
  (String.fromUTF8? (bytes
    (location.flatMap fun name => Text.slash :: name))).getD ""

/-- What stands at a location; of a file that can be written, only that
it is there. -/
def look (location : Location) : IO (Option FileNode) := do
  try
    let _ ← IO.FS.Handle.mk (diskName location) .readWrite
    return some (.file [])
  catch _ =>
    try
      let _ ← IO.FS.Handle.mk (diskName location) .read
      return some .folder
    catch _ => return none

/-- The content of a file that can be read. -/
def content? (location : Location) : IO (Option Text) := do
  try
    let handle ← IO.FS.Handle.mk (diskName location) .read
    return some (← handle.readBinToEnd).toList
  catch _ => return none

/-- The tree with what stands on the disk along a way. -/
def survey (tree : FileTree) (location : Location) : List Text → IO FileTree
  | [] => return tree
  | name :: rest => do
    let next := FileTree.enter location name
    match ← look next with
    | none => return tree
    | some node => survey (tree.put next node) next rest

/-- The tree with what stands on the disk along a path. -/
def surveyPath (tree : FileTree) (path : Text) : IO FileTree :=
  let path := path.cut
  survey tree (tree.start path) (FileTree.names path)

/-- The tree with the file that a path leads to, if it can be read. -/
def fetch (tree : FileTree) (path : Text) : IO FileTree := do
  let tree ← surveyPath tree path
  match tree.locate? path with
  | none => return tree
  | some location =>
    match ← content? location with
    | none => return tree
    | some content => return tree.put location (.file content)

/-- The tree of the working folder alone. -/
def workingFolder : IO FileTree := do
  let home := FileTree.names (text (← IO.currentDir).toString)
  let home := home.filter fun name => !name.isEmpty
  return ⟨home, [(home, .folder)]⟩

/-- The files that a run with these arguments may read or write. -/
def gatherFiles (start : Program.Start) : IO FileTree := do
  let settingsPath := Program.settingsPath start
  let requestsPath := Program.requestsPath start
  let tree ← fetch (← workingFolder) settingsPath
  let settings := (Settings.load tree settingsPath).1
  let mut tree := tree
  for path in [settings.logFile, settings.journalPath] do
    if let .ok path := path then tree ← surveyPath tree path
  tree ← fetch tree settingsPath
  fetch tree requestsPath

/-- As many random bytes as the robots of these requests may need: each request
is an object. -/
def gatherEntropy (start : Program.Start) : IO Entropy := do
  let settings := (Settings.load start.files (Program.settingsPath start)).1
  let requests := (start.files.read? (Program.requestsPath start)).getD []
  let random ← IO.getRandomBytes
    (settings.robotKeyBytes * requests.count 0x7b).toUSize
  return {
    stream := fun k => (random[k]?).getD 0
    fails := fun _ => false
    taken := 0
    calls := 0 }

/-- What a run with these arguments starts from. -/
def gather (arguments : List Text) : IO Program.Start := do
  let now ← Std.Time.Timestamp.now
  let time := Int64.ofInt now.toSecondsSinceUnixEpoch.val
  let dry : Entropy :=
    { stream := fun _ => 0, fails := fun _ => false, taken := 0, calls := 0 }
  let start : Program.Start := ⟨arguments, .empty, dry, time⟩
  let start := { start with files := ← gatherFiles start }
  return { start with entropy := ← gatherEntropy start }

/-- Writes to the disk what a run has added to one location. -/
def saveNode (before : FileTree) (location : Location) (node : FileNode) :
    IO Unit :=
  match node, before.node? location with
  | .folder, some .folder => return
  | .folder, _ => IO.FS.createDirAll (diskName location)
  | .file content, some (.file old) => do
    if content ≠ old then
      let handle ← IO.FS.Handle.mk (diskName location) .append
      handle.write (bytes (content.drop old.length))
  | .file content, _ => do
    let handle ← IO.FS.Handle.mk (diskName location) .append
    handle.write (bytes content)

/-- Writes to the disk what a run has added, as far as the disk allows. -/
def save (before after : FileTree) : IO Unit := do
  for (location, node) in after.nodes.reverse do
    try saveNode before location node
    catch _ => pure ()

end CommandLine
end FleetControl

open FleetControl in
/-- Runs the program on the disk. -/
def main (arguments : List String) : IO UInt32 := do
  let start ← CommandLine.gather (arguments.map text)
  let outcome := Program.run start
  let console := outcome.replay
  let out ← IO.getStdout
  out.write (CommandLine.bytes console.out)
  out.flush
  let err ← IO.getStderr
  err.write (CommandLine.bytes console.err)
  err.flush
  CommandLine.save start.files console.files
  return outcome.exitCode

import FleetControl.FileTree
import FleetControl.Fleet
import FleetControl.Json.Printer

/-!
# Command journals

A journal writes each command as one line of JSON, `op` for the name of the
command and `command` for its body.  A command with an ill-formed string has no
line; it is refused, and the journal neither grows nor counts it.

`Control.journal` is a delegate that does nothing but write: it accepts exactly
the commands that have a line.
-/

namespace FleetControl

namespace Command

/-- The command as an object of its name and body. -/
def toJson (command : Command) : Json :=
  .ofEntries [(text "op", .string command.name), (text "command", command.body)]

/-- The line of a command, unless a string in it is ill formed. -/
def line? (command : Command) : Option Text :=
  command.toJson.print?

end Command

/-- A delegate that can do everything and refuses only what it cannot
write down. -/
def Control.journal : Control where
  capabilities := [.robot, .container, .node, .parameter]
  objection :=
    fun _ command => if command.line?.isSome then none else some .json
  calls := 0

/-- The lines that have been written, and how many commands they are. -/
structure Journal where
  written : Text
  count : Nat
deriving DecidableEq

namespace Journal

/-- The journal that goes on after what is written already. -/
def startingWith (written : Text) : Journal :=
  ⟨written, 0⟩

/-- The files with the file of a journal opened, which is made if it
is missing. -/
def openAt (files : FileTree) (path : Text) : Except Fault FileTree :=
  match files.append? path [] with
  | some files => .ok files
  | none => .error (.noJournal path)

/-- Writes the line of a command. -/
def write (command : Command) : Act Journal Unit := do
  match command.line? with
  | none => throw .json
  | some line =>
    modify fun journal =>
      { journal with
        written := journal.written ++ line ++ [Text.newline]
        count := journal.count + 1 }

end Journal
end FleetControl

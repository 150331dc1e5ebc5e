import FleetControl.Program
import FleetControl.Proofs.FileTree

/-!
# Playing a run

Playing the transcript of a run prints what each of its outputs prints, in their
order, and each command of it becomes one line more of the journal: on the
output stream, or at the end of a file, which can be appended to from the time
when it was opened.
-/

namespace FleetControl

namespace Console

end Console

namespace Program

variable {outcome : Outcome} {console : Console}

/-- What a log entry prints to the output stream. -/
def printedEntry (entry : Log.Entry) : Text :=
  match entry.level with
  | .info => text "[INFO] " ++ entry.message ++ [Text.newline]
  | .error => []

/-- What an output prints to the output stream. -/
def printed (journalPath : Text) : Output → Text
  | .announced entry | .logged entry => printedEntry entry
  | .journaled command =>
    if journalPath.isEmpty then
      (command.line?.map (· ++ [Text.newline])).getD [] else []
  | .answered answer => answer.render ++ [Text.newline]
  | .summed summary => summary.render ++ [Text.newline]
  | .failed _ => []

end Program
end FleetControl

import FleetControl.Proofs.Command
import FleetControl.Proofs.Json.Line
import FleetControl.Proofs.Text.Fields

/-!
# A journal tells its calls

Each call with well-formed strings adds one line, and any other call adds
nothing, so the count of a journal is the number of the lines that it has added.
Cutting the text at the ends of its lines and reading the lines gives the calls
again, in their order.
-/

namespace FleetControl

namespace Text

/-- The lines of a text: what stands before each byte that ends a line. -/
def lines (t : Text) : List Text :=
  (pieces newline t).dropLast

/-- A text of lines is cut into these lines. -/
theorem lines_flatMap {written : List Text}
    (h : ∀ line ∈ written, newline ∉ line) :
    lines (written.flatMap fun line => line ++ [newline]) = written := by
  induction written with
  | nil => rfl
  | cons line rest ih =>
    have hrest := ih fun other hother => h other (List.mem_cons_of_mem _ hother)
    have hline := pieces_append_separator (h line List.mem_cons_self)
      (rest.flatMap fun line => line ++ [newline])
    rw [List.flatMap_cons, List.append_assoc, List.singleton_append, lines,
      hline, List.dropLast_cons_of_ne_nil (pieces_ne_nil _ _), ← lines, hrest]

end Text

namespace Journal

/-- The journal after a call of each command in turn, whether it
succeeds or not. -/
def afterCalls (journal : Journal) (calls : List Command) : Journal :=
  calls.foldl (fun journal command => (Act.run (write command) journal).2)
    journal

/-- A command with well-formed strings adds its line. -/
theorem run_write_of_isPrintable {command : Command}
    (h : command.isPrintable = true) (journal : Journal) :
    Act.run (write command) journal =
      (.ok (),
        { written := journal.written
          ++ (command.toJson.render ++ [Text.newline])
          count := journal.count + 1 }) := by
  rw [← Command.isPrintable_toJson] at h
  rw [write, Command.line?_eq_some h, ← List.append_assoc]
  rfl

/-- A command with an ill-formed string adds nothing. -/
theorem run_write_of_not_isPrintable {command : Command}
    (h : command.isPrintable = false) (journal : Journal) :
    Act.run (write command) journal = (.error .json, journal) := by
  have hline : command.line? = none := by
    rw [Command.line?, Json.print?, Command.isPrintable_toJson, h]
    rfl
  rw [write, hline]
  rfl

/-- The text that the calls add: a line for each successful one. -/
def textOf (calls : List Command) : Text :=
  (calls.filter Command.isPrintable).flatMap fun command =>
    command.toJson.render ++ [Text.newline]

theorem afterCalls_eq (journal : Journal) (calls : List Command) :
    journal.afterCalls calls =
      { written := journal.written ++ textOf calls
        count :=
          journal.count + (calls.filter Command.isPrintable).length } := by
  induction calls generalizing journal with
  | nil => simp [afterCalls, textOf]
  | cons command rest ih =>
    have hcons : journal.afterCalls (command :: rest) =
        (Act.run (write command) journal).2.afterCalls rest := rfl
    rw [hcons, ih, textOf, textOf]
    cases h : command.isPrintable with
    | true =>
      rw [run_write_of_isPrintable h, List.filter_cons_of_pos h,
        List.flatMap_cons, List.length_cons]
      simp only [List.append_assoc, Nat.add_comm, Nat.add_left_comm]
    | false =>
      rw [run_write_of_not_isPrintable h, List.filter_cons_of_neg (by simp [h])]

theorem lines_textOf (calls : List Command) :
    Text.lines (textOf calls) =
      (calls.filter Command.isPrintable).map fun command =>
        command.toJson.render := by
  have hflat :
      textOf calls = ((calls.filter Command.isPrintable).map fun command =>
      command.toJson.render).flatMap fun line => line ++ [Text.newline] := by
    rw [textOf, List.flatMap_map]
  rw [hflat, Text.lines_flatMap]
  intro line hline
  obtain ⟨command, -, rfl⟩ := List.mem_map.mp hline
  exact Json.newline_notMem_render _

theorem readWhole?_lines (calls : List Command) :
    (Text.lines (textOf calls)).map Json.readWhole? =
      (calls.filter Command.isPrintable).map fun command =>
        some command.toJson.normal := by
  rw [lines_textOf, List.map_map]
  refine List.map_congr_left fun command hcommand => ?_
  apply Json.readWhole?_render
  rw [Command.isPrintable_toJson]
  exact (List.mem_filter.mp hcommand).2

/-- The lines that calls add tell the calls. -/
theorem ofJson?_lines (calls : List Command) :
    (Text.lines (textOf calls)).map
      (fun line => (Json.readWhole? line).bind Command.ofJson?) =
      (calls.filter Command.isPrintable).map fun command =>
        some command.normal := by
  have hread :=
    congrArg (List.map fun value => value.bind Command.ofJson?)
      (readWhole?_lines calls)
  rw [List.map_map, List.map_map] at hread
  exact hread.trans
    (List.map_congr_left fun command _ => command.ofJson?_normal)

/-- A journal tells its calls.  A call with well-formed strings adds one
line, which ends with its only newline, and counts; a call with an ill-formed
string is refused and changes nothing.  So the count after any calls is the
number of lines that have been added, and the lines, cut at the newlines and
read one by one, give the operation and the body of each successful call in
turn, and from these the call itself with all its arguments.  Journals with
the same text have had the same successful calls, up to what `Json.normal`
makes of their values. -/
theorem calls_of_lines (earlier : Text) (calls : List Command) :
    (∀ (command : Command) (journal : Journal),
      (command.isPrintable = true → ∃ line, Text.newline ∉ line ∧
        Act.run (write command) journal =
          (.ok (),
            { written := journal.written ++ (line ++ [Text.newline])
              count := journal.count + 1 })) ∧
      (command.isPrintable = false →
        Act.run (write command) journal = (.error .json, journal))) ∧
    let journal := (startingWith earlier).afterCalls calls
    let successful := calls.filter Command.isPrintable
    (∃ added, journal.written = earlier ++ added ∧
      journal.count = (Text.lines added).length ∧
      (Text.lines added).map Json.readWhole? =
        successful.map (fun command => some (.ofEntries
          [(text "op", .string command.name),
            (text "command", command.body.normal)])) ∧
      (Text.lines added).map
        (fun line => (Json.readWhole? line).bind Command.ofJson?) =
        successful.map fun command => some command.normal) ∧
    ∀ others, ((startingWith earlier).afterCalls others).written =
      journal.written →
      (others.filter Command.isPrintable).map Command.normal =
        successful.map Command.normal := by
  refine ⟨fun command journal =>
    ⟨fun h => ?_, fun h => run_write_of_not_isPrintable h journal⟩, ?_⟩
  · exact ⟨command.toJson.render, Json.newline_notMem_render _,
      run_write_of_isPrintable h journal⟩
  intro journal successful
  have hjournal : journal.written = earlier ++ textOf calls := by
    rw [show journal = _ from afterCalls_eq _ calls]
    rfl
  have hcount : journal.count = (Text.lines (textOf calls)).length := by
    rw [show journal = _ from afterCalls_eq _ calls, lines_textOf,
      List.length_map]
    exact Nat.zero_add _
  refine ⟨⟨textOf calls, hjournal, hcount, readWhole?_lines calls,
    ofJson?_lines calls⟩, ?_⟩
  intro others hsame
  rw [hjournal, afterCalls_eq] at hsame
  have htext : textOf others = textOf calls := List.append_cancel_left hsame
  have hcalls := ofJson?_lines others
  rw [htext, ofJson?_lines calls] at hcalls
  have hmap : (successful.map Command.normal).map some =
      ((others.filter Command.isPrintable).map Command.normal).map some := by
    rw [List.map_map, List.map_map]
    exact hcalls
  exact (List.map_injective_iff.mpr (Option.some_injective _) hmap).symm

end Journal
end FleetControl

import FleetControl.Journal
import FleetControl.Proofs.Fleet.Continues
import FleetControl.Proofs.Json.Printing
import FleetControl.Proofs.Request.Ask

/-!
# What a journal says

A line of a journal is read by its operation and by what its body names.  A
command that has a line has a well-formed subject, and for the end of a robot or
a container this is all that it takes, so that what a journal has once named can
be named again.
-/

namespace FleetControl

/-- The key under which the body of a command of the given name tells what the
command is about. -/
def Command.subjectKey (name : Text) : String :=
  if name = text "create_robot" ∨ name = text "destroy_robot" then "robotID"
  else if name = text "add_parameter" ∨
    name = text "remove_parameter" then "name"
  else "tag"

/-- The operation and the subject that a line of a journal gives. -/
def Json.lineEntry (line : Json) : Text × Text :=
  let name := line.textAt "op"
  (name, ((line.member? "command").getD .null).textAt (Command.subjectKey name))

/-- The two groups of things that a session begins and ends by commands. -/
inductive Group where
  | robots
  | containers
deriving DecidableEq

namespace Group

/-- The operation with which the things of the group begin. -/
def creation : Group → Text
  | .robots => text "create_robot"
  | .containers => text "create_container"

/-- The operation with which the things of the group end. -/
def destruction : Group → Text
  | .robots => text "destroy_robot"
  | .containers => text "destroy_container"

/-- The journal entry with which a thing of the group begins. -/
def beginning (group : Group) (name : Text) : Text × Text :=
  (group.creation, name)

/-- The journal entry with which a thing of the group ends. -/
def ending (group : Group) (name : Text) : Text × Text :=
  (group.destruction, name)

/-- The command that ends a thing of the group. -/
def removal : Group → Text → Command
  | .robots, id => .destroyRobot id
  | .containers, tag => .destroyContainer tag

@[simp]
theorem entry_removal (group : Group) (name : Text) :
    (group.removal name).entry = group.ending name := by
  cases group with
  | robots => rfl
  | containers => rfl

theorem creation_eq_iff {group other : Group} :
    group.creation = other.creation ↔ group = other := by
  cases group <;> cases other <;> decide

theorem destruction_eq_iff {group other : Group} :
    group.destruction = other.destruction ↔ group = other := by
  cases group <;> cases other <;> decide

theorem creation_ne_destruction (group other : Group) :
    group.creation ≠ other.destruction := by
  cases group <;> cases other <;> decide

theorem beginning_eq_iff {group other : Group} {name name' : Text} :
    group.beginning name = other.beginning name' ↔
      group = other ∧ name = name' := by
  rw [beginning, beginning, Prod.mk.injEq, creation_eq_iff]

theorem ending_eq_iff {group other : Group} {name name' : Text} :
    group.ending name = other.ending name' ↔ group = other ∧ name = name' := by
  rw [ending, ending, Prod.mk.injEq, destruction_eq_iff]

theorem beginning_ne_ending (group other : Group) (name name' : Text) :
    group.beginning name ≠ other.ending name' := by
  intro heq
  exact creation_ne_destruction group other (congrArg Prod.fst heq)

/-! ## Turns -/

/-- The entries about the beginnings and ends of one thing. -/
def lines (group : Group) (name : Text) (entries : List (Text × Text)) :
    List (Text × Text) :=
  entries.filter fun entry => entry = group.beginning name ∨
    entry = group.ending name

/-- The entries that a thing comes to when it was there before or not, and is
there afterwards or not. -/
def turn (group : Group) (name : Text) (before after : Bool) :
    List (Text × Text) :=
  match before, after with
  | false, true => [group.beginning name]
  | true, false => [group.ending name]
  | _, _ => []

/-- The entries about one thing are beginnings and ends in turn, the first
one a beginning; the last one is a beginning if the thing is there, and an
end otherwise. -/
def Alternates (group : Group) (name : Text) (there : Bool)
    (entries : List (Text × Text)) : Prop :=
  ∃ n, group.lines name entries =
    (List.replicate n [group.beginning name, group.ending name]).flatten
      ++ group.turn name false there

@[simp]
theorem lines_append (group : Group) (name : Text)
    (entries more : List (Text × Text)) :
    group.lines name (entries ++ more) =
      group.lines name entries ++ group.lines name more := by
  simp [lines]

@[simp]
theorem turn_self (group : Group) (name : Text) (there : Bool) :
    group.turn name there there = [] := by
  cases there <;> rfl

theorem lines_beginning (group other : Group) (name name' : Text) :
    other.lines name' [group.beginning name] =
      if group = other ∧ name = name' then [group.beginning name] else [] := by
  simp [lines, List.filter_cons, beginning_eq_iff, beginning_ne_ending]

theorem lines_ending (group other : Group) (name name' : Text) :
    other.lines name' [group.ending name] =
      if group = other ∧ name = name' then [group.ending name] else [] := by
  simp [lines, List.filter_cons, ending_eq_iff,
    (beginning_ne_ending _ _ _ _).symm]

/-- Entries alternate on when one more turn is added to them. -/
theorem Alternates.append {group : Group} {name : Text} {before after : Bool}
    {entries more : List (Text × Text)}
    (h : group.Alternates name before entries)
    (hmore : group.lines name more = group.turn name before after) :
    group.Alternates name after (entries ++ more) := by
  obtain ⟨n, hn⟩ := h
  rw [Alternates, lines_append, hn, hmore]
  cases before with
  | false =>
    refine ⟨n, ?_⟩
    simp [turn]
  | true =>
    cases after with
    | true => exact ⟨n, by simp⟩
    | false =>
      refine ⟨n + 1, ?_⟩
      simp [turn, List.replicate_succ']

end Group

namespace Command

theorem member?_toJson (command : Command) :
    command.toJson.member? "command" = some command.body := by
  cases command <;> rfl

theorem textAt_toJson (command : Command) :
    command.toJson.textAt "op" = command.name := by
  cases command <;> rfl

/-- The body of a command holds what the command is about. -/
theorem member?_body (command : Command) :
    command.body.member? (subjectKey command.name) =
      some (.string command.subject) := by
  cases command with
  | addParameter parameter => cases parameter <;> rfl
  | _ => rfl

/-- The line of a command gives its operation and its subject. -/
theorem lineEntry_toJson (command : Command) :
    command.toJson.lineEntry = command.entry := by
  rw [Json.lineEntry, textAt_toJson, member?_toJson, Option.getD_some,
    Json.textAt, member?_body]
  rfl

theorem line?_eq_some {command : Command}
    (h : command.toJson.isPrintable = true) :
    command.line? = some command.toJson.render := by
  rw [line?, Json.print?, if_pos h]

theorem isPrintable_of_line? {command : Command}
    (h : command.line?.isSome = true) :
    command.toJson.isPrintable = true := by
  by_contra hnot
  rw [line?, Json.print?, if_neg hnot] at h
  cases h

/-- A command that has a line is about something well formed. -/
theorem isWellFormed_subject {command : Command}
    (h : command.line?.isSome = true) :
    Utf8.isWellFormed command.subject = true := by
  have hbody :=
    Json.isPrintable_of_member? (isPrintable_of_line? h) command.member?_toJson
  have hsubject := Json.isPrintable_of_member? hbody command.member?_body
  rwa [Json.isPrintable] at hsubject

theorem line?_of_body {command : Command}
    (h : command.body.isPrintable = true) :
    command.line?.isSome = true := by
  have hname : Utf8.isWellFormed command.name = true := by
    cases command <;> rfl
  have hprintable : command.toJson.isPrintable = true := by
    apply Json.isPrintable_ofEntries
    simp [hname, h]
  rw [line?_eq_some hprintable]
  rfl

/-- What is well formed can be ended. -/
theorem line?_removal (group : Group) {name : Text}
    (h : Utf8.isWellFormed name = true) :
    (group.removal name).line?.isSome = true := by
  apply line?_of_body
  cases group with
  | robots =>
    apply Json.isPrintable_ofEntries
    simp [h]
  | containers =>
    apply Json.isPrintable_ofEntries
    simp [h]

end Command

namespace Journal

/-- A journal that is given commands with lines grows by these lines, one for
each command. -/
theorem run_write (commands : List Command)
    (h : ∀ command ∈ commands, command.line?.isSome = true)
    (journal : Journal) :
    Act.run (commands.forM write) journal =
      (.ok (),
        { written := journal.written ++
            commands.flatMap fun command =>
              command.toJson.render ++ [Text.newline]
          count := journal.count + commands.length }) := by
  induction commands generalizing journal with
  | nil => simp
  | cons command rest ih =>
    have hprintable :=
      Command.isPrintable_of_line? (h command List.mem_cons_self)
    have hline := Command.line?_eq_some hprintable
    have hrest : ∀ other ∈ rest, other.line?.isSome = true := by
      intro other hother
      exact h other (List.mem_cons_of_mem _ hother)
    have hcons : (command :: rest).forM write =
        (do write command; rest.forM write) := rfl
    rw [hcons, Act.run_bind]
    simp only [write, hline, Act.run_modify, ih hrest]
    simp only [List.flatMap_cons, List.append_assoc, List.length_cons,
      Prod.mk.injEq, true_and, Journal.mk.injEq]
    omega

/-- The delegates of a session that a single journal runs: what each can do and
what it objects to. -/
def nature (c : ControlId) :
    Option (List Capability × (Nat → Command → Option Fault)) :=
  if c = 0 then some (Control.journal.capabilities, Control.journal.objection)
  else none

end Journal

namespace Fleet

/-- A journal accepts what has a line. -/
theorem line?_of_accepts {f : Fleet} (hnature : f.nature = Journal.nature)
    {c : ControlId} {command : Command} (h : f.Accepts c command) :
    c = 0 ∧ command.line?.isSome = true := by
  obtain ⟨capabilities, objection, n, hget, hobjection⟩ := h
  rw [hnature, Journal.nature] at hget
  split at hget
  · next hc =>
    cases hget
    refine ⟨hc, ?_⟩
    by_contra hnot
    simp [Control.journal, hnot] at hobjection
  · cases hget

/-- A journal objects to what has no line, and to nothing else. -/
theorem objection?_journal {f : Fleet} {c : ControlId}
    (hjournal : f.nature c =
      some (Control.journal.capabilities, Control.journal.objection))
    (command : Command) :
    f.objection? c command = if command.line?.isSome then none
      else some .json :=
  objection?_eq hjournal command

theorem objection?_of_line? {f : Fleet} (hnature : f.nature = Journal.nature)
    {command : Command}
    (h : command.line?.isSome = true) : f.objection? 0 command = none := by
  have hjournal :
      f.nature 0 = some
        (Control.journal.capabilities, Control.journal.objection) := by
    rw [hnature]
    rfl
  rw [objection?_journal hjournal, if_pos h]

end Fleet
end FleetControl

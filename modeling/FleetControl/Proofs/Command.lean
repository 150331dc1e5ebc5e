import FleetControl.Proofs.Journal
import FleetControl.Proofs.Json.RoundTrip

/-!
# Commands are read back from their lines

A line of a journal holds the name of a command and its body, and
`Command.ofJson?` finds the command again: the name tells which one it is, for a
parameter the `type` of the body tells its kind, and each argument stands under
a key of its own.  Only values may come back as others than they were, as
`Json.normal` has them.
-/

namespace FleetControl

namespace Parameter

/-- The parameter with its values as they are read back. -/
def normal : Parameter → Parameter
  | .value name values code => .value name values.normal code
  | .array name values code => .array name values.normal code
  | .file name content => .file name content

/-- The parameter that an object gives, by its `type`. -/
def ofJson? (body : Json) : Option Parameter :=
  let kind := body.textAt "type"
  let values := (body.member? "values").getD .null
  if kind = text "ParameterCommand" then
    some (.value (body.textAt "name") values (body.textAt "typeCode"))
  else if kind = text "ArrayCommand" then
    some (.array (body.textAt "name") values (body.textAt "typeCode"))
  else if kind = text "FileCommand" then
    some (.file (body.textAt "name") (body.textAt "content"))
  else none

/-- All strings that the parameter is made of are well formed. -/
def isPrintable : Parameter → Bool
  | .value name values code =>
    Utf8.isWellFormed name && values.isPrintable && Utf8.isWellFormed code
  | .array name values code =>
    Utf8.isWellFormed name && values.isPrintable && Utf8.isWellFormed code
  | .file name content => Utf8.isWellFormed name && Utf8.isWellFormed content

end Parameter

namespace Command

/-- The command with its values as they are read back. -/
def normal : Command → Command
  | .addParameter parameter => .addParameter parameter.normal
  | command => command

/-- The node that an object gives. -/
def nodeOf (body : Json) : Node where
  tag := body.textAt "tag"
  package := body.textAt "pkg"
  executable := body.textAt "exe"
  args := body.textAt "args"
  name := body.textAt "name"
  namespaceName := body.textAt "namespace"

/-- The command that a line gives, by its `op`. -/
def ofJson? (line : Json) : Option Command :=
  let name := line.textAt "op"
  let body := (line.member? "command").getD .null
  if name = text "create_robot" then
    some (.createRobot (body.textAt "robotID") (body.textAt "key"))
  else if name = text "destroy_robot" then
    some (.destroyRobot (body.textAt "robotID"))
  else if name = text "create_container" then
    some (.createContainer (body.textAt "tag") (body.textAt "commID"))
  else if name = text "destroy_container" then
    some (.destroyContainer (body.textAt "tag"))
  else if name = text "add_node" then some (.addNode (nodeOf body))
  else if name = text "remove_node" then some (.removeNode (body.textAt "tag"))
  else if name = text "add_parameter" then
    (Parameter.ofJson? body).map .addParameter
  else if name = text "remove_parameter" then
    some (.removeParameter (body.textAt "name"))
  else none

/-- All strings that the command is made of are well formed. -/
def isPrintable : Command → Bool
  | .createRobot id key => Utf8.isWellFormed id && Utf8.isWellFormed key
  | .destroyRobot id => Utf8.isWellFormed id
  | .createContainer tag commId =>
    Utf8.isWellFormed tag && Utf8.isWellFormed commId
  | .destroyContainer tag => Utf8.isWellFormed tag
  | .addNode node =>
    [node.tag, node.package, node.executable, node.args, node.name,
      node.namespaceName].all Utf8.isWellFormed
  | .removeNode tag => Utf8.isWellFormed tag
  | .addParameter parameter => parameter.isPrintable
  | .removeParameter name => Utf8.isWellFormed name

end Command

theorem Parameter.isPrintable_toJson (parameter : Parameter) :
    parameter.toJson.isPrintable = parameter.isPrintable := by
  rw [Bool.eq_iff_iff]
  cases parameter with
  | value name values code =>
    rw [toJson, Json.isPrintable_ofEntries_iff
      (by simp only [List.map]; decide)]
    simp [isPrintable, and_assoc]
  | array name values code =>
    rw [toJson, Json.isPrintable_ofEntries_iff
      (by simp only [List.map]; decide)]
    simp [isPrintable, and_assoc]
  | file name content =>
    rw [toJson, Json.isPrintable_ofEntries_iff
      (by simp only [List.map]; decide)]
    simp [isPrintable]

theorem Command.isPrintable_body (command : Command) :
    command.body.isPrintable = command.isPrintable := by
  rw [Bool.eq_iff_iff]
  cases command with
  | addParameter parameter =>
    rw [body, Parameter.isPrintable_toJson, isPrintable]
  | createRobot id key =>
    rw [body, Json.isPrintable_ofEntries_iff (by simp only [List.map]; decide)]
    simp [isPrintable]
  | createContainer tag commId =>
    rw [body, Json.isPrintable_ofEntries_iff (by simp only [List.map]; decide)]
    simp [isPrintable]
  | addNode node =>
    rw [body, Json.isPrintable_ofEntries_iff (by simp only [List.map]; decide)]
    simp [isPrintable]
  | _ =>
    rw [body, Json.isPrintable_ofEntries_iff (by simp)]
    simp [isPrintable]

theorem Command.isPrintable_toJson (command : Command) :
    command.toJson.isPrintable = command.isPrintable := by
  have hname : Utf8.isWellFormed command.name = true := by
    cases command <;> rfl
  rw [Bool.eq_iff_iff, toJson,
    Json.isPrintable_ofEntries_iff (by simp only [List.map]; decide),
    ← isPrintable_body]
  simp [hname]

theorem Command.toJson_normal (command : Command) :
    command.toJson.normal =
      .ofEntries [(text "op", .string command.name),
        (text "command", command.body.normal)] := by
  rfl

/-- A command is found again in what its line is read back as. -/
theorem Command.ofJson?_normal (command : Command) :
    Command.ofJson? command.toJson.normal = some command.normal := by
  cases command with
  | addParameter parameter => cases parameter <;> rfl
  | _ => rfl

end FleetControl

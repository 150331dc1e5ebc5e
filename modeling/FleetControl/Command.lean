import FleetControl.Json

/-!
# Commands

What a session asks of the machines that run its robots and containers.  A
command is plain data; `Command.name` and `Command.body` are its two parts
in a journal.
-/

namespace FleetControl

/-- A program to start in a container's graph. -/
structure Node where
  tag : Text
  package : Text
  executable : Text
  args : Text
  name : Text
  namespaceName : Text

/-- A parameter for a container's graph: one value, a list of values, or the
content of a file.  Values come with the code of their types. -/
inductive Parameter where
  | value (name : Text) (values : Json) (code : Text)
  | array (name : Text) (values : Json) (code : Text)
  | file (name : Text) (content : Text)

namespace Parameter

/-- The name under which the parameter is set. -/
def name : Parameter → Text
  | .value name _ _ => name
  | .array name _ _ => name
  | .file name _ => name

/-- The parameter as an object. -/
def toJson : Parameter → Json
  | .value name values code => .ofEntries
      [(text "type", .str "ParameterCommand"), (text "name", .string name),
        (text "values", values), (text "typeCode", .string code)]
  | .array name values code => .ofEntries
      [(text "type", .str "ArrayCommand"), (text "name", .string name),
        (text "values", values), (text "typeCode", .string code)]
  | .file name content => .ofEntries
      [(text "type", .str "FileCommand"), (text "name", .string name),
        (text "content", .string content)]

end Parameter

/-- A command to the machines of a session. -/
inductive Command where
  | createRobot (id key : Text)
  | destroyRobot (id : Text)
  | createContainer (tag commId : Text)
  | destroyContainer (tag : Text)
  | addNode (node : Node)
  | removeNode (tag : Text)
  | addParameter (parameter : Parameter)
  | removeParameter (name : Text)

namespace Command

/-- The name of the operation. -/
def name : Command → Text
  | .createRobot _ _ => text "create_robot"
  | .destroyRobot _ => text "destroy_robot"
  | .createContainer _ _ => text "create_container"
  | .destroyContainer _ => text "destroy_container"
  | .addNode _ => text "add_node"
  | .removeNode _ => text "remove_node"
  | .addParameter _ => text "add_parameter"
  | .removeParameter _ => text "remove_parameter"

/-- The robot, container, node or parameter that the command is about. -/
def subject : Command → Text
  | .createRobot id _ => id
  | .destroyRobot id => id
  | .createContainer tag _ => tag
  | .destroyContainer tag => tag
  | .addNode node => node.tag
  | .removeNode tag => tag
  | .addParameter parameter => parameter.name
  | .removeParameter name => name

/-- What the operation is given, as an object. -/
def body : Command → Json
  | .createRobot id key => .ofEntries
      [(text "type", .str "RobotCommand"), (text "robotID", .string id),
        (text "key", .string key)]
  | .destroyRobot id => .ofEntries [(text "robotID", .string id)]
  | .createContainer tag commId => .ofEntries
      [(text "type", .str "ContainerCommand"), (text "tag", .string tag),
        (text "commID", .string commId)]
  | .destroyContainer tag => .ofEntries [(text "tag", .string tag)]
  | .addNode node => .ofEntries
      [(text "type", .str "NodeCommand"), (text "tag", .string node.tag),
        (text "pkg", .string node.package),
        (text "exe", .string node.executable),
        (text "args", .string node.args), (text "name", .string node.name),
        (text "namespace", .string node.namespaceName)]
  | .removeNode tag => .ofEntries [(text "tag", .string tag)]
  | .addParameter parameter => parameter.toJson
  | .removeParameter name => .ofEntries [(text "name", .string name)]

end Command
end FleetControl

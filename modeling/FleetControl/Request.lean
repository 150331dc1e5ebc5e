import FleetControl.Session.Teardown

/-!
# Requests

A request is a JSON object that names an operation and what the operation is
given.  It is answered by an object in every case: `Session.handle` turns each
fault into an answer that names its class and its wording, and logs it.

The fields of a request are read as they are needed.  Where a request concerns a
container, the container is looked up before the remaining fields are read.
-/

namespace FleetControl

/-- What a request may ask for. -/
inductive Operation where
  | addRobot
  | removeRobot
  | addContainer
  | removeContainer
  | setContainerConnected
  | addNode
  | removeNode
  | addParameter
  | removeParameter
  | addInterface
  | removeInterface
deriving DecidableEq

namespace Operation

/-- The name of an operation in requests and answers. -/
def name : Operation → Text
  | addRobot => text "add_robot"
  | removeRobot => text "remove_robot"
  | addContainer => text "add_container"
  | removeContainer => text "remove_container"
  | setContainerConnected => text "set_container_connected"
  | addNode => text "add_node"
  | removeNode => text "remove_node"
  | addParameter => text "add_parameter"
  | removeParameter => text "remove_parameter"
  | addInterface => text "add_interface"
  | removeInterface => text "remove_interface"

/-- All operations. -/
def all : List Operation :=
  [addRobot, removeRobot, addContainer, removeContainer, setContainerConnected,
    addNode, removeNode, addParameter, removeParameter, addInterface,
    removeInterface]

/-- The operation of a name. -/
def ofName? (name : Text) : Option Operation :=
  all.find? fun operation => operation.name = name

end Operation

namespace Request

/-! ## Fields -/

/-- The text in a field. -/
def field (request : Dict Json) (key : String) : Except Fault Text :=
  match (request.get? (text key)).bind Json.text? with
  | some t => .ok t
  | none => .error (.fieldNoText (text key))

/-- The text in a field that may be missing or null, which counts as empty. -/
def optionalField (request : Dict Json) (key : String) : Except Fault Text :=
  match request.get? (text key) with
  | none | some .null => .ok []
  | some (.string t) => .ok t
  | some _ => .error (.optionalFieldNoText (text key))

/-- The truth value in a field. -/
def flag (request : Dict Json) (key : String) : Except Fault Bool :=
  match request.get? (text key) with
  | some (.bool b) => .ok b
  | _ => .error (.fieldNoBool (text key))

/-- The value in a field. -/
def value (request : Dict Json) (key : String) : Except Fault Json :=
  match request.get? (text key) with
  | some v => .ok v
  | none => .error (.fieldMissing (text key))

/-! ## Answers -/

/-- The answer to a request that cannot be carried out. -/
def refusal (error : String) (message : Text) : Json :=
  .ofEntries
    [(text "status", .str "error"), (text "error", .str error),
      (text "message", .string message)]

/-- The answer to a request that has been carried out. -/
def success (operation : Operation) (results : List (Text × Json)) : Json :=
  .ofEntries (results
    ++ [(text "status", .str "ok"), (text "op", .string operation.name)])

/-- The class that an answer names, and whether it is one that
callers know of. -/
def answerClass (kind : Fault.Kind) : String × Bool :=
  match kind with
  | .contract => ("ContractViolation", true)
  | .invalid => ("InvalidRequest", true)
  | .addressInUse => ("AddressInUse", true)
  | .duplicate | .unregistered | .deleted | .structural =>
    ("StructuralError", true)
  | .endpoint | .json | .runtime => ("InternalError", false)

end Request

namespace Session

open Request

/-- Carries out an operation with the fields of its request, and gives what its
answer holds beyond its status. -/
def perform (operation : Operation) (request : Dict Json) :
    Act Session (List (Text × Json)) :=
  match operation with
  | .addRobot => do
    let id ← field request "robot_id"
    let commId ← field request "comm_id"
    let key ← addRobot id commId
    return [(text "key", .string key)]
  | .removeRobot => do
    removeRobot (← field request "robot_id")
    return []
  | .addContainer => do
    let tag ← field request "tag"
    let commId ← field request "comm_id"
    addContainer tag commId
    return []
  | .removeContainer => do
    removeContainer (← field request "tag")
    return []
  | .setContainerConnected => do
    let connected ← flag request "connected"
    let e ← container (← field request "tag")
    onFleet (Fleet.setConnected e connected)
    return []
  | .addNode => do
    let e ← container (← field request "container")
    let tag ← field request "tag"
    let package ← field request "pkg"
    let executable ← field request "exe"
    let args ← optionalField request "args"
    let name ← optionalField request "name"
    let namespaceName ← optionalField request "namespace"
    onFleet (Fleet.addNode e
      ⟨tag, package, executable, args, name, namespaceName⟩)
    return []
  | .removeNode => do
    let e ← container (← field request "container")
    onFleet (Fleet.removeNode e (← field request "tag"))
    return []
  | .addParameter => do
    let given ← value request "value"
    let e ← container (← field request "container")
    let name ← field request "name"
    let type ← field request "param_type"
    onFleet (Fleet.addParameter e name given type)
    return []
  | .removeParameter => do
    let e ← container (← field request "container")
    onFleet (Fleet.removeParameter e (← field request "name"))
    return []
  | .addInterface => do
    let containerTag ← field request "container"
    let tag ← field request "tag"
    let address ← field request "addr"
    addInterface containerTag tag address
    return []
  | .removeInterface => do
    removeInterface (← field request "tag")
    return []

/-- The answer to a fault, and the session after it has been logged. -/
def refuse (operation : Operation) (fault : Fault) (session : Session) :
    Json × Session :=
  let (error, known) := answerClass fault.kind
  let message := text "[RequestHandler] " ++ operation.name
    ++ (if known then text ": " else text " failed: ") ++ fault.message
  (refusal error fault.message,
    { session with fleet := session.fleet.log .error message })

/-- The name of the operation that a request asks for; a name that is no text
counts as empty. -/
def requestedName (request : Dict Json) : Text :=
  ((request.get? (text "op")).bind Json.text?).getD []

/-- The answer to a request, and the session after it. -/
def handle (request : Json) (session : Session) : Json × Session :=
  match request with
  | .object entries =>
    match Operation.ofName? (requestedName entries) with
    | none =>
      (refusal "InvalidRequest"
        (text "Unknown operation " ++ (requestedName entries).quoted
          ++ text "."), session)
    | some operation =>
      match Act.run (perform operation entries) session with
      | (.ok results, session) => (success operation results, session)
      | (.error fault, session) => refuse operation fault session
  | _ =>
    (refusal "InvalidRequest" (text "Request has to be an object."), session)

/-- The answers to requests in their order, and the session after them. -/
def handleEach : List Json → Session → List Json × Session
  | [], session => ([], session)
  | request :: rest, session =>
    let (answer, session) := handle request session
    let (answers, session) := handleEach rest session
    (answer :: answers, session)

/-- The answers to a list of requests; what is no list gets one answer. -/
def handleAll (requests : Json) (session : Session) : List Json × Session :=
  match requests with
  | .array items => handleEach items session
  | _ =>
    ([refusal "InvalidRequest" (text "Requests have to be a list.")], session)

end Session
end FleetControl

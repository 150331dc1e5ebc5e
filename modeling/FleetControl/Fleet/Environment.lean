import FleetControl.Fleet.Endpoint
import FleetControl.GraphName
import FleetControl.Parameter.Typed

/-!
# Computation graphs and containers

The nodes and parameters of a live environment, and the connected flag of a
container.  What a caller gives is checked before anything is logged or issued.
-/

namespace FleetControl
namespace Fleet

/-- The end of a log message that names an environment. -/
def inEnvironment (before : Text) (endpoint : Endpoint) : Text :=
  before ++ text " environment " ++ endpoint.commId.quoted ++ text "."

/-- Starts a node. -/
def addNode (e : EndpointId) (node : Node) : Act Fleet Unit := do
  let (endpoint, c) ← active e
  if !GraphName.isLegal node.namespaceName then
    throw (.illegalNamespace node.namespaceName)
  note .info (inEnvironment (text "[EnvironmentProxy] Start node "
    ++ (node.package ++ text "/" ++ node.executable).quoted
    ++ text " (tag: " ++ node.tag.quoted ++ text ") in") endpoint)
  issue c (.addNode node)

/-- Stops a node. -/
def removeNode (e : EndpointId) (tag : Text) : Act Fleet Unit := do
  let (endpoint, c) ← active e
  note .info
    (inEnvironment (text "[EnvironmentProxy] Remove node (tag: " ++ tag.quoted
      ++ text ") from") endpoint)
  issue c (.removeNode tag)

/-- Sets a parameter to a value of a declared type. -/
def addParameter (e : EndpointId) (name : Text) (value : Json) (type : Text) :
    Act Fleet Unit := do
  let (endpoint, c) ← active e
  if !GraphName.isLegal name then throw (.illegalName name)
  match Parameter.typed name value type with
  | .error misfit => throw (.badParameter name misfit)
  | .ok parameter =>
    note .info
      (inEnvironment (text "[EnvironmentProxy] Add parameter " ++ name.quoted
        ++ text " to") endpoint)
    issue c (.addParameter parameter)

/-- Removes a parameter. -/
def removeParameter (e : EndpointId) (name : Text) : Act Fleet Unit := do
  let (endpoint, c) ← active e
  note .info
    (inEnvironment (text "[EnvironmentProxy] Remove parameter " ++ name.quoted
      ++ text " from") endpoint)
  issue c (.removeParameter name)

/-- Sets the connected flag of a container and tells its owner.  A
container that is connected cannot be connected once more; it can be
disconnected at any time. -/
def setConnected (e : EndpointId) (connected : Bool) : Act Fleet Unit := do
  let (endpoint, _) ← active e
  if connected && endpoint.connected? = some true then
    throw (.alreadyConnected endpoint.uid)
  modify (·.modifyEndpoint e fun endpoint =>
    { endpoint with role := .container connected })
  if endpoint.owned then notify endpoint.uid connected

end Fleet
end FleetControl

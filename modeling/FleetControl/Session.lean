import FleetControl.Fleet.Environment
import FleetControl.Session.Key

/-!
# Sessions

A session is what one user has been provided with: robots and containers under
their names, and the interfaces between the user's channels and the containers.
It keeps to the user's limits, makes the keys of the robots, and hears of the
connections of its containers.

Names are checked before anything is asked of a delegate.  A robot or container
whose end is refused by the delegate is forgotten all the same, together with
the interfaces on it.
-/

namespace FleetControl

/-- How much a user may have, and how long the keys of the robots are. -/
structure Limits where
  robots : Nat
  containers : Nat
  keyBytes : Nat

/-- The limits of a user for whom nothing else is set. -/
def Limits.default : Limits :=
  ⟨10, 10, 16⟩

/-- The session of one user. -/
structure Session where
  userId : Text
  robotControl : Option ControlId
  containerControl : Option ControlId
  limits : Limits
  destroyed : Bool
  robots : Dict EndpointId
  containers : Dict EndpointId
  interfaces : Dict InterfaceId
  entropy : Entropy
  fleet : Fleet

namespace Session

/-- A session without robots and containers.  The fleet's listener logs updates
in the user's name. -/
def new
    (userId : Text) (robotControl containerControl : Option ControlId)
    (limits : Limits) (entropy : Entropy) (fleet : Fleet) : Session where
  userId := userId
  robotControl := robotControl
  containerControl := containerControl
  limits := limits
  destroyed := false
  robots := []
  containers := []
  interfaces := []
  entropy := entropy
  fleet :=
    { fleet with listener := { fleet.listener with logsFor := some userId } }

/-- An operation on the session's fleet. -/
def onFleet {α : Type} (act : Act Fleet α) : Act Session α :=
  Act.zoom Session.fleet
    (fun fleet session => { session with fleet := fleet }) act

/-- An operation on the session's source of random bytes. -/
def onEntropy {α : Type} (act : Act Entropy α) : Act Session α :=
  Act.zoom Session.entropy
    (fun entropy session => { session with entropy := entropy }) act

/-- Writes a log entry. -/
def note (level : Log.Level) (message : Text) : Act Session Unit :=
  onFleet (Fleet.note level message)

/-- A message about what happened in the session. -/
def remark (session : Session) (what : Text) : Text :=
  text "[User] " ++ session.userId ++ text ": " ++ what

/-- Fails once the session has been destroyed. -/
def ensureActive : Act Session Unit := do
  let session ← get
  if session.destroyed then throw (.sessionDestroyed session.userId)

/-- The robot of a name. -/
def robot (id : Text) : Act Session EndpointId := do
  match (← get).robots.get? id with
  | some e => return e
  | none => throw (.noRobot id)

/-- The container of a tag. -/
def container (tag : Text) : Act Session EndpointId := do
  match (← get).containers.get? tag with
  | some e => return e
  | none => throw (.noContainer tag)

/-- The interface of a tag. -/
def interface (tag : Text) : Act Session InterfaceId := do
  match (← get).interfaces.get? tag with
  | some i => return i
  | none => throw (.noInterface tag)

/-- The session without the interfaces on an endpoint, none of which is torn
down first. -/
def dropInterfacesOf (session : Session) (e : EndpointId) : Session :=
  let isOn (entry : Text × InterfaceId) : Bool :=
    (session.fleet.interface entry.2).endpoint = e
  { session with
    interfaces := session.interfaces.filter fun entry => !isOn entry
    fleet := (session.interfaces.filter isOn).foldl
      (fun fleet entry => fleet.dropInterface entry.2) session.fleet }

/-- The session without an endpoint and the interfaces on it. -/
def forget (session : Session) (e : EndpointId) : Session :=
  let session := session.dropInterfacesOf e
  { session with fleet := session.fleet.dropEndpoint e }

/-- Tears an endpoint down and forgets it, whether or not its end is refused. -/
def retire (e : EndpointId) : Act Session Unit := do
  try
    onFleet (Fleet.destroyEndpoint e)
  catch fault =>
    modify (·.forget e)
    throw fault
  modify (·.forget e)

/-! ## Robots -/

/-- Provides a robot and gives the key that it has to present. -/
def addRobot (id commId : Text) : Act Session Text := do
  ensureActive
  let session ← get
  if session.robots.contains id then throw (.robotExists id)
  if session.limits.robots ≤ session.robots.length then
    throw (.robotLimit session.limits.robots)
  let key ← onEntropy (Entropy.newKey session.limits.keyBytes)
  let e ← onFleet (Fleet.newRobot true id commId key session.robotControl)
  modify fun session => { session with robots := session.robots.insert id e }
  note .info (session.remark (text "added robot " ++ id.quoted))
  return key

/-- Takes a robot back. -/
def removeRobot (id : Text) : Act Session Unit := do
  ensureActive
  let e ← robot id
  modify fun session => { session with robots := session.robots.erase id }
  retire e
  note .info ((← get).remark (text "removed robot " ++ id.quoted))

/-! ## Containers -/

/-- Provides a container. -/
def addContainer (tag commId : Text) : Act Session Unit := do
  ensureActive
  let session ← get
  if session.containers.contains tag then throw (.containerExists tag)
  if session.limits.containers ≤ session.containers.length then
    throw (.containerLimit session.limits.containers)
  let e ← onFleet (Fleet.newContainer true tag commId session.containerControl)
  modify fun session =>
    { session with containers := session.containers.insert tag e }
  note .info (session.remark (text "added container " ++ tag.quoted))

/-- Takes a container back, with the interfaces on it. -/
def removeContainer (tag : Text) : Act Session Unit := do
  ensureActive
  let e ← container tag
  modify fun session =>
    { session with containers := session.containers.erase tag }
  retire e
  note .info ((← get).remark (text "removed container " ++ tag.quoted))

/-! ## Interfaces -/

/-- Registers a new interface with its endpoint.  One that cannot be registered
gives its address back and is dropped. -/
def registerOrDrop (e : EndpointId) (i : InterfaceId) (address : Text) :
    Act Session Unit := do
  try
    onFleet (Fleet.register e i)
  catch fault =>
    let another ← Act.attempt (onFleet (Fleet.free e address)) fun _ => return
    modify fun session =>
      { session with fleet := session.fleet.dropInterface i }
    throw (another.getD fault)

/-- Provides an interface that owns an address in a container's graph. -/
def addInterface (containerTag tag address : Text) : Act Session Unit := do
  ensureActive
  if (← get).interfaces.contains tag then throw (.interfaceExists tag)
  let e ← container containerTag
  let i ← onFleet (Fleet.newInterface e tag (.address address))
  registerOrDrop e i address
  modify fun session =>
    { session with interfaces := session.interfaces.insert tag i }
  note .info
    ((← get).remark (text "added interface " ++ tag.quoted ++ text " on "
      ++ address.quoted ++ text " to container " ++ containerTag.quoted))

/-- Takes an interface back.  One that has gone down with its endpoint is
only forgotten. -/
def removeInterface (tag : Text) : Act Session Unit := do
  ensureActive
  let i ← interface tag
  if !((← get).fleet.interface i).deleted then
    onFleet (Fleet.destroyInterface i)
  modify fun session =>
    { session with
      interfaces := session.interfaces.erase tag
      fleet := session.fleet.dropInterface i }
  note .info ((← get).remark (text "removed interface " ++ tag.quoted))

end Session
end FleetControl

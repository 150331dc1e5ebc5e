import FleetControl.Fleet.Interface

/-!
# Endpoints

An endpoint is made with the delegate that it needs and is torn down at most
once.  Robots and containers announce their beginning and their end to the
delegate, and an end that the delegate refuses leaves the endpoint as it was, so
that it can be tried again.

Once the end is accepted, `Fleet.dismantle` tears down every interface that was
registered when it began, in the order in which the interfaces were made.  It
always comes to its end; every fault on the way is logged, and the first one
that shows a mismatch of registrations is raised afterwards.
-/

namespace FleetControl
namespace Fleet

/-! ## The beginning of an endpoint -/

/-- Puts a live endpoint into the fleet. -/
def addEndpoint (role : Role) (owned : Bool) (uid commId : Text)
    (c : ControlId) :
    Act Fleet EndpointId := do
  let fleet ← get
  set { fleet with
    endpoints :=
      fleet.endpoints.insert ⟨role, uid, commId, some c, owned, [], []⟩ }
  return fleet.endpoints.next

/-- A new endpoint without commands of its own. -/
def newBare (owned : Bool) (uid commId : Text) (control : Option ControlId) :
    Act Fleet EndpointId := do
  let c ← requireControl [] control
  addEndpoint .bare owned uid commId c

/-- A new robot, which has to present the key when it connects. -/
def newRobot (owned : Bool) (uid commId key : Text)
    (control : Option ControlId) :
    Act Fleet EndpointId := do
  let c ← requireControl [.robot] control
  note .info
    (text "[RobotProxy] Create robot " ++ uid.quoted ++ text " (commID: "
      ++ commId.quoted ++ text ")")
  issue c (.createRobot uid key)
  addEndpoint .robot owned uid commId c

/-- A new computation graph. -/
def newEnvironment (owned : Bool) (uid commId : Text)
    (control : Option ControlId) :
    Act Fleet EndpointId := do
  let c ← requireControl [.node, .parameter] control
  addEndpoint .environment owned uid commId c

/-- A new container, which is not connected yet. -/
def newContainer (owned : Bool) (uid commId : Text)
    (control : Option ControlId) :
    Act Fleet EndpointId := do
  let c ← requireControl [.node, .parameter, .container] control
  note .info
    (text "[ContainerProxy] Start container " ++ commId.quoted ++ text ".")
  issue c (.createContainer uid commId)
  addEndpoint (.container false) owned uid commId c

/-! ## Registration of interfaces -/

/-- The numbers with one more among them, in increasing order. -/
def insertInOrder (i : InterfaceId) : List InterfaceId → List InterfaceId
  | [] => [i]
  | j :: rest => if i < j then i :: j :: rest else j :: insertInOrder i rest

/-- The interface is registered with the endpoint. -/
def hasInterface (fleet : Fleet) (e : EndpointId) (i : InterfaceId) : Bool :=
  (fleet.endpoint e).registered.contains i

/-- Registers a live interface with a live endpoint, which hands it
its delegate. -/
def register (e : EndpointId) (i : InterfaceId) : Act Fleet Unit := do
  let (_, c) ← active e
  if (← get).hasInterface e i then throw .alreadyRegistered
  registerControl i (some c)
  modify (·.modifyEndpoint e fun endpoint =>
    { endpoint with registered := insertInOrder i endpoint.registered })

/-- Ends the registration of an interface with a live endpoint. -/
def unregister (e : EndpointId) (i : InterfaceId) : Act Fleet Unit := do
  let _ ← active e
  if !(← get).hasInterface e i then throw .notRegistered
  modify (·.modifyEndpoint e fun endpoint =>
    { endpoint with registered := endpoint.registered.erase i })

/-! ## The end of an endpoint -/

/-- Logs that an interface of an endpoint could not be torn down. -/
def reportInterface (uid : Text) (i : InterfaceId) (fault : Fault) :
    Act Fleet Unit := do
  let tag := ((← get).interface i).tag
  note .error (text "[EndpointProxy] Error destroying interface " ++ tag.quoted
    ++ text " of endpoint " ++ uid.quoted ++ text ": " ++ fault.message)

/-- The fleet with an endpoint marked as deleted. -/
def retireEndpoint (fleet : Fleet) (e : EndpointId) : Fleet :=
  fleet.modifyEndpoint e fun endpoint =>
    { endpoint with registered := [], owned := false, control := none }

/-- Tears down the interfaces of an endpoint and marks it as deleted. -/
def dismantle (e : EndpointId) : Act Fleet Unit := do
  let endpoint := (← get).endpoint e
  let faults ← Act.sweep destroyInterface (reportInterface endpoint.uid)
    endpoint.registered
  modify (·.retireEndpoint e)
  Act.raiseStructural faults

/-- Tears an endpoint down. -/
def destroyEndpoint (e : EndpointId) : Act Fleet Unit := do
  let (endpoint, c) ← active e
  match endpoint.role with
  | .bare | .environment => pure ()
  | .robot =>
    note .info (text "[RobotProxy] Destroy robot " ++ endpoint.uid.quoted)
    issue c (.destroyRobot endpoint.uid)
  | .container _ =>
    note .info
      (text "[ContainerProxy] Stop container "
        ++ endpoint.commId.quoted ++ text ".")
    issue c (.destroyContainer endpoint.uid)
  dismantle e

/-- The fleet without an endpoint. -/
def dropEndpoint (fleet : Fleet) (e : EndpointId) : Fleet :=
  { fleet with endpoints := fleet.endpoints.erase e }

end Fleet
end FleetControl

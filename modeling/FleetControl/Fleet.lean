import FleetControl.Act
import FleetControl.Store
import FleetControl.Command
import FleetControl.Log

/-!
# Fleets

A fleet is the state behind sessions: the delegates that carry out commands, the
endpoints that issue them (robots, computation graphs, containers), the
interfaces between endpoints, and the listener that hears when a container's
connection changes.

Endpoints and interfaces are known by the numbers of their stores.  Everything
that the fleet lets the outside see is an event of its history: log entries,
commands that a delegate has accepted, and updates that the listener has heard.

Delegates and listeners are free to object to any call, by its place in the
order of calls as well as by its content; an objection is the fault that
the call raises.
-/

namespace FleetControl

/-- The number of a delegate. -/
abbrev ControlId := Nat

/-- The number of an endpoint. -/
abbrev EndpointId := Nat

/-- The number of an interface. -/
abbrev InterfaceId := Nat

/-- A delegate: what it can do, what it objects to, and how often it has
been called. -/
structure Control where
  capabilities : List Capability
  objection : Nat → Command → Option Fault
  calls : Nat

/-- The listener to container updates: the user in whose name each update is
logged, whether anyone hears it, and the objections of those who do. -/
structure Listener where
  logsFor : Option Text
  hears : Bool
  objection : Nat → Text → Bool → Option Fault
  calls : Nat

/-- What an endpoint is. -/
inductive Role where
  /-- An endpoint without commands of its own. -/
  | bare
  /-- A robot's connection. -/
  | robot
  /-- A computation graph. -/
  | environment
  /-- A computation graph within a container of its own. -/
  | container (connected : Bool)
deriving DecidableEq

/-- An endpoint.  One that has been torn down has no delegate, no owner and
no interface. -/
structure Endpoint where
  role : Role
  uid : Text
  commId : Text
  control : Option ControlId
  owned : Bool
  registered : List InterfaceId
  addresses : List Text

namespace Endpoint

/-- What an unknown number stands for: an endpoint torn down long ago. -/
def gone : Endpoint :=
  ⟨.bare, [], [], none, false, [], []⟩

/-- The endpoint has been torn down. -/
def isDeleted (e : Endpoint) : Bool :=
  e.control.isNone

/-- Nodes, parameters and addresses belong to the endpoint. -/
def isEnvironment (e : Endpoint) : Bool :=
  match e.role with
  | .environment | .container _ => true
  | _ => false

/-- The connected flag of a container. -/
def connected? (e : Endpoint) : Option Bool :=
  match e.role with
  | .container connected => some connected
  | _ => none

end Endpoint

/-- What tearing an interface down does beyond letting go of its
registration. -/
inductive Behaviour where
  /-- Nothing. -/
  | plain
  /-- It frees the address that the interface owns in its environment. -/
  | address (address : Text)
  /-- It always fails, and changes nothing. -/
  | stuck (fault : Fault)
  /-- It tears another interface down afterwards. -/
  | chain (next : InterfaceId)

/-- The address that the interface owns. -/
def Behaviour.address? : Behaviour → Option Text
  | .address a => some a
  | _ => none

/-- An interface of an endpoint. -/
structure Interface where
  tag : Text
  endpoint : EndpointId
  control : Option ControlId
  deleted : Bool
  behaviour : Behaviour

/-- What an unknown number stands for: an interface torn down long ago. -/
def Interface.gone : Interface :=
  ⟨[], 0, none, true, .plain⟩

/-- What the outside sees of a fleet. -/
inductive Event where
  | logged (entry : Log.Entry)
  | commanded (control : ControlId) (command : Command)
  | notified (tag : Text) (connected : Bool)

/-- Delegates, endpoints, interfaces and what has happened, newest
event first. -/
structure Fleet where
  controls : Store Control
  endpoints : Store Endpoint
  interfaces : Store Interface
  listener : Listener
  history : List Event

namespace Fleet

/-- The fleet without a delegate or an endpoint. -/
def empty (listener : Listener) : Fleet :=
  ⟨.empty, .empty, .empty, listener, []⟩

/-- The endpoint of a number. -/
def endpoint (fleet : Fleet) (e : EndpointId) : Endpoint :=
  (fleet.endpoints.get? e).getD .gone

/-- The interface of a number. -/
def interface (fleet : Fleet) (i : InterfaceId) : Interface :=
  (fleet.interfaces.get? i).getD .gone

/-- The fleet with an endpoint changed. -/
def modifyEndpoint (fleet : Fleet) (e : EndpointId) (f : Endpoint → Endpoint) :
    Fleet :=
  { fleet with endpoints := fleet.endpoints.modify e f }

/-- The fleet with an interface changed. -/
def modifyInterface (fleet : Fleet) (i : InterfaceId)
    (f : Interface → Interface) : Fleet :=
  { fleet with interfaces := fleet.interfaces.modify i f }

/-- The fleet after one more event. -/
def record (fleet : Fleet) (event : Event) : Fleet :=
  { fleet with history := event :: fleet.history }

/-- The fleet after a log entry. -/
def log (fleet : Fleet) (level : Log.Level) (message : Text) : Fleet :=
  fleet.record (.logged ⟨level, message⟩)

/-- Writes a log entry. -/
def note (level : Log.Level) (message : Text) : Act Fleet Unit :=
  modify (·.log level message)

/-- Hands a command to a delegate, which accepts it or objects.  A refused
command leaves no event. -/
def issue (c : ControlId) (command : Command) : Act Fleet Unit := do
  let fleet ← get
  match fleet.controls.get? c with
  | none => throw .noControl
  | some control =>
    set { fleet with controls := fleet.controls.modify c fun d =>
      { d with calls := d.calls + 1 } }
    match control.objection control.calls command with
    | some fault => throw fault
    | none => modify (·.record (.commanded c command))

/-- Tells the listener that a container is connected or disconnected.  An update
counts as heard also when the listener objects to it. -/
def notify (tag : Text) (connected : Bool) : Act Fleet Unit := do
  let listener := (← get).listener
  if let some userId := listener.logsFor then
    note .info
      (text "[User] " ++ userId ++ text ": container " ++ tag.quoted
        ++ text " is now "
      ++ if connected then text "connected" else text "disconnected")
  if listener.hears then
    modify fun fleet =>
      { fleet.record (.notified tag connected) with
        listener := { fleet.listener with calls := fleet.listener.calls + 1 } }
    if let some fault := listener.objection listener.calls tag connected then
      throw fault

/-- The delegate that an endpoint asks for, if it is there and can do all that
is needed. -/
def requireControl (needs : List Capability) (control : Option ControlId) :
    Act Fleet ControlId := do
  let fleet ← get
  match control.bind fun c => (fleet.controls.get? c).map fun d => (c, d) with
  | none => throw .noControl
  | some (c, delegate) =>
    match needs.find? fun need => need ∉ delegate.capabilities with
    | some need => throw (.lacks need)
    | none => return c

end Fleet
end FleetControl

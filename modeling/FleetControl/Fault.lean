import FleetControl.Parameter.Coercion

/-!
# Faults

Why an operation fails.  A fault states its cause; `Fault.kind` is the class of
callers that it concerns, `Fault.wording` all that it says, and `Fault.message`
the part of it that others get to read.  The machines behind a session, and
those who are told of its updates, may fail for reasons of their own, which
`Fault.foreign` carries; a source of random bytes gives its reason with
`Fault.noRandomness`.
-/

namespace FleetControl

/-- What a delegate may be able to do. -/
inductive Capability where
  | robot
  | container
  | node
  | parameter
deriving DecidableEq

/-- The name of a capability in messages. -/
def Capability.name : Capability → Text
  | .robot => text "RobotControl"
  | .container => text "ContainerControl"
  | .node => text "NodeControl"
  | .parameter => text "ParameterControl"

/-- The classes of faults. -/
inductive Fault.Kind where
  /-- A delegate lacks what its endpoint needs. -/
  | contract
  /-- What a caller gave is not valid. -/
  | invalid
  /-- An address is taken. -/
  | addressInUse
  /-- An interface is registered already. -/
  | duplicate
  /-- An interface is not registered. -/
  | unregistered
  /-- The object is torn down already. -/
  | deleted
  /-- Another mismatch of registrations. -/
  | structural
  /-- A fault of endpoints of no nearer class. -/
  | endpoint
  /-- A text that is no JSON, or a value that cannot be written as JSON. -/
  | json
  /-- Anything else. -/
  | runtime
deriving DecidableEq

/-- The class is one of registration mismatches, which show a mistake of the
session itself. -/
def Fault.Kind.isStructural : Fault.Kind → Bool
  | .duplicate | .unregistered | .deleted | .structural => true
  | _ => false

/-- Why an operation fails. -/
inductive Fault where
  | noControl
  | lacks (capability : Capability)
  | endpointDeleted (uid : Text)
  | interfaceDeleted (tag : Text)
  | sessionDestroyed (userId : Text)
  | alreadyRegistered
  | notRegistered
  | addressInUse (address : Text)
  | illegalNamespace (name : Text)
  | illegalName (name : Text)
  | badParameter (name : Text) (misfit : Misfit)
  | alreadyConnected (uid : Text)
  | robotExists (id : Text)
  | robotLimit (limit : Nat)
  | noRobot (id : Text)
  | containerExists (tag : Text)
  | containerLimit (limit : Nat)
  | noContainer (tag : Text)
  | interfaceExists (tag : Text)
  | noInterface (tag : Text)
  | fieldNoText (field : Text)
  | optionalFieldNoText (field : Text)
  | fieldNoBool (field : Text)
  | fieldMissing (field : Text)
  | keyLength (bytes : Nat)
  | noRandomness (reason : Text)
  | noConfiguration (path : Text)
  | configurationNoObject (path : Text)
  | noJournal (path : Text)
  | noRequests (path : Text)
  | json
  | foreign (kind : Fault.Kind) (message cause : Text)

namespace Fault

/-- The class of a fault. -/
def kind : Fault → Kind
  | noControl | lacks _ => .contract
  | endpointDeleted _ | interfaceDeleted _ | sessionDestroyed _ => .deleted
  | alreadyRegistered => .duplicate
  | notRegistered => .unregistered
  | addressInUse _ => .addressInUse
  | illegalNamespace _ | illegalName _ | badParameter _ _
  | alreadyConnected _ => .invalid
  | robotExists _ | robotLimit _ | noRobot _ => .invalid
  | containerExists _ | containerLimit _ | noContainer _ => .invalid
  | interfaceExists _ | noInterface _ => .invalid
  | fieldNoText _ | optionalFieldNoText _ | fieldNoBool _ | fieldMissing _ =>
    .invalid
  | keyLength _ | noRandomness _ => .runtime
  | noConfiguration _ | configurationNoObject _ | noJournal _ | noRequests _ =>
    .runtime
  | json => .json
  | foreign kind _ _ => kind

/-- The fault shows a mismatch of registrations. -/
def isStructural (fault : Fault) : Bool :=
  fault.kind.isStructural

/-- The part of a message that says why a caller's value is refused; most faults
have none. -/
def cause : Fault → Text
  | badParameter _ misfit => misfit.message
  | foreign _ _ cause => cause
  | _ => []

/-- A message that names one thing between its two halves. -/
private def naming (before name after : Text) : Text :=
  before ++ name.quoted ++ after

/-- All that a fault says. -/
def wording : Fault → Text
  | noControl => text "No control given, EndpointControl is required."
  | lacks capability =>
    text "Control does not implement " ++ capability.name ++ text "."
  | endpointDeleted uid =>
    naming (text "Endpoint ") uid (text " has already been deleted.")
  | interfaceDeleted tag =>
    naming (text "Interface ") tag (text " has already been deleted.")
  | sessionDestroyed userId =>
    naming (text "User ") userId (text " has already been destroyed.")
  | alreadyRegistered =>
    text "There exists already an interface with the same tag."
  | notRegistered => text "Tried to unregister a non existing interface."
  | addressInUse address =>
    naming (text "Address ") address (text " already is in use.")
  | illegalNamespace name =>
    naming (text "The namespace ") name (text " is not valid.")
  | illegalName name => naming (text "The name ") name (text " is not valid.")
  | badParameter name misfit =>
    naming (text "Invalid parameter ") name (text ": " ++ misfit.message)
  | alreadyConnected uid => naming (text "Tried to set container ") uid
      (text " to connected which already is registered as connected.")
  | robotExists id => naming (text "Robot ") id (text " already exists.")
  | robotLimit limit =>
    text "Robot limit of " ++ Text.ofNat limit ++ text " reached."
  | noRobot id => naming (text "Robot ") id (text " does not exist.")
  | containerExists tag =>
    naming (text "Container ") tag (text " already exists.")
  | containerLimit limit =>
    text "Container limit of " ++ Text.ofNat limit ++ text " reached."
  | noContainer tag => naming (text "Container ") tag (text " does not exist.")
  | interfaceExists tag =>
    naming (text "Interface ") tag (text " already exists.")
  | noInterface tag => naming (text "Interface ") tag (text " does not exist.")
  | fieldNoText field =>
    naming (text "Request field ") field (text " is missing or not a string.")
  | optionalFieldNoText field =>
    naming (text "Request field ") field (text " is not a string.")
  | fieldNoBool field =>
    naming (text "Request field ") field (text " is missing or not a bool.")
  | fieldMissing field =>
    naming (text "Request field ") field (text " is missing.")
  | keyLength bytes => text "Invalid robot key length: " ++ Text.ofNat bytes
  | noRandomness reason => text "Failed to generate robot key: " ++ reason
  | noConfiguration path => text "Cannot open config: " ++ path
  | configurationNoObject path =>
    text "Config root has to be an object: " ++ path
  | noJournal path => text "Cannot open command journal: " ++ path
  | noRequests path => text "Cannot open requests: " ++ path
  | json => text "<json error>"
  | foreign _ message cause =>
    if cause.isEmpty then message else message ++ text ": " ++ cause

/-- The message of a fault.  Its wording is handed on with a zero byte for its
end, so a zero byte in a name that it quotes ends the message there. -/
def message (fault : Fault) : Text :=
  fault.wording.cut

end Fault
end FleetControl

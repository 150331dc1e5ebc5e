import Mathlib.Data.Finset.Card
import FleetControl.Proofs.Request.Ask

/-!
# Registries

A registry is all that a user can learn about a session from its answers: the
names of the robots, the containers with their flags, and the interfaces with
their containers and addresses.  It answers requests by itself, without
delegates, endpoints and reservations: `Registry.refusal?` says what is refused,
and `Registry.after` what comes of the rest.
-/

namespace FleetControl

/-- The robots, the flags of the containers, and the container and address of
each interface. -/
@[ext]
structure Registry where
  robots : Finset Text
  containers : Dict Bool
  interfaces : Dict (Text × Text)

namespace Registry

/-- The classes of refusals. -/
inductive Refusal where
  | invalid
  | addressInUse
deriving DecidableEq

/-- The name of a class of refusals. -/
def Refusal.name : Refusal → Text
  | .invalid => text "InvalidRequest"
  | .addressInUse => text "AddressInUse"

/-- The registry without an entry. -/
def empty : Registry :=
  ⟨∅, [], []⟩

/-- The address is taken by an interface on the container. -/
def isTaken (r : Registry) (container address : Text) : Bool :=
  r.interfaces.any fun entry => entry.2 = (container, address)

/-- Why something that is asked for is refused, if it is. -/
def refusal? (limits : Limits) (r : Registry) : Ask → Option Refusal
  | .addRobot id _ =>
    if id ∈ r.robots ∨ limits.robots ≤ r.robots.card then some .invalid
    else none
  | .removeRobot id => if id ∈ r.robots then none else some .invalid
  | .addContainer tag _ =>
    if r.containers.contains tag ∨
      limits.containers ≤ r.containers.length then some .invalid
    else none
  | .removeContainer tag =>
    if r.containers.contains tag then none else some .invalid
  | .setConnected tag connected =>
    if ¬ r.containers.contains tag ∨
      (connected ∧ r.containers.get? tag = some true) then
      some .invalid
    else none
  | .graph container order =>
    if r.containers.contains container ∧ order.command.isOk then none
    else some .invalid
  | .addInterface container tag address =>
    if r.interfaces.contains tag ∨
      ¬ r.containers.contains container then some .invalid
    else if r.isTaken container address then some .addressInUse
    else none
  | .removeInterface tag =>
    if r.interfaces.contains tag then none else some .invalid

/-- The registry after what is asked for has been carried out. -/
def after (r : Registry) : Ask → Registry
  | .addRobot id _ => { r with robots := insert id r.robots }
  | .removeRobot id => { r with robots := r.robots.erase id }
  | .addContainer tag _ =>
    { r with containers := r.containers.insert tag false }
  | .removeContainer tag =>
    { r with
      containers := r.containers.erase tag
      interfaces := r.interfaces.filter fun entry => entry.2.1 ≠ tag }
  | .setConnected tag connected =>
    { r with containers := r.containers.insert tag connected }
  | .graph _ _ => r
  | .addInterface container tag address =>
    { r with interfaces := r.interfaces.insert tag (container, address) }
  | .removeInterface tag => { r with interfaces := r.interfaces.erase tag }

/-- Why a request is refused, if it is, and the registry after it.  A request
that cannot be read is invalid. -/
def answer (limits : Limits) (r : Registry) (request : Json) :
    Option Refusal × Registry :=
  match request.ask? with
  | none => (some .invalid, r)
  | some ask =>
    match r.refusal? limits ask with
    | some refusal => (some refusal, r)
    | none => (none, r.after ask)

/-- The refusals of requests in their order, and the registry after them. -/
def run (limits : Limits) :
    List Json → Registry → List (Option Refusal) × Registry
  | [], r => ([], r)
  | request :: rest, r =>
    let (first, r) := r.answer limits request
    let (later, r) := run limits rest r
    (first :: later, r)

/-- The status and the class of error of an answer with a refusal, or
without one. -/
def shown : Option Refusal → Option Text × Option Text
  | none => (some (text "ok"), none)
  | some refusal => (some (text "error"), some refusal.name)

end Registry
end FleetControl

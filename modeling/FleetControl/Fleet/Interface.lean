import FleetControl.Fleet.Address

/-!
# Interfaces

An interface belongs to one endpoint.  It is torn down at most once:
`Fleet.destroyInterface` lets go of its registration, its delegate and its
address.  An interface whose behaviour is to tear down another one afterwards
may be part of a cycle; the descent ends because each step marks one more
interface as deleted, which `Fleet.liveInterfaces` counts.

`Fleet.dropInterface` is the end of an interface that nobody has torn down: it
leaves its endpoint without a trace of it, and writes no log.
-/

namespace FleetControl
namespace Fleet

/-- How many interfaces have not been torn down. -/
def liveInterfaces (fleet : Fleet) : Nat :=
  fleet.interfaces.count fun i => !i.deleted

/-- A new interface of an endpoint.  One that owns an address
reserves it first. -/
def newInterface (e : EndpointId) (tag : Text) (behaviour : Behaviour) :
    Act Fleet InterfaceId := do
  if let some address := behaviour.address? then reserve e address
  let fleet ← get
  set { fleet with interfaces :=
    fleet.interfaces.insert ⟨tag, e, none, false, behaviour⟩ }
  return fleet.interfaces.next

/-- Hands a delegate, or none, to a live interface. -/
def registerControl (i : InterfaceId) (control : Option ControlId) :
    Act Fleet Unit := do
  let interface := (← get).interface i
  if interface.deleted then throw (.interfaceDeleted interface.tag)
  modify (·.modifyInterface i fun interface =>
    { interface with control := control })

/-- The endpoint without the registration of an interface, and without an
address if one is given.  An endpoint that has been torn down stays as it is. -/
def letGo (i : InterfaceId) (address? : Option Text) (endpoint : Endpoint) :
    Endpoint :=
  if endpoint.isDeleted then endpoint
  else
    { endpoint with
      registered := endpoint.registered.erase i
      addresses := match address? with
        | some address => endpoint.addresses.erase address
        | none => endpoint.addresses }

/-- The fleet with an interface marked as deleted and without its
registration. -/
def close (fleet : Fleet) (i : InterfaceId) : Fleet :=
  (fleet.modifyEndpoint (fleet.interface i).endpoint
    (letGo i none)).modifyInterface i
    fun interface => { interface with control := none, deleted := true }

/-- The fleet without the address that an interface owns, as long as its
endpoint is live. -/
def releaseOwned (fleet : Fleet) (i : InterfaceId) : Fleet :=
  let interface := fleet.interface i
  match interface.behaviour.address? with
  | none => fleet
  | some address =>
    if (fleet.endpoint interface.endpoint).isDeleted then fleet
    else fleet.release interface.endpoint address

/-- Closing a live interface leaves fewer live ones. -/
theorem liveInterfaces_close_lt (fleet : Fleet) (i : InterfaceId)
    (hlive : (fleet.interface i).deleted = false) :
    (fleet.close i).liveInterfaces < fleet.liveInterfaces := by
  unfold interface at hlive
  cases hget : fleet.interfaces.get? i with
  | none => simp [hget, Interface.gone] at hlive
  | some interface =>
    exact Store.count_modify_lt fleet.interfaces i
      (fun interface => { interface with control := none, deleted := true })
      (fun interface => !interface.deleted) hget (by simpa [hget] using hlive)
      (fun _ => rfl)

/-- What tearing an interface down answers, and the fleet that it leaves. -/
def teardown (fleet : Fleet) (i : InterfaceId) : Except Fault Unit × Fleet :=
  let interface := fleet.interface i
  match interface.behaviour with
  | .stuck fault => (.error fault, fleet)
  | .plain | .address _ =>
    if interface.deleted then (.error (.interfaceDeleted interface.tag), fleet)
    else (.ok (), (fleet.releaseOwned i).close i)
  | .chain next =>
    if _hlive : interface.deleted then
      (.error (.interfaceDeleted interface.tag), fleet)
    else teardown (fleet.close i) next
termination_by fleet.liveInterfaces
decreasing_by exact liveInterfaces_close_lt fleet i (by simpa using _hlive)

/-- Tears an interface down. -/
def destroyInterface (i : InterfaceId) : Act Fleet Unit :=
  Act.of fun fleet => fleet.teardown i

/-- The fleet without an interface.  One that has not been torn down leaves no
registration and no reservation with a live endpoint. -/
def dropInterface (fleet : Fleet) (i : InterfaceId) : Fleet :=
  let interface := fleet.interface i
  let released :=
    if interface.deleted then fleet
    else fleet.modifyEndpoint interface.endpoint
      (letGo i interface.behaviour.address?)
  { released with interfaces := released.interfaces.erase i }

/-- Nothing refers to the interface any more: no other endpoint than its own has
it registered, and no other interface tears it down. -/
def canDrop (fleet : Fleet) (i : InterfaceId) : Bool :=
  (fleet.endpoints.entries.all fun (e, endpoint) =>
      e = (fleet.interface i).endpoint || !endpoint.registered.contains i)
    && fleet.interfaces.entries.all fun (_, other) =>
      match other.behaviour with
      | .chain next => next ≠ i
      | _ => true

end Fleet
end FleetControl

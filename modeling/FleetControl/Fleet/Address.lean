import FleetControl.Fleet

/-!
# Addresses of an environment

Each environment has addresses of its own, and each of them can be reserved
once.  Only a live endpoint reserves and frees; freeing an address that is not
reserved is logged and changes nothing.
-/

namespace FleetControl
namespace Fleet

/-- A live endpoint and its delegate. -/
def active (e : EndpointId) : Act Fleet (Endpoint × ControlId) := do
  let endpoint := (← get).endpoint e
  match endpoint.control with
  | none => throw (.endpointDeleted endpoint.uid)
  | some c => return (endpoint, c)

/-- The address is reserved in the environment. -/
def isReserved (fleet : Fleet) (e : EndpointId) (address : Text) : Bool :=
  (fleet.endpoint e).addresses.contains address

/-- The fleet without the reservation of an address, or with an entry that
there was none. -/
def release (fleet : Fleet) (e : EndpointId) (address : Text) : Fleet :=
  if fleet.isReserved e address then
    fleet.modifyEndpoint e fun endpoint =>
      { endpoint with addresses := endpoint.addresses.erase address }
  else
    fleet.log .error
      (text "[EnvironmentProxy] Tried to free address " ++ address.quoted
        ++ text " which was not reserved.")

/-- Reserves an address of an environment. -/
def reserve (e : EndpointId) (address : Text) : Act Fleet Unit := do
  let _ ← active e
  if (← get).isReserved e address then throw (.addressInUse address)
  modify (·.modifyEndpoint e fun endpoint =>
    { endpoint with addresses := address :: endpoint.addresses })

/-- Frees an address of an environment. -/
def free (e : EndpointId) (address : Text) : Act Fleet Unit := do
  let _ ← active e
  modify (·.release e address)

end Fleet
end FleetControl

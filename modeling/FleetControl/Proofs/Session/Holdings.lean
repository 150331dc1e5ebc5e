import FleetControl.Session
import FleetControl.Proofs.Dict
import FleetControl.Proofs.Store

/-!
# What a session holds

The tables of a session and the endpoints and interfaces of its fleet are kept
in step by the operations of the session: `Holdings.Sound`.  Every name in a
table stands for a live thing of that name, every interface belongs to a
container of the session, and what a container has registered and reserved is
what the interfaces on it are and own.

The functions on holdings below are all the changes that a request can make.
Each of them keeps the invariant.
-/

namespace FleetControl

/-- The tables of a session, and the endpoints and interfaces behind them. -/
structure Holdings where
  robots : Dict EndpointId
  containers : Dict EndpointId
  interfaces : Dict InterfaceId
  endpointStore : Store Endpoint
  interfaceStore : Store Interface

/-- What the session holds. -/
def Session.holdings (s : Session) : Holdings :=
  ⟨s.robots, s.containers, s.interfaces, s.fleet.endpoints, s.fleet.interfaces⟩

namespace Holdings

/-- The endpoint of a number. -/
def endpoint (h : Holdings) (e : EndpointId) : Endpoint :=
  (h.endpointStore.get? e).getD .gone

/-- The interface of a number. -/
def interface (h : Holdings) (i : InterfaceId) : Interface :=
  (h.interfaceStore.get? i).getD .gone

@[simp]
theorem endpoint_holdings (s : Session) (e : EndpointId) :
    s.holdings.endpoint e = s.fleet.endpoint e :=
  rfl

@[simp]
theorem interface_holdings (s : Session) (i : InterfaceId) :
    s.holdings.interface i = s.fleet.interface i :=
  rfl

/-- The interface is one of the session's, and on the endpoint. -/
def IsOn (h : Holdings) (i : InterfaceId) (e : EndpointId) : Prop :=
  (∃ tag, h.interfaces.get? tag = some i) ∧ (h.interface i).endpoint = e

/-! ## Changes -/

/-- One more robot. -/
def withRobot (h : Holdings) (id : Text) (endpoint : Endpoint) : Holdings :=
  { h with
    robots := h.robots.insert id h.endpointStore.next
    endpointStore := h.endpointStore.insert endpoint }

/-- One more container. -/
def withContainer (h : Holdings) (tag : Text) (endpoint : Endpoint) :
    Holdings :=
  { h with
    containers := h.containers.insert tag h.endpointStore.next
    endpointStore := h.endpointStore.insert endpoint }

/-- The numbers of the session's interfaces on an endpoint. -/
def interfacesOn (h : Holdings) (e : EndpointId) : List InterfaceId :=
  (h.interfaces.filter fun entry => (h.interface entry.2).endpoint = e).map
    (·.2)

/-- No trace of an endpoint and of the session's interfaces on it, its own
name apart. -/
def without (h : Holdings) (e : EndpointId) : Holdings :=
  { h with
    interfaces :=
      h.interfaces.filter fun entry => (h.interface entry.2).endpoint ≠ e
    endpointStore := h.endpointStore.erase e
    interfaceStore := h.interfaceStore.restrict fun i => i ∉ h.interfacesOn e }

/-- A robot less. -/
def withoutRobot (h : Holdings) (id : Text) (e : EndpointId) : Holdings :=
  { h.without e with robots := h.robots.erase id }

/-- A container less, and the interfaces on it. -/
def withoutContainer (h : Holdings) (tag : Text) (e : EndpointId) : Holdings :=
  { h.without e with containers := h.containers.erase tag }

/-- The connected flag of a container set. -/
def withFlag (h : Holdings) (e : EndpointId) (connected : Bool) : Holdings :=
  { h with
    endpointStore := h.endpointStore.modify e fun endpoint =>
      { endpoint with role := .container connected } }

/-- One more interface on a container, which owns an address and has the
container's delegate. -/
def withInterface (h : Holdings) (tag : Text) (e : EndpointId) (address : Text)
    (c : ControlId) :
    Holdings :=
  { h with
    interfaces := h.interfaces.insert tag h.interfaceStore.next
    endpointStore := h.endpointStore.modify e fun endpoint =>
      { endpoint with
        registered :=
          Fleet.insertInOrder h.interfaceStore.next endpoint.registered
        addresses := address :: endpoint.addresses }
    interfaceStore :=
      h.interfaceStore.insert ⟨tag, e, some c, false, .address address⟩ }

/-- An interface less, with its registration and its address. -/
def withoutInterface (h : Holdings) (tag : Text) (i : InterfaceId)
    (e : EndpointId) (address : Text) : Holdings :=
  { h with
    interfaces := h.interfaces.erase tag
    endpointStore := h.endpointStore.modify e fun endpoint =>
      { endpoint with
        registered := endpoint.registered.erase i
        addresses := endpoint.addresses.erase address }
    interfaceStore := h.interfaceStore.erase i }

theorem endpointStore_withFlag (h : Holdings) (e : EndpointId)
    (connected : Bool) :
    (h.withFlag e connected).endpointStore =
      h.endpointStore.modify e fun endpoint =>
      { endpoint with role := .container connected } :=
  rfl

theorem endpointStore_withInterface (h : Holdings) (tag : Text) (e : EndpointId)
    (address : Text) (c : ControlId) :
    (h.withInterface tag e address c).endpointStore =
      h.endpointStore.modify e fun endpoint =>
      { endpoint with
        registered :=
          Fleet.insertInOrder h.interfaceStore.next endpoint.registered
        addresses := address :: endpoint.addresses } :=
  rfl

theorem endpointStore_withoutInterface (h : Holdings) (tag : Text)
    (i : InterfaceId) (e : EndpointId) (address : Text) :
    (h.withoutInterface tag i e address).endpointStore =
      h.endpointStore.modify e fun endpoint =>
      { endpoint with
        registered := endpoint.registered.erase i
        addresses := endpoint.addresses.erase address } :=
  rfl

/-! ## The invariant -/

/-- A live robot of the session. -/
structure IsRobot (h : Holdings) (id : Text) (e : EndpointId) : Prop where
  role_eq : (h.endpoint e).role = .robot
  uid_eq : (h.endpoint e).uid = id
  owned : (h.endpoint e).owned = true
  live : (h.endpoint e).isDeleted = false
  registered_eq : (h.endpoint e).registered = []

/-- A live container of the session, which has registered exactly the session's
interfaces on it and reserved exactly their addresses. -/
structure IsContainer (h : Holdings) (tag : Text) (e : EndpointId) : Prop where
  role_eq : ∃ connected, (h.endpoint e).role = .container connected
  uid_eq : (h.endpoint e).uid = tag
  owned : (h.endpoint e).owned = true
  live : (h.endpoint e).isDeleted = false
  registered_nodup : (h.endpoint e).registered.Nodup
  addresses_nodup : (h.endpoint e).addresses.Nodup
  mem_registered : ∀ i, i ∈ (h.endpoint e).registered ↔ h.IsOn i e
  mem_addresses : ∀ address, address ∈ (h.endpoint e).addresses ↔
    ∃ i, h.IsOn i e ∧ (h.interface i).behaviour = .address address

/-- A live interface of the session on one of its containers. -/
structure IsInterface (h : Holdings) (tag : Text) (i : InterfaceId) : Prop where
  tag_eq : (h.interface i).tag = tag
  live : (h.interface i).deleted = false
  home : ∃ container, h.containers.get? container =
    some (h.interface i).endpoint
  address : ∃ address, (h.interface i).behaviour = .address address

/-- The tables of a session and the things behind them are in step. -/
structure Sound (h : Holdings) : Prop where
  robots_sorted : h.robots.Sorted
  containers_sorted : h.containers.Sorted
  interfaces_sorted : h.interfaces.Sorted
  endpoints_fresh : h.endpointStore.Fresh
  interfaces_fresh : h.interfaceStore.Fresh
  robot : ∀ {id e}, h.robots.get? id = some e → h.IsRobot id e
  container : ∀ {tag e}, h.containers.get? tag = some e → h.IsContainer tag e
  interface : ∀ {tag i}, h.interfaces.get? tag = some i → h.IsInterface tag i
  distinct : ∀ {e i j}, h.IsOn i e → h.IsOn j e →
    (h.interface i).behaviour = (h.interface j).behaviour → i = j

end Holdings
end FleetControl

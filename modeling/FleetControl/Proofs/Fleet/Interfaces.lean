import FleetControl.Proofs.Fleet.Endpoints

/-!
# Interfaces of live endpoints

An interface that owns an address comes and goes together with its registration
and its reservation: what its making and its end do to a fleet, all in all.
-/

namespace FleetControl
namespace Fleet

variable {f : Fleet} {e : EndpointId} {c : ControlId} {i : InterfaceId}
    {address : Text}

/-- A live endpoint makes an interface at each address that is not
reserved yet. -/
theorem run_newInterface (h : (f.endpoint e).control = some c)
    (tag address : Text) :
    Act.run (newInterface e tag (.address address)) f =
      if f.isReserved e address then (.error (.addressInUse address), f)
      else
        (.ok f.interfaces.next,
          { f.modifyEndpoint e fun endpoint =>
              { endpoint with addresses := address :: endpoint.addresses } with
            interfaces := f.interfaces.insert
              ⟨tag, e, none, false, .address address⟩ }) := by
  cases hreserved : f.isReserved e address with
  | true =>
    simp [newInterface, Behaviour.address?, reserve, Act.run_bind, run_active h,
      hreserved]
  | false =>
    simp [newInterface, Behaviour.address?, reserve, Act.run_bind, run_active h,
      hreserved, modifyEndpoint]

/-- A live endpoint registers each live interface that is not registered yet,
and hands it its delegate. -/
theorem run_register (h : (f.endpoint e).control = some c)
    (hnot : i ∉ (f.endpoint e).registered)
    (hlive : (f.interface i).deleted = false) :
    Act.run (register e i) f =
      (.ok (), (f.modifyInterface i fun interface =>
        { interface with control := some c }).modifyEndpoint e fun endpoint =>
          { endpoint with
            registered := insertInOrder i endpoint.registered }) := by
  simp [register, registerControl, Act.run_bind, run_active h, hasInterface,
    hnot, hlive]

theorem run_register_of_mem (h : (f.endpoint e).control = some c)
    (hmem : i ∈ (f.endpoint e).registered) :
    Act.run (register e i) f = (.error .alreadyRegistered, f) := by
  simp [register, Act.run_bind, run_active h, hasInterface, hmem]

theorem run_register_of_deleted (h : (f.endpoint e).control = some c)
    (hnot : i ∉ (f.endpoint e).registered)
    (hdeleted : (f.interface i).deleted = true) :
    Act.run (register e i) f =
      (.error (.interfaceDeleted (f.interface i).tag), f) := by
  simp [register, registerControl, Act.run_bind, run_active h, hasInterface,
    hnot, hdeleted]

theorem run_unregister (h : (f.endpoint e).control = some c) (i : InterfaceId) :
    Act.run (unregister e i) f =
      if i ∈ (f.endpoint e).registered then
        (.ok (), f.modifyEndpoint e fun endpoint =>
          { endpoint with registered := endpoint.registered.erase i })
      else (.error .notRegistered, f) := by
  by_cases hmem : i ∈ (f.endpoint e).registered
  · simp [unregister, Act.run_bind, run_active h, hasInterface, hmem]
  · simp [unregister, Act.run_bind, run_active h, hasInterface, hmem]

theorem run_reserve (h : (f.endpoint e).control = some c) (address : Text) :
    Act.run (reserve e address) f =
      if f.isReserved e address then (.error (.addressInUse address), f)
      else
        (.ok (), f.modifyEndpoint e fun endpoint =>
          { endpoint with addresses := address :: endpoint.addresses }) := by
  cases hreserved : f.isReserved e address with
  | true => simp [reserve, Act.run_bind, run_active h, hreserved]
  | false => simp [reserve, Act.run_bind, run_active h, hreserved]

theorem run_free (h : (f.endpoint e).control = some c) (address : Text) :
    Act.run (free e address) f = (.ok (), f.release e address) := by
  simp [free, Act.run_bind, run_active h]

theorem run_registerControl (f : Fleet) (i : InterfaceId)
    (control : Option ControlId) :
    Act.run (registerControl i control) f =
      if (f.interface i).deleted then
        (.error (.interfaceDeleted (f.interface i).tag), f)
      else
        (.ok (), f.modifyInterface i fun interface =>
          { interface with control := control }) := by
  cases hdeleted : (f.interface i).deleted with
  | true => simp [registerControl, Act.run_bind, hdeleted]
  | false => simp [registerControl, Act.run_bind, hdeleted]

/-- The whole end of an interface that owns an address: its registration, its
reservation and itself are gone. -/
theorem dropInterface_close_releaseOwned (hfresh : f.endpoints.Fresh)
    (hlive : (f.interface i).deleted = false)
    (haddress : (f.interface i).behaviour = .address address)
    (hhome : (f.interface i).endpoint = e)
    (he : (f.endpoint e).isDeleted = false)
    (hreserved : address ∈ (f.endpoint e).addresses) :
    ((f.releaseOwned i).close i).dropInterface i =
      { f with
        endpoints := f.endpoints.modify e fun endpoint =>
          { endpoint with
            registered := endpoint.registered.erase i
            addresses := endpoint.addresses.erase address }
        interfaces := f.interfaces.erase i } := by
  have hrelease : f.releaseOwned i = f.modifyEndpoint e fun endpoint =>
      { endpoint with addresses := endpoint.addresses.erase address } := by
    simp [releaseOwned, haddress, Behaviour.address?, hhome, he, release,
      isReserved, hreserved]
  have hclose : (f.releaseOwned i).close i =
      { f with
        endpoints := f.endpoints.modify e fun endpoint =>
          letGo i none
            { endpoint with addresses := endpoint.addresses.erase address }
        interfaces := f.interfaces.modify i fun interface =>
          { interface with control := none, deleted := true } } := by
    rw [hrelease, close, interface_modifyEndpoint, hhome]
    simp [modifyEndpoint, modifyInterface, Store.modify_modify]
  have hdeleted :
      (((f.releaseOwned i).close i).interface i).deleted = true := by
    have hlive' : ((f.releaseOwned i).interface i).deleted = false := by
      rw [hrelease, interface_modifyEndpoint]
      exact hlive
    rw [close, interface_modifyInterface_self]
    exact hlive'
  have hendpoints : (f.endpoints.modify e fun endpoint =>
      letGo i none
        { endpoint with addresses := endpoint.addresses.erase address }) =
      f.endpoints.modify e fun endpoint =>
        { endpoint with
          registered := endpoint.registered.erase i
          addresses := endpoint.addresses.erase address } := by
    obtain ⟨endpoint, hget⟩ := exists_of_isDeleted_eq_false he
    have hcontrol : endpoint.isDeleted = false := by
      simpa [Fleet.endpoint, hget] using he
    apply hfresh.modify_congr hget
    have hcontrol' :
        ({ endpoint with addresses := endpoint.addresses.erase address } :
      Endpoint).isDeleted = false := hcontrol
    simp [letGo, hcontrol']
  simp only [dropInterface, hdeleted, if_true]
  rw [hclose, hendpoints]
  simp [Store.erase_modify_self]

end Fleet
end FleetControl

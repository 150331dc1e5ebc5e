import FleetControl.Proofs.Fleet.Interfaces
import FleetControl.Proofs.Fleet.Leaving

/-!
# Dropping interfaces and tearing them down

A live interface can end in two ways.  It is dropped as it is, or it is torn
down first and dropped then.  Each way is a chain of calls to its endpoint,
`Fleet.free` and `Fleet.unregister`, which fail where there is nothing to free
or to end; `Fleet.discard` and `Fleet.dismiss` spell out the guards before these
calls, which are not the same.

No call fails on either way, the two ways leave the same endpoints and
interfaces, and only tearing down may log something: `Fleet.EndsAlike`.  A live
endpoint loses exactly the registrations and addresses of the interfaces that
are dropped, however many they are: `Fleet.Clears`.
-/

namespace FleetControl
namespace Fleet

variable {f g h : Fleet} {e : EndpointId} {i : InterfaceId}

/-! ## Call by call -/

/-- Frees the address of a live interface, if its endpoint is live and has
reserved it. -/
def freeIfReserved (i : InterfaceId) : Act Fleet Unit := do
  let fleet ← get
  let interface := fleet.interface i
  if let some address := interface.behaviour.address? then
    if !interface.deleted && !(fleet.endpoint interface.endpoint).isDeleted
        && fleet.isReserved interface.endpoint address then
      free interface.endpoint address

/-- Frees the address of an interface, if its endpoint is live. -/
def freeOwned (i : InterfaceId) : Act Fleet Unit := do
  let fleet ← get
  let interface := fleet.interface i
  if let some address := interface.behaviour.address? then
    if !(fleet.endpoint interface.endpoint).isDeleted then
      free interface.endpoint address

/-- Ends the registration of an interface, if its endpoint is live and has
registered it. -/
def unregisterIfRegistered (i : InterfaceId) : Act Fleet Unit := do
  let fleet ← get
  let e := (fleet.interface i).endpoint
  if !(fleet.endpoint e).isDeleted && fleet.hasInterface e i then
    unregister e i

/-- Drops an interface, call by call. -/
def discard (i : InterfaceId) : Act Fleet Unit := do
  freeIfReserved i
  if !((← get).interface i).deleted then unregisterIfRegistered i
  modify fun fleet => { fleet with interfaces := fleet.interfaces.erase i }

/-- Fails once an interface has been torn down. -/
def ensureLive (i : InterfaceId) : Act Fleet Unit := do
  let interface := (← get).interface i
  if interface.deleted then throw (.interfaceDeleted interface.tag)

/-- Tears down an interface that does not fail and tears down no other one,
call by call. -/
def dismiss (i : InterfaceId) : Act Fleet Unit := do
  ensureLive i
  freeOwned i
  -- What every interface has is torn down by itself, with a check of its own.
  ensureLive i
  unregisterIfRegistered i
  modify (·.modifyInterface i fun interface =>
    { interface with control := none, deleted := true })

/-! ## One endpoint changes -/

/-- The second fleet has one other endpoint and other interfaces than the first
one, and some more events have happened in it. -/
structure Becomes (f : Fleet) (e : EndpointId) (endpoint : Endpoint)
    (interfaces : Store Interface) (events : List Event) (g : Fleet) :
    Prop where
  controls_eq : g.controls = f.controls
  listener_eq : g.listener = f.listener
  interfaces_eq : g.interfaces = interfaces
  endpoint_eq : g.endpoint e = endpoint
  others_eq : ∀ other, other ≠ e → g.endpoint other = f.endpoint other
  history_eq : g.history = events ++ f.history

/-- Nothing tells the two fleets apart: under each number they have the same
endpoint, and all else is the same. -/
structure Coincides (f g : Fleet) : Prop where
  controls_eq : g.controls = f.controls
  listener_eq : g.listener = f.listener
  interfaces_eq : g.interfaces = f.interfaces
  endpoint_eq : ∀ e, g.endpoint e = f.endpoint e
  history_eq : g.history = f.history

theorem Coincides.refl (f : Fleet) : f.Coincides f :=
  ⟨rfl, rfl, rfl, fun _ => rfl, rfl⟩

namespace Becomes

variable {endpoint next : Endpoint} {interfaces later : Store Interface}
  {events more : List Event}

theorem refl (f : Fleet) (e : EndpointId) :
    Becomes f e (f.endpoint e) f.interfaces [] f :=
  ⟨rfl, rfl, rfl, rfl, fun _ _ => rfl, rfl⟩

theorem interface_eq (hfg : Becomes f e endpoint f.interfaces events g)
    (i : InterfaceId) :
    g.interface i = f.interface i := by
  rw [interface, hfg.interfaces_eq, interface]

theorem trans (hfg : Becomes f e endpoint interfaces events g)
    (hgh : Becomes g e next later more h) :
    Becomes f e next later (more ++ events) h where
  controls_eq := hgh.controls_eq.trans hfg.controls_eq
  listener_eq := hgh.listener_eq.trans hfg.listener_eq
  interfaces_eq := hgh.interfaces_eq
  endpoint_eq := hgh.endpoint_eq
  others_eq :=
    fun other hother =>
      (hgh.others_eq other hother).trans (hfg.others_eq other hother)
  history_eq := by rw [hgh.history_eq, hfg.history_eq, List.append_assoc]

theorem withInterfaces (hfg : Becomes f e endpoint interfaces events g)
    (later : Store Interface) :
    Becomes f e endpoint later events { g with interfaces := later } :=
  ⟨hfg.controls_eq, hfg.listener_eq, rfl, hfg.endpoint_eq, hfg.others_eq,
    hfg.history_eq⟩

/-- The endpoints do not depend on the interfaces and events. -/
theorem endpoints_eq (hfg : Becomes f e endpoint interfaces events g)
    (hfh : Becomes f e endpoint later more h) (other : EndpointId) :
    h.endpoint other = g.endpoint other := by
  by_cases hother : other = e
  · rw [hother, hfh.endpoint_eq, hfg.endpoint_eq]
  · rw [hfh.others_eq other hother, hfg.others_eq other hother]

/-- What a fleet becomes is known up to the way in which its endpoints
are stored. -/
theorem coincides (hfg : Becomes f e endpoint interfaces events g)
    (hfh : Becomes f e endpoint interfaces events h) : g.Coincides h where
  controls_eq := hfh.controls_eq.trans hfg.controls_eq.symm
  listener_eq := hfh.listener_eq.trans hfg.listener_eq.symm
  interfaces_eq := hfh.interfaces_eq.trans hfg.interfaces_eq.symm
  endpoint_eq := hfg.endpoints_eq hfh
  history_eq := hfh.history_eq.trans hfg.history_eq.symm

end Becomes

theorem becomes_modifyEndpoint (hlive : (f.endpoint e).isDeleted = false)
    (change : Endpoint → Endpoint) :
    Becomes f e (change (f.endpoint e)) f.interfaces []
      (f.modifyEndpoint e change) := by
  refine ⟨rfl, rfl, rfl, endpoint_modifyEndpoint_self hlive change,
    fun other hother => ?_, rfl⟩
  rw [endpoint, modifyEndpoint, Store.get?_modify_of_ne _ hother, endpoint]

/-- A live endpoint without an address; one that has been torn down
stays as it is. -/
def loseAddress (address? : Option Text) (endpoint : Endpoint) : Endpoint :=
  if endpoint.isDeleted then endpoint
  else
    { endpoint with
      addresses := address?.elim endpoint.addresses endpoint.addresses.erase }

theorem loseAddress_none (endpoint : Endpoint) :
    loseAddress none endpoint = endpoint := by
  unfold loseAddress
  split <;> rfl

theorem loseAddress_of_isDeleted {endpoint : Endpoint}
    (hdeleted : endpoint.isDeleted = true)
    (address? : Option Text) : loseAddress address? endpoint = endpoint := by
  rw [loseAddress, if_pos hdeleted]

theorem loseAddress_of_live {endpoint : Endpoint}
    (hlive : endpoint.isDeleted = false) (address? : Option Text) :
    loseAddress address? endpoint =
      { endpoint with
        addresses :=
          address?.elim endpoint.addresses endpoint.addresses.erase } := by
  simp only [loseAddress, hlive, Bool.false_eq_true, if_false]

theorem isDeleted_loseAddress (address? : Option Text) (endpoint : Endpoint) :
    (loseAddress address? endpoint).isDeleted = endpoint.isDeleted := by
  unfold loseAddress
  split <;> rfl

theorem isReserved_eq_false_iff {address : Text} :
    f.isReserved e address = false ↔ address ∉ (f.endpoint e).addresses := by
  simp [isReserved]

theorem loseAddress_of_not_reserved {address : Text}
    (hnot : f.isReserved e address = false) :
    loseAddress (some address) (f.endpoint e) = f.endpoint e := by
  unfold loseAddress
  rw [Option.elim_some, List.erase_of_not_mem (isReserved_eq_false_iff.mp hnot),
    ite_self]

/-- Address and registration may go one after the other. -/
theorem letGo_none_loseAddress (i : InterfaceId) (address? : Option Text)
    (endpoint : Endpoint) :
    letGo i none (loseAddress address? endpoint) =
      letGo i address? endpoint := by
  cases hdeleted : endpoint.isDeleted with
  | true => rw [loseAddress_of_isDeleted hdeleted, letGo_of_isDeleted hdeleted,
      letGo_of_isDeleted hdeleted]
  | false =>
    have hlive : (loseAddress address? endpoint).isDeleted = false := by
      rw [isDeleted_loseAddress, hdeleted]
    rw [letGo_of_live hlive, letGo_of_live hdeleted,
      loseAddress_of_live hdeleted]
    rfl

theorem missing_of_reserved {address : Text}
    (hreserved : f.isReserved e address = true) :
    missing (f.endpoint e) (some address) = [] :=
  if_pos (Bool.or_eq_true_iff.mpr (.inr hreserved))

theorem missing_of_not_reserved {address : Text}
    (hlive : (f.endpoint e).isDeleted = false)
    (hnot : f.isReserved e address = false) :
    missing (f.endpoint e) (some address) =
      [.logged (.unreserved address)] := by
  have hcontains : (f.endpoint e).addresses.contains address = false := hnot
  rw [missing, hlive, hcontains]
  rfl

theorem becomes_release (hlive : (f.endpoint e).isDeleted = false)
    (address : Text) :
    Becomes f e (loseAddress (some address) (f.endpoint e)) f.interfaces
      (missing (f.endpoint e) (some address)) (f.release e address) := by
  cases hreserved : f.isReserved e address with
  | true =>
    rw [missing_of_reserved hreserved, loseAddress_of_live hlive, release,
      if_pos hreserved]
    exact becomes_modifyEndpoint hlive fun endpoint =>
      { endpoint with addresses := endpoint.addresses.erase address }
  | false =>
    rw [missing_of_not_reserved hlive hreserved,
      loseAddress_of_not_reserved hreserved, release, hreserved]
    exact ⟨rfl, rfl, rfl, rfl, fun _ _ => rfl, rfl⟩

/-! ## The calls in turn -/

/-- Dropping frees an address only where it is reserved, so that nothing
is logged. -/
theorem run_freeIfReserved (hlive : (f.interface i).deleted = false) :
    ∃ g, Act.run (freeIfReserved i) f = (.ok (), g) ∧
      Becomes f (f.interface i).endpoint
        (loseAddress (f.interface i).behaviour.address?
          (f.endpoint (f.interface i).endpoint)) f.interfaces [] g := by
  have hstays := Becomes.refl f (f.interface i).endpoint
  cases haddress : (f.interface i).behaviour.address? with
  | none =>
    refine ⟨f, by simp [freeIfReserved, Act.run_bind, haddress], ?_⟩
    rwa [loseAddress_none]
  | some address =>
    cases hdeleted : (f.endpoint (f.interface i).endpoint).isDeleted with
    | true =>
      refine ⟨f, by simp [freeIfReserved, Act.run_bind, haddress, hdeleted], ?_⟩
      rwa [loseAddress_of_isDeleted hdeleted]
    | false =>
      cases hreserved : f.isReserved (f.interface i).endpoint address with
      | true =>
        obtain ⟨c, hcontrol⟩ := exists_control hdeleted
        refine ⟨f.release (f.interface i).endpoint address, ?_, ?_⟩
        · simp [freeIfReserved, Act.run_bind, haddress, hlive, hdeleted,
            hreserved, run_free hcontrol]
        · rw [← missing_of_reserved hreserved]
          exact becomes_release hdeleted address
      | false =>
        refine ⟨f, by simp [freeIfReserved, Act.run_bind, haddress, hreserved],
          ?_⟩
        rwa [loseAddress_of_not_reserved hreserved]

/-- Tearing down frees an address also where it is not reserved, which
is logged. -/
theorem run_freeOwned (f : Fleet) (i : InterfaceId) :
    ∃ g, Act.run (freeOwned i) f = (.ok (), g) ∧
      Becomes f (f.interface i).endpoint
        (loseAddress (f.interface i).behaviour.address?
          (f.endpoint (f.interface i).endpoint)) f.interfaces
        (f.anomaly i) g := by
  have hstays := Becomes.refl f (f.interface i).endpoint
  rw [anomaly]
  cases haddress : (f.interface i).behaviour.address? with
  | none =>
    refine ⟨f, by simp [freeOwned, Act.run_bind, haddress], ?_⟩
    rw [loseAddress_none]
    exact hstays
  | some address =>
    cases hdeleted : (f.endpoint (f.interface i).endpoint).isDeleted with
    | true =>
      refine ⟨f, by simp [freeOwned, Act.run_bind, haddress, hdeleted], ?_⟩
      rw [missing, hdeleted, Bool.true_or, if_pos rfl,
        loseAddress_of_isDeleted hdeleted]
      exact hstays
    | false =>
      obtain ⟨c, hcontrol⟩ := exists_control hdeleted
      refine ⟨f.release (f.interface i).endpoint address, ?_,
        becomes_release hdeleted address⟩
      simp [freeOwned, Act.run_bind, haddress, hdeleted, run_free hcontrol]

theorem run_unregisterIfRegistered (f : Fleet) (i : InterfaceId) :
    ∃ g, Act.run (unregisterIfRegistered i) f = (.ok (), g) ∧
      Becomes f (f.interface i).endpoint
        (letGo i none (f.endpoint (f.interface i).endpoint))
        f.interfaces [] g := by
  have hstays := Becomes.refl f (f.interface i).endpoint
  cases hdeleted : (f.endpoint (f.interface i).endpoint).isDeleted with
  | true =>
    refine ⟨f, by simp [unregisterIfRegistered, Act.run_bind, hdeleted], ?_⟩
    rwa [letGo_of_isDeleted hdeleted]
  | false =>
    rw [letGo_of_live hdeleted]
    by_cases hmem : i ∈ (f.endpoint (f.interface i).endpoint).registered
    · obtain ⟨c, hcontrol⟩ := exists_control hdeleted
      refine ⟨_, ?_, becomes_modifyEndpoint hdeleted fun endpoint =>
        { endpoint with registered := endpoint.registered.erase i }⟩
      simp [unregisterIfRegistered, Act.run_bind, hdeleted, hasInterface, hmem,
        run_unregister hcontrol]
    · refine ⟨f,
        by simp [unregisterIfRegistered, Act.run_bind, hasInterface, hmem], ?_⟩
      rw [List.erase_of_not_mem hmem]
      exact hstays

/-- Once the address is gone, the registration follows. -/
theorem run_unregisterIfRegistered_of_becomes {events : List Event}
    (hfg : Becomes f (f.interface i).endpoint
      (loseAddress (f.interface i).behaviour.address?
        (f.endpoint (f.interface i).endpoint)) f.interfaces events g) :
    ∃ h, Act.run (unregisterIfRegistered i) g = (.ok (), h) ∧
      Becomes f (f.interface i).endpoint
        (letGo i (f.interface i).behaviour.address?
          (f.endpoint (f.interface i).endpoint)) f.interfaces events h := by
  obtain ⟨h, hrun, hgh⟩ := run_unregisterIfRegistered g i
  rw [hfg.interface_eq, hfg.endpoint_eq, letGo_none_loseAddress,
    hfg.interfaces_eq] at hgh
  exact ⟨h, hrun, hfg.trans hgh⟩

theorem run_ensureLive (hlive : (f.interface i).deleted = false) :
    Act.run (ensureLive i) f = (.ok (), f) := by
  simp [ensureLive, Act.run_bind, hlive]

/-! ## The two ways -/

/-- A live interface that is dropped lets go of what it has. -/
theorem becomes_dropInterface (hlive : (f.interface i).deleted = false) :
    Becomes f (f.interface i).endpoint
      (letGo i (f.interface i).behaviour.address?
        (f.endpoint (f.interface i).endpoint)) (f.interfaces.erase i) []
      (f.dropInterface i) := by
  have hendpoint := (letsGo_dropInterface hlive).endpoint_eq
  refine ⟨?_, ?_, interfaces_dropInterface f i,
    (hendpoint _).trans (if_pos rfl),
    fun other hother => (hendpoint other).trans (if_neg hother), ?_⟩
  · rw [dropInterface_of_live hlive]
    rfl
  · rw [dropInterface_of_live hlive]
    rfl
  · rw [dropInterface_of_live hlive]
    rfl

/-- A live interface that is shut lets go of what it has. -/
theorem becomes_shut (f : Fleet) (i : InterfaceId) :
    Becomes f (f.interface i).endpoint
      (letGo i (f.interface i).behaviour.address?
        (f.endpoint (f.interface i).endpoint))
      (f.interfaces.modify i fun interface =>
        { interface with control := none, deleted := true })
      (f.anomaly i) (f.shut i) where
  controls_eq := (controls_shut f i).1
  listener_eq := (controls_shut f i).2
  interfaces_eq := interfaces_shut f i
  endpoint_eq := (endpoint_shut f i _).trans (if_pos rfl)
  others_eq :=
    fun other hother => (endpoint_shut f i other).trans (if_neg hother)
  history_eq := history_shut f i

/-- An interface that has been torn down is dropped without a call to
its endpoint. -/
theorem run_discard_of_deleted (hdeleted : (f.interface i).deleted = true) :
    Act.run (discard i) f = (.ok (), f.dropInterface i) := by
  have hfree : Act.run (freeIfReserved i) f = (.ok (), f) := by
    cases haddress : (f.interface i).behaviour.address? with
    | none => simp [freeIfReserved, Act.run_bind, haddress]
    | some address => simp [freeIfReserved, Act.run_bind, haddress, hdeleted]
  rw [dropInterface_of_deleted hdeleted]
  simp [discard, Act.run_bind, hfree, hdeleted]

/-- Taken call by call, an interface is dropped without a fault. -/
theorem run_discard (f : Fleet) (i : InterfaceId) :
    ∃ g, Act.run (discard i) f = (.ok (), g) ∧
      (f.dropInterface i).Coincides g := by
  cases hdeleted : (f.interface i).deleted with
  | true => exact ⟨f.dropInterface i, run_discard_of_deleted hdeleted, .refl _⟩
  | false =>
    obtain ⟨g, hfree, hfg⟩ := run_freeIfReserved hdeleted
    obtain ⟨h, hunregister, hfh⟩ := run_unregisterIfRegistered_of_becomes hfg
    refine ⟨{ h with interfaces := h.interfaces.erase i }, ?_, ?_⟩
    · simp [discard, Act.run_bind, hfree, hfg.interface_eq, hdeleted,
        hunregister]
    · rw [hfh.interfaces_eq]
      exact (becomes_dropInterface hdeleted).coincides (hfh.withInterfaces _)

/-- Taken call by call, a live interface is shut without a fault. -/
theorem run_dismiss (hlive : (f.interface i).deleted = false) :
    ∃ g, Act.run (dismiss i) f = (.ok (), g) ∧ (f.shut i).Coincides g := by
  obtain ⟨g, hfree, hfg⟩ := run_freeOwned f i
  obtain ⟨h, hunregister, hfh⟩ := run_unregisterIfRegistered_of_becomes hfg
  have hlive' : (g.interface i).deleted = false := by rwa [hfg.interface_eq]
  refine ⟨h.modifyInterface i
    fun interface => { interface with control := none, deleted := true },
    ?_, ?_⟩
  · simp [dismiss, Act.run_bind, run_ensureLive hlive, hfree,
      run_ensureLive hlive', hunregister]
  · rw [modifyInterface, hfh.interfaces_eq]
    exact (becomes_shut f i).coincides (hfh.withInterfaces _)

/-- The interface owns the address, and its endpoint is live and has not
reserved it any more. -/
structure Misses (f : Fleet) (i : InterfaceId) (address : Text) : Prop where
  owns : (f.interface i).behaviour.address? = some address
  live : (f.endpoint (f.interface i).endpoint).isDeleted = false
  missing : address ∉ (f.endpoint (f.interface i).endpoint).addresses

theorem Misses.anomaly_eq {address : Text} (hmisses : f.Misses i address) :
    f.anomaly i = [.logged (.unreserved address)] := by
  rw [anomaly, hmisses.owns]
  exact missing_of_not_reserved hmisses.live
    (isReserved_eq_false_iff.mpr hmisses.missing)

theorem anomaly_eq_nil (hnone : ∀ address, ¬ f.Misses i address) :
    f.anomaly i = [] := by
  rw [anomaly]
  cases haddress : (f.interface i).behaviour.address? with
  | none => rfl
  | some address =>
    cases hdeleted : (f.endpoint (f.interface i).endpoint).isDeleted with
    | true =>
      rw [missing, hdeleted]
      rfl
    | false =>
      cases hreserved : f.isReserved (f.interface i).endpoint address with
      | true => exact missing_of_reserved hreserved
      | false =>
        exact absurd ⟨haddress, hdeleted, isReserved_eq_false_iff.mp hreserved⟩
          (hnone address)

/-- How a live interface ends if it is dropped at once, and how if it is torn
down and dropped then. -/
structure EndsAlike (f : Fleet) (i : InterfaceId) : Prop where
  /-- To drop it takes no call that fails. -/
  discards : ∃ g, Act.run (discard i) f = (.ok (), g) ∧
    (f.dropInterface i).Coincides g
  /-- To tear it down takes no call that fails. -/
  dismisses : ∃ g, Act.run (dismiss i) f = (.ok (), g) ∧ (f.shut i).Coincides g
  destroys : Act.run (destroyInterface i) f = (.ok (), f.shut i)
  /-- To drop it afterwards takes no call that fails either. -/
  discards_shut : ∃ g, Act.run (discard i) (f.shut i) = (.ok (), g) ∧
    ((f.shut i).dropInterface i).Coincides g
  /-- Its endpoint has let go of it and of its address, and is the same
  both times. -/
  home_eq : (f.dropInterface i).endpoint (f.interface i).endpoint =
    letGo i (f.interface i).behaviour.address?
      (f.endpoint (f.interface i).endpoint)
  endpoint_eq : ∀ e, ((f.shut i).dropInterface i).endpoint e =
    (f.dropInterface i).endpoint e
  /-- Other endpoints, other interfaces, delegates and listener are as
  they were. -/
  others_eq : ∀ e, e ≠ (f.interface i).endpoint →
    (f.dropInterface i).endpoint e = f.endpoint e
  interfaces_eq : (f.dropInterface i).interfaces = f.interfaces.erase i ∧
    ((f.shut i).dropInterface i).interfaces = f.interfaces.erase i
  controls_eq : (f.dropInterface i).controls = f.controls ∧
    ((f.shut i).dropInterface i).controls = f.controls
  listener_eq : (f.dropInterface i).listener = f.listener ∧
    ((f.shut i).dropInterface i).listener = f.listener
  /-- To drop it writes nothing. -/
  quiet : (f.dropInterface i).history = f.history ∧
    ((f.shut i).dropInterface i).history = (f.shut i).history
  /-- To tear it down writes one entry if its address is missing, and
  nothing otherwise. -/
  anomaly : ∀ address, f.Misses i address →
    (f.shut i).history = .logged (.unreserved address) :: f.history
  no_anomaly : (∀ address, ¬ f.Misses i address) →
    (f.shut i).history = f.history

/-- An interface that is shut and dropped then lets go of what it has. -/
theorem becomes_dropInterface_shut (hlive : (f.interface i).deleted = false) :
    Becomes f (f.interface i).endpoint
      (letGo i (f.interface i).behaviour.address?
        (f.endpoint (f.interface i).endpoint))
      (f.interfaces.erase i) (f.anomaly i)
      ((f.shut i).dropInterface i) := by
  rw [dropInterface_of_deleted (letsGo_shut hlive).deleted, interfaces_shut,
    Store.erase_modify_self]
  exact (becomes_shut f i).withInterfaces _

theorem run_destroyInterface (hlive : (f.interface i).deleted = false)
    (hbehaviour : (f.interface i).behaviour = .plain ∨
      ∃ address, (f.interface i).behaviour = .address address) :
    Act.run (destroyInterface i) f = (.ok (), f.shut i) := by
  rcases hbehaviour with hplain | ⟨address, haddress⟩
  · rw [destroyInterface, Act.run_of, teardown, hplain]
    simp only [hlive, Bool.false_eq_true, if_false]
    rfl
  · exact teardown_of_address hlive haddress

/-- A live interface that does not fail and tears down no other one leaves the
same behind in either way. -/
theorem endsAlike (hlive : (f.interface i).deleted = false)
    (hbehaviour : (f.interface i).behaviour = .plain ∨
      ∃ address, (f.interface i).behaviour = .address address) :
        f.EndsAlike i := by
  have hdropped := becomes_dropInterface hlive
  have hleft := becomes_dropInterface_shut hlive
  have hshut := becomes_shut f i
  constructor
  · exact run_discard f i
  · exact run_dismiss hlive
  · exact run_destroyInterface hlive hbehaviour
  · exact run_discard (f.shut i) i
  · exact hdropped.endpoint_eq
  · exact hdropped.endpoints_eq hleft
  · exact hdropped.others_eq
  · exact ⟨hdropped.interfaces_eq, hleft.interfaces_eq⟩
  · exact ⟨hdropped.controls_eq, hleft.controls_eq⟩
  · exact ⟨hdropped.listener_eq, hleft.listener_eq⟩
  · exact ⟨hdropped.history_eq, hleft.history_eq.trans hshut.history_eq.symm⟩
  · intro address hmisses
    rw [hshut.history_eq, hmisses.anomaly_eq, List.singleton_append]
  · intro hnone
    rw [hshut.history_eq, anomaly_eq_nil hnone, List.nil_append]

/-! ## Many interfaces -/

/-- Of what a live endpoint has registered and reserved, exactly that is gone
which some interfaces have on it. -/
structure Clears (f : Fleet) (e : EndpointId) (ids : List InterfaceId)
    (g : Fleet) : Prop where
  live : (g.endpoint e).isDeleted = false
  registered_nodup : (g.endpoint e).registered.Nodup
  addresses_nodup : (g.endpoint e).addresses.Nodup
  mem_registered : ∀ j, j ∈ (g.endpoint e).registered ↔
    j ∈ (f.endpoint e).registered ∧ ¬ (j ∈ ids ∧ (f.interface j).IsOn e)
  mem_addresses : ∀ a, a ∈ (g.endpoint e).addresses ↔
    a ∈ (f.endpoint e).addresses ∧ ¬ ∃ j ∈ ids, (f.interface j).Owns e a

theorem isOn_dropInterface (f : Fleet) (i j : InterfaceId) (e : EndpointId) :
    ((f.dropInterface i).interface j).IsOn e ↔
      (f.interface j).IsOn e ∧ j ≠ i := by
  rw [interface_dropInterface]
  split
  · next hj =>
      exact iff_of_false (Interface.not_isOn_gone e) fun hon => hon.2 hj
  · next hj => exact (and_iff_left hj).symm

theorem owns_dropInterface (f : Fleet) (i j : InterfaceId) (e : EndpointId)
    (a : Text) :
    ((f.dropInterface i).interface j).Owns e a ↔
      (f.interface j).Owns e a ∧ j ≠ i := by
  rw [interface_dropInterface]
  split
  · next hj =>
    exact iff_of_false (fun howns => Interface.not_isOn_gone e howns.toIsOn)
      fun howns => howns.2 hj
  · next hj => exact (and_iff_left hj).symm

section Clears

variable (hlive : (f.endpoint e).isDeleted = false)
    (hregistered : (f.endpoint e).registered.Nodup)
  (haddresses : (f.endpoint e).addresses.Nodup)
include hlive hregistered haddresses

/-- An endpoint keeps all that it has when an interface is dropped that is
not on it. -/
theorem clears_of_not_isOn (hnot : ¬ (f.interface i).IsOn e)
    (hsame : g.endpoint e = f.endpoint e) : Clears f e [i] g := by
  constructor
  · rwa [hsame]
  · rwa [hsame]
  · rwa [hsame]
  · intro j
    rw [hsame, List.mem_singleton]
    refine (and_iff_left ?_).symm
    rintro ⟨rfl, hon⟩
    exact hnot hon
  · intro a
    rw [hsame]
    refine (and_iff_left ?_).symm
    rintro ⟨j, hj, howns⟩
    exact hnot (List.mem_singleton.mp hj ▸ howns.toIsOn)

theorem clears_dropInterface (i : InterfaceId) :
    Clears f e [i] (f.dropInterface i) := by
  cases hdeleted : (f.interface i).deleted with
  | true =>
    refine clears_of_not_isOn hlive hregistered haddresses (fun hon => ?_) ?_
    · rw [hon.live] at hdeleted
      cases hdeleted
    · rw [dropInterface_of_deleted hdeleted]
      rfl
  | false =>
    have hgo := letsGo_dropInterface hdeleted
    by_cases he : e = (f.interface i).endpoint
    · obtain ⟨hregisteredNodup, hmem⟩ :=
        hgo.registered_home he hlive hregistered
      obtain ⟨haddressesNodup, hmemAddress⟩ :=
        hgo.addresses_home he hlive haddresses
      refine ⟨by rw [hgo.isDeleted_eq, hlive], hregisteredNodup,
        haddressesNodup, ?_, ?_⟩
      · intro j
        rw [hmem, List.mem_singleton]
        refine and_congr_right fun _ => not_congr (iff_self_and.mpr ?_)
        rintro rfl
        exact ⟨hdeleted, he.symm⟩
      · intro a
        rw [hmemAddress]
        simp only [List.mem_singleton, exists_eq_left]
    · refine clears_of_not_isOn hlive hregistered haddresses
        (fun hon => he hon.home.symm) ?_
      rw [hgo.endpoint_eq, if_neg he]

/-- A live endpoint loses the registrations and addresses of all interfaces that
are dropped, one after the other, and nothing else. -/
theorem clears_dropAll (ids : List InterfaceId) :
    Clears f e ids (f.dropAll ids) := by
  induction ids generalizing f with
  | nil =>
    refine ⟨hlive, hregistered, haddresses, fun j => ?_, fun a => ?_⟩
    · exact (and_iff_left fun hmem => List.not_mem_nil hmem.1).symm
    · refine (and_iff_left ?_).symm
      rintro ⟨j, hj, -⟩
      exact List.not_mem_nil hj
  | cons i rest ih =>
    have hfirst := clears_dropInterface hlive hregistered haddresses i
    have hrest := ih hfirst.live hfirst.registered_nodup hfirst.addresses_nodup
    -- An interface that comes twice has nothing left to lose the second time.
    have hboth (j : InterfaceId) (p : Prop) :
        (j ∈ [i] ∧ p) ∨ (j ∈ rest ∧ p ∧ j ≠ i) ↔ j ∈ i :: rest ∧ p := by
      rw [List.mem_singleton, List.mem_cons]
      tauto
    refine ⟨hrest.live, hrest.registered_nodup, hrest.addresses_nodup,
      fun j => ?_, fun a => ?_⟩
    · refine (hrest.mem_registered j).trans ?_
      rw [hfirst.mem_registered, isOn_dropInterface, and_assoc, ← not_or, hboth]
    · refine (hrest.mem_addresses a).trans ?_
      simp only [hfirst.mem_addresses, owns_dropInterface, and_assoc, ← not_or,
        ← exists_or, hboth]

end Clears

end Fleet
end FleetControl

import FleetControl.Proofs.Fleet.Endpoints

/-!
# The end of endpoints and interfaces

Tearing down or dropping an interface touches that interface and its own
endpoint, and nothing else of the fleet: `Fleet.ChangesOnly`.  An endpoint all
of whose interfaces own an address of its own graph can therefore be dismantled
without a fault, and its end is accepted or refused by its delegate alone.
-/

namespace FleetControl

/-- The log message and the command with which an endpoint ends; only robots and
containers have them. -/
def Endpoint.farewell? (e : Endpoint) : Option (Text × Command) :=
  match e.role with
  | .bare | .environment => none
  | .robot =>
    some (text "[RobotProxy] Destroy robot " ++ e.uid.quoted,
      .destroyRobot e.uid)
  | .container _ =>
    some (text "[ContainerProxy] Stop container "
      ++ e.commId.quoted ++ text ".", .destroyContainer e.uid)

namespace Fleet

/-- Between two states of a fleet, without a command, only one endpoint and
the given interfaces have changed, and all interfaces are still those of
their endpoints. -/
structure ChangesOnly (f g : Fleet) (e : EndpointId) (ids : List InterfaceId) :
    Prop where
  continues : Continues f g []
  erase_eq : g.endpoints.erase e = f.endpoints.erase e
  restrict_eq : g.interfaces.restrict (fun i => i ∉ ids) =
    f.interfaces.restrict fun i => i ∉ ids
  home_eq : ∀ i, (g.interface i).endpoint = (f.interface i).endpoint

namespace ChangesOnly

variable {f g h : Fleet} {e : EndpointId} {ids : List InterfaceId}

theorem refl (f : Fleet) (e : EndpointId) (ids : List InterfaceId) :
    ChangesOnly f f e ids :=
  ⟨Continues.refl f, rfl, rfl, fun _ => rfl⟩

theorem mono (hfg : ChangesOnly f g e ids) {more : List InterfaceId}
    (hmore : ids ⊆ more) :
    ChangesOnly f g e more := by
  refine ⟨hfg.continues, hfg.erase_eq, ?_, hfg.home_eq⟩
  apply Store.restrict_eq_of_imp hfg.restrict_eq
  intro i hi
  simp only [decide_eq_true_eq] at hi ⊢
  exact fun hmem => hi (hmore hmem)

theorem trans (hfg : ChangesOnly f g e ids) (hgh : ChangesOnly g h e ids) :
    ChangesOnly f h e ids where
  continues := hfg.continues.trans_left hgh.continues
  erase_eq := hgh.erase_eq.trans hfg.erase_eq
  restrict_eq := hgh.restrict_eq.trans hfg.restrict_eq
  home_eq := fun i => (hgh.home_eq i).trans (hfg.home_eq i)

theorem endpoint_eq (hfg : ChangesOnly f g e ids) {other : EndpointId}
    (hother : other ≠ e) :
    g.endpoint other = f.endpoint other := by
  have hget : g.endpoints.get? other = f.endpoints.get? other := by
    rw [← Store.get?_erase_of_ne g.endpoints hother, hfg.erase_eq,
      Store.get?_erase_of_ne _ hother]
  rw [endpoint, hget, endpoint]

theorem interface_eq (hfg : ChangesOnly f g e ids) {i : InterfaceId}
    (hi : i ∉ ids) :
    g.interface i = f.interface i := by
  have hget := congrArg (·.get? i) hfg.restrict_eq
  simp only [Store.get?_restrict, hi, not_false_eq_true, decide_true, if_true]
    at hget
  rw [interface, hget, interface]

end ChangesOnly

theorem changesOnly_modifyEndpoint (f : Fleet) (e : EndpointId)
    (change : Endpoint → Endpoint) (ids : List InterfaceId) :
    ChangesOnly f (f.modifyEndpoint e change) e ids where
  continues := continues_of_eq rfl rfl rfl
  erase_eq := Store.erase_modify_self _ _ _
  restrict_eq := rfl
  home_eq := fun _ => rfl

/-- A change of an interface that leaves it with its endpoint changes only
that interface. -/
theorem changesOnly_modifyInterface (f : Fleet) (e : EndpointId)
    (i : InterfaceId) (change : Interface → Interface)
    (hhome : ∀ j, (change j).endpoint = j.endpoint) :
    ChangesOnly f (f.modifyInterface i change) e [i] where
  continues := continues_of_eq rfl rfl rfl
  erase_eq := rfl
  restrict_eq := by
    apply Store.restrict_modify
    simp
  home_eq := by
    intro j
    by_cases hj : j = i
    · subst hj
      simp only [interface, modifyInterface, Store.get?_modify_self]
      cases f.interfaces.get? j with
      | none => rfl
      | some interface => exact hhome interface
    · rw [interface_modifyInterface_of_ne f hj]

theorem changesOnly_log (f : Fleet) (level : Log.Level) (message : Text)
    (e : EndpointId)
    (ids : List InterfaceId) : ChangesOnly f (f.log level message) e ids :=
  ⟨continues_log f level message, rfl, rfl, fun _ => rfl⟩

/-! ## Tearing an interface down -/

theorem changesOnly_close (f : Fleet) (i : InterfaceId) :
    ChangesOnly f (f.close i) (f.interface i).endpoint [i] :=
  (changesOnly_modifyEndpoint f (f.interface i).endpoint
    (letGo i none) [i]).trans (changesOnly_modifyInterface _ _ i _ fun _ => rfl)

theorem changesOnly_releaseOwned (f : Fleet) (i : InterfaceId) :
    ChangesOnly f (f.releaseOwned i) (f.interface i).endpoint [i] := by
  simp only [releaseOwned]
  split
  · exact ChangesOnly.refl f _ _
  · split
    · exact ChangesOnly.refl f _ _
    · unfold release
      split
      · exact changesOnly_modifyEndpoint f _ _ _
      · exact changesOnly_log f _ _ _ _

/-- A live interface that owns an address is torn down without a fault. -/
theorem teardown_of_address {f : Fleet} {i : InterfaceId} {address : Text}
    (hlive : (f.interface i).deleted = false)
    (haddress : (f.interface i).behaviour = .address address) :
    f.teardown i = (.ok (), (f.releaseOwned i).close i) := by
  rw [teardown, haddress]
  simp [hlive]

/-- Tearing down an interface that owns an address touches it and its
endpoint alone. -/
theorem changesOnly_teardown (f : Fleet) (i : InterfaceId) :
    ChangesOnly f ((f.releaseOwned i).close i)
      (f.interface i).endpoint [i] := by
  have hrelease := changesOnly_releaseOwned f i
  have hclose := changesOnly_close (f.releaseOwned i) i
  rw [hrelease.home_eq i] at hclose
  exact hrelease.trans hclose

/-- The interfaces are live, own an address each, and belong to the endpoint. -/
def Tame (f : Fleet) (e : EndpointId) (ids : List InterfaceId) : Prop :=
  ∀ i ∈ ids, (f.interface i).deleted = false ∧ (f.interface i).endpoint = e ∧
    ∃ address, (f.interface i).behaviour = .address address

/-- Tame interfaces are torn down one after the other without a fault. -/
theorem run_sweep_destroyInterface
    (report : InterfaceId → Fault → Act Fleet Unit)
    {f : Fleet} {e : EndpointId} {ids : List InterfaceId} (hnodup : ids.Nodup)
    (htame : f.Tame e ids) :
    ∃ g, Act.run (Act.sweep destroyInterface report ids) f = (.ok [], g) ∧
      ChangesOnly f g e ids := by
  induction ids generalizing f with
  | nil => exact ⟨f, rfl, ChangesOnly.refl f e []⟩
  | cons i rest ih =>
    obtain ⟨hnot, hrest⟩ := List.nodup_cons.mp hnodup
    obtain ⟨hlive, hhome, address, haddress⟩ := htame i List.mem_cons_self
    have hfirst : ChangesOnly f ((f.releaseOwned i).close i) e [i] :=
      hhome ▸ changesOnly_teardown f i
    have htame' : ((f.releaseOwned i).close i).Tame e rest := by
      intro j hj
      have hne : j ∉ [i] := fun hmem => hnot (List.mem_singleton.mp hmem ▸ hj)
      rw [hfirst.interface_eq hne]
      exact htame j (List.mem_cons_of_mem _ hj)
    obtain ⟨g, hrun, hlater⟩ := ih hrest htame'
    refine ⟨g, ?_, ?_⟩
    · have hdestroy : Act.run (destroyInterface i) f =
          (.ok (), (f.releaseOwned i).close i) :=
        teardown_of_address hlive haddress
      simp [Act.sweep, Act.run_bind, Act.run_attempt, hdestroy, hrun]
    · have hsub : [i] ⊆ i :: rest :=
        List.cons_subset_cons i (List.nil_subset rest)
      exact (hfirst.mono hsub).trans
        (hlater.mono (List.subset_cons_self i rest))

/-! ## The end of an endpoint -/

/-- An endpoint with tame interfaces is dismantled without a fault. -/
theorem run_dismantle {f : Fleet} {e : EndpointId}
    (hnodup : (f.endpoint e).registered.Nodup)
    (htame : f.Tame e (f.endpoint e).registered) :
    ∃ g, Act.run (dismantle e) f = (.ok (), g) ∧
      ChangesOnly f g e (f.endpoint e).registered := by
  obtain ⟨g, hrun, hchanges⟩ :=
    run_sweep_destroyInterface (reportInterface (f.endpoint e).uid) hnodup htame
  refine ⟨g.retireEndpoint e, ?_, ?_⟩
  · simp [dismantle, Act.run_bind, hrun, Act.raiseStructural]
  · exact hchanges.trans (changesOnly_modifyEndpoint g e _ _)

/-- A live endpoint takes its farewell, if it has one, and is dismantled unless
its delegate refuses that. -/
theorem run_destroyEndpoint_of_control {f : Fleet} {e : EndpointId}
    {c : ControlId} (h : (f.endpoint e).control = some c) :
    Act.run (destroyEndpoint e) f =
      match (f.endpoint e).farewell? with
      | none => Act.run (dismantle e) f
      | some (message, command) =>
        match f.objection? c command with
        | none => Act.run (dismantle e) (f.granted message c command)
        | some fault => (.error fault, f.asked message c) := by
  have hlog : ∀ message command,
      (f.log .info message).objection? c command = f.objection? c command :=
    fun _ _ => rfl
  rw [destroyEndpoint, Act.run_bind, run_active h]
  unfold Endpoint.farewell?
  cases hrole : (f.endpoint e).role with
  | bare => simp only [hrole]
  | environment => simp only [hrole]
  | robot =>
    simp only [hrole, Act.run_bind, run_note, run_issue, hlog]
    cases f.objection? c (.destroyRobot (f.endpoint e).uid) with
    | none => rfl
    | some fault => rfl
  | container connected =>
    simp only [hrole, Act.run_bind, run_note, run_issue, hlog]
    cases f.objection? c (.destroyContainer (f.endpoint e).uid) with
    | none => rfl
    | some fault => rfl

/-- The endpoint has a delegate and a farewell, and its interfaces are tame. -/
structure Ready (f : Fleet) (e : EndpointId) (c : ControlId) (message : Text)
    (command : Command) : Prop where
  control : (f.endpoint e).control = some c
  farewell : (f.endpoint e).farewell? = some (message, command)
  nodup : (f.endpoint e).registered.Nodup
  tame : f.Tame e (f.endpoint e).registered

/-- The delegate of a robot or container with tame interfaces decides about its
end: an end that it refuses leaves everything as it is, and one that it accepts
comes without a fault. -/
theorem run_destroyEndpoint {f : Fleet} {e : EndpointId} {c : ControlId}
    {message : Text}
    {command : Command} (hready : f.Ready e c message command) :
    (∃ fault, f.objection? c command = some fault ∧
      Act.run (destroyEndpoint e) f = (.error fault, f.asked message c)) ∨
    (∃ g, f.objection? c command = none ∧
      Act.run (destroyEndpoint e) f = (.ok (), g) ∧
      ChangesOnly (f.granted message c command) g e
        (f.endpoint e).registered) := by
  have hasks := run_destroyEndpoint_of_control hready.control
  rw [hready.farewell] at hasks
  dsimp only at hasks
  cases hobjection : f.objection? c command with
  | some fault =>
    rw [hobjection] at hasks
    exact Or.inl ⟨fault, rfl, hasks⟩
  | none =>
    rw [hobjection] at hasks
    obtain ⟨g, hrun, hchanges⟩ :=
      run_dismantle (f := f.granted message c command) hready.nodup hready.tame
    exact Or.inr ⟨g, rfl, hasks.trans hrun, hchanges⟩

/-- The end of one endpoint leaves the others ready for theirs. -/
theorem Ready.of_changesOnly {f g : Fleet} {e other : EndpointId}
    {c c' : ControlId} {message message' : Text} {command command' : Command}
    (hready : f.Ready e c message command)
    (hchanges : ChangesOnly (f.granted message c command) g e
      (f.endpoint e).registered)
    (hne : other ≠ e) (hother : f.Ready other c' message' command') :
    g.Ready other c' message' command' := by
  have hendpoint : g.endpoint other = f.endpoint other :=
    hchanges.endpoint_eq hne
  constructor
  · exact hendpoint ▸ hother.control
  · exact hendpoint ▸ hother.farewell
  · exact hendpoint ▸ hother.nodup
  · rw [hendpoint]
    intro i hi
    have hnot : i ∉ (f.endpoint e).registered := by
      intro hmem
      have hhome := (hready.tame i hmem).2.1
      have hhome' := (hother.tame i hi).2.1
      exact hne (hhome'.symm.trans hhome)
    have hinterface : g.interface i = f.interface i :=
      hchanges.interface_eq hnot
    rw [hinterface]
    exact hother.tame i hi

/-! ## Dropping interfaces -/

theorem dropInterface_of_deleted {f : Fleet} {i : InterfaceId}
    (hdeleted : (f.interface i).deleted = true) :
    f.dropInterface i = { f with interfaces := f.interfaces.erase i } := by
  simp only [dropInterface, hdeleted, if_true]

theorem dropInterface_of_live {f : Fleet} {i : InterfaceId}
    (hlive : (f.interface i).deleted = false) :
    f.dropInterface i =
      { f.modifyEndpoint (f.interface i).endpoint
          (letGo i (f.interface i).behaviour.address?) with
        interfaces := f.interfaces.erase i } := by
  simp only [dropInterface, hlive, Bool.false_eq_true, if_false]
  rfl

theorem interfaces_dropInterface (f : Fleet) (i : InterfaceId) :
    (f.dropInterface i).interfaces = f.interfaces.erase i := by
  simp only [dropInterface]
  split <;> rfl

theorem interface_dropInterface (f : Fleet) (i j : InterfaceId) :
    (f.dropInterface i).interface j = if j = i then .gone
      else f.interface j := by
  rw [interface, interfaces_dropInterface]
  by_cases hj : j = i
  · rw [if_pos hj, hj, Store.get?_erase_self]
    rfl
  · rw [if_neg hj, Store.get?_erase_of_ne _ hj, interface]

/-- The fleet without some interfaces, none of which is torn down first. -/
def dropAll (fleet : Fleet) (ids : List InterfaceId) : Fleet :=
  ids.foldl dropInterface fleet

/-- Dropping interfaces of one endpoint writes no event, touches no other
endpoint and leaves no trace of the interfaces. -/
theorem dropAll_eq {f : Fleet} {e : EndpointId} {ids : List InterfaceId}
    (hhome : ∀ i ∈ ids, (f.interface i).deleted = true ∨
      (f.interface i).endpoint = e) :
    (f.dropAll ids).controls = f.controls ∧
      (f.dropAll ids).listener = f.listener ∧
      (f.dropAll ids).history = f.history ∧
      (f.dropAll ids).endpoints.erase e = f.endpoints.erase e ∧
      (f.dropAll ids).interfaces = f.interfaces.restrict fun i => i ∉ ids := by
  induction ids generalizing f with
  | nil => simp [dropAll]
  | cons i rest ih =>
    have hhome' : ∀ j ∈ rest, ((f.dropInterface i).interface j).deleted = true ∨
        ((f.dropInterface i).interface j).endpoint = e := by
      intro j hj
      rw [interface_dropInterface]
      split
      · exact Or.inl rfl
      · exact hhome j (List.mem_cons_of_mem _ hj)
    have hendpoints : (f.dropInterface i).endpoints.erase e =
        f.endpoints.erase e := by
      simp only [dropInterface]
      split
      · rfl
      · next hdeleted =>
        rcases hhome i List.mem_cons_self with hdead | hhome
        · exact absurd hdead hdeleted
        · rw [hhome]
          exact Store.erase_modify_self _ _ _
    have hrest : (f.dropInterface i).controls = f.controls ∧
        (f.dropInterface i).listener = f.listener ∧
        (f.dropInterface i).history = f.history := by
      simp only [dropInterface]
      split <;> exact ⟨rfl, rfl, rfl⟩
    obtain ⟨hcontrols, hlistener, hhistory, herase, hrestrict⟩ := ih hhome'
    refine ⟨hcontrols.trans hrest.1, hlistener.trans hrest.2.1,
      hhistory.trans hrest.2.2, herase.trans hendpoints, ?_⟩
    have hstep : f.dropAll (i :: rest) = (f.dropInterface i).dropAll rest := rfl
    rw [hstep, hrestrict, interfaces_dropInterface, Store.restrict_erase]
    simp [not_or]

end Fleet
end FleetControl

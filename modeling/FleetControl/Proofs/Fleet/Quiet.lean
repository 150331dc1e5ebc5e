import FleetControl.Proofs.Upholds
import FleetControl.Proofs.Fleet.Cascade

/-!
# What stays within a fleet

Interfaces, registrations and addresses are a fleet's own affair.  Operations on
them hand no command to a delegate and no update to the listener, and every
endpoint stays what it is: `Fleet.Quiet` says this of two states, and the
operations below uphold it, whether they succeed or fail.
-/

namespace FleetControl

/-- The update that an event is about: a container, and whether it is
connected now. -/
def Event.update? : Event → Option (Text × Bool)
  | .notified tag connected => some (tag, connected)
  | _ => none

/-- What an endpoint is, whatever has been registered and reserved with it. -/
def Endpoint.core (e : Endpoint) : Endpoint :=
  { e with registered := [], addresses := [] }

/-- An endpoint that is the same thing has the same role, name, delegate
and owner. -/
theorem Endpoint.eq_of_core_eq {a b : Endpoint} (h : b.core = a.core) :
    b.role = a.role ∧ b.uid = a.uid ∧ b.control = a.control ∧
      b.owned = a.owned :=
  ⟨(congrArg Endpoint.role h :), (congrArg Endpoint.uid h :),
    (congrArg Endpoint.control h :), (congrArg Endpoint.owned h :)⟩

theorem Endpoint.isDeleted_of_core_eq {a b : Endpoint} (h : b.core = a.core) :
    b.isDeleted = a.isDeleted :=
  (congrArg Endpoint.isDeleted h :)

theorem Endpoint.Loosened.core_eq {a b : Endpoint} (h : a.Loosened b) :
    b.core = a.core := by
  simp only [Endpoint.core, h.role_eq, h.uid_eq, h.commId_eq, h.control_eq,
    h.owned_eq]

namespace Fleet

variable {f g h : Fleet}

/-- The updates that have been heard, oldest first. -/
def updates (fleet : Fleet) : List (Text × Bool) :=
  fleet.history.reverse.filterMap Event.update?

@[simp]
theorem updates_log (f : Fleet) (level : Log.Level) (message : Text) :
    (f.log level message).updates = f.updates := by
  simp [updates, log, record, Event.update?]

@[simp]
theorem updates_record_commanded (f : Fleet) (c : ControlId)
    (command : Command) :
    (f.record (.commanded c command)).updates = f.updates := by
  simp [updates, record, Event.update?]

@[simp]
theorem updates_record_notified (f : Fleet) (tag : Text) (connected : Bool) :
    (f.record (.notified tag connected)).updates =
      f.updates ++ [(tag, connected)] := by
  simp [updates, record, Event.update?]

theorem updates_of_history_eq (h : g.history = f.history) :
    g.updates = f.updates := by
  rw [updates, h, updates]

@[simp]
theorem updates_asked (f : Fleet) (message : Text) (c : ControlId) :
    (f.asked message c).updates = f.updates :=
  updates_log f .info message

@[simp]
theorem updates_granted (f : Fleet) (message : Text) (c : ControlId)
    (command : Command) :
    (f.granted message c command).updates = f.updates :=
  (updates_record_commanded _ c command).trans (updates_asked f message c)

/-! ## Quiet changes -/

/-- Between two states of a fleet delegates have accepted no command, the
listener has heard no update, and every endpoint has stayed what it is. -/
structure Quiet (f g : Fleet) : Prop where
  continues : Continues f g []
  updates_eq : g.updates = f.updates
  core_eq : ∀ e, (g.endpoint e).core = (f.endpoint e).core

namespace Quiet

theorem refl (f : Fleet) : Quiet f f :=
  ⟨.refl f, rfl, fun _ => rfl⟩

theorem trans (hfg : Quiet f g) (hgh : Quiet g h) : Quiet f h where
  continues := hfg.continues.trans_left hgh.continues
  updates_eq := hgh.updates_eq.trans hfg.updates_eq
  core_eq := fun e => (hgh.core_eq e).trans (hfg.core_eq e)

theorem of_loosens (hloosens : Loosens f g) (hupdates : g.updates = f.updates) :
    Quiet f g :=
  ⟨hloosens.continues, hupdates, fun e => (hloosens.endpoint e).core_eq⟩

theorem log (f : Fleet) (level : Log.Level) (message : Text) :
    Quiet f (f.log level message) :=
  ⟨continues_log f level message, updates_log f level message, fun _ => rfl⟩

theorem withInterfaces (f : Fleet) (interfaces : Store Interface) :
    Quiet f { f with interfaces := interfaces } :=
  of_loosens (loosens_withInterfaces f interfaces) rfl

theorem modifyEndpoint (f : Fleet) (e : EndpointId)
    {change : Endpoint → Endpoint}
    (hchange : ∀ endpoint, (change endpoint).core = endpoint.core) :
    Quiet f (f.modifyEndpoint e change) := by
  refine ⟨continues_of_eq rfl rfl rfl, rfl, ?_⟩
  intro other
  rcases endpoint_modifyEndpoint f e other change with hsame | hchanged
  · rw [hsame]
  · rw [hchanged, hchange]

end Quiet

theorem quiet_release (f : Fleet) (e : EndpointId) (address : Text) :
    Quiet f (f.release e address) := by
  refine .of_loosens (loosens_release f e address) ?_
  unfold release
  split
  · rfl
  · exact updates_log f _ _

theorem quiet_releaseOwned (f : Fleet) (i : InterfaceId) :
    Quiet f (f.releaseOwned i) := by
  simp only [releaseOwned]
  split
  · exact .refl f
  · split
    · exact .refl f
    · exact quiet_release f _ _

theorem quiet_close (f : Fleet) (i : InterfaceId) : Quiet f (f.close i) :=
  .of_loosens (loosens_close f i) rfl

theorem quiet_dropInterface (f : Fleet) (i : InterfaceId) :
    Quiet f (f.dropInterface i) := by
  refine .of_loosens (loosens_dropInterface f i) (updates_of_history_eq ?_)
  simp only [dropInterface]
  split <;> rfl

theorem Descends.quiet {i : InterfaceId} {closed : List InterfaceId}
    {answer : Except Fault Unit}
    (h : Descends f i closed answer g) : Quiet f g := by
  induction h with
  | stuck _ => exact .refl _
  | again _ _ => exact .refl _
  | @last f i _ _ => exact (quiet_releaseOwned f i).trans (quiet_close _ i)
  | @onward f i next closed answer g _ _ _ ih =>
    exact (quiet_close f i).trans ih

theorem quiet_destroyInterface (f : Fleet) (i : InterfaceId) :
    Quiet f (Act.run (destroyInterface i) f).2 := by
  obtain ⟨closed, hdescends⟩ := descends_teardown f i
  exact hdescends.quiet

/-- The end of all interfaces of an endpoint is quiet, whatever each of
them raises. -/
theorem Cascade.quiet {e : EndpointId} {calls : List (Act.Call InterfaceId)}
    (h : f.Cascade e calls g) : Quiet f g := by
  refine h.swept.keeps (P := Quiet f) ?_ ?_ (.refl f)
  · intro i g hg
    exact hg.trans (quiet_destroyInterface g i)
  · intro i fault g hg
    exact hg.trans (.log g _ _)

/-! ## Quiet operations -/

theorem quiet_of_keeps {α : Type} {act : Act Fleet α}
    (h : Act.Keeps (Quiet f) act) :
    Quiet f (Act.run act f).2 :=
  (h f (.refl f)).1

theorem keeps_modify {change : Fleet → Fleet}
    (hchange : ∀ g, Quiet g (change g)) :
    Act.Keeps (Quiet f) (modify change) :=
  Act.upholds_modify fun g hg => hg.trans (hchange g)

theorem keeps_active (P : Fleet → Prop) (e : EndpointId) :
    Act.Keeps P (active e) := by
  apply Act.keeps_of_run
  intro f hf
  cases hdeleted : (f.endpoint e).isDeleted with
  | true =>
    rw [run_active_of_isDeleted hdeleted]
    exact hf
  | false =>
    obtain ⟨c, hlive⟩ := exists_control hdeleted
    rw [run_active hlive]
    exact hf

theorem keeps_reserve (f : Fleet) (e : EndpointId) (address : Text) :
    Act.Keeps (Quiet f) (reserve e address) := by
  refine .bind (keeps_active _ e) fun _ _ => .bind Act.upholds_get fun _ _ => ?_
  refine .unless (fun _ => trivial) fun _ => ?_
  exact keeps_modify fun g => .modifyEndpoint g e fun _ => rfl

theorem keeps_free (f : Fleet) (e : EndpointId) (address : Text) :
    Act.Keeps (Quiet f) (free e address) :=
  .bind (keeps_active _ e) fun _ _ => keeps_modify fun g =>
    quiet_release g e address

theorem keeps_registerControl (f : Fleet) (i : InterfaceId)
    (control : Option ControlId) :
    Act.Keeps (Quiet f) (registerControl i control) :=
  .bind Act.upholds_get fun _ _ => .unless (fun _ => trivial) fun _ =>
    keeps_modify fun g => .withInterfaces g _

theorem keeps_register (f : Fleet) (e : EndpointId) (i : InterfaceId) :
    Act.Keeps (Quiet f) (register e i) := by
  refine .bind (keeps_active _ e) fun _ _ => .bind Act.upholds_get fun _ _ => ?_
  refine .unless (fun _ => trivial) fun _ =>
    .bind (keeps_registerControl f i _) fun _ _ => ?_
  exact keeps_modify fun g => .modifyEndpoint g e fun _ => rfl

theorem keeps_unregister (f : Fleet) (e : EndpointId) (i : InterfaceId) :
    Act.Keeps (Quiet f) (unregister e i) := by
  refine .bind (keeps_active _ e) fun _ _ => .bind Act.upholds_get fun _ _ => ?_
  refine .unless (fun _ => trivial) fun _ => ?_
  exact keeps_modify fun g => .modifyEndpoint g e fun _ => rfl

theorem keeps_newInterface (f : Fleet) (home : EndpointId) (tag : Text)
    (behaviour : Behaviour) :
    Act.Keeps (Quiet f) (newInterface home tag behaviour) := by
  have hadd : Act.Keeps (Quiet f) (do
      let fleet ← get
      set { fleet with interfaces :=
        fleet.interfaces.insert ⟨tag, home, none, false, behaviour⟩ }
      return fleet.interfaces.next) := by
    refine .bind Act.upholds_get fun g hg => ?_
    refine .bind (Act.upholds_set (hg.trans (.withInterfaces g _)))
      fun _ _ => ?_
    exact Act.upholds_pure trivial
  unfold newInterface
  cases behaviour.address? with
  | none => exact hadd
  | some address => exact .bind (keeps_reserve f home address) fun _ _ => hadd

end Fleet
end FleetControl

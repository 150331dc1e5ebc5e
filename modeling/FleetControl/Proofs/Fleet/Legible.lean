import FleetControl.Fleet.Environment
import FleetControl.Proofs.Fleet.Teardown
import FleetControl.Proofs.Parameter
import FleetControl.Proofs.Upholds

/-!
# Fleets whose texts are well formed

Messages are put together from words of the program and from texts that callers,
delegates and listeners have given.  As long as these are well formed, so is
everything that is logged and the message of every fault that is raised, and
delegates only see commands that can be printed: `Fleet.Legible` is kept by all
that can be asked of a fleet.
-/

namespace FleetControl

open Utf8

/-! ## Faults -/

namespace Fault

/-- What others have given for the message of a fault. -/
def texts : Fault → List Text
  | endpointDeleted t | interfaceDeleted t | sessionDestroyed t
  | addressInUse t => [t]
  | illegalNamespace t | illegalName t | badParameter t _
  | alreadyConnected t => [t]
  | robotExists t | noRobot t | containerExists t | noContainer t => [t]
  | interfaceExists t | noInterface t => [t]
  | fieldNoText t | optionalFieldNoText t | fieldNoBool t | fieldMissing t =>
    [t]
  | noConfiguration t | configurationNoObject t | noJournal t | noRequests t =>
    [t]
  | noRandomness reason => [reason]
  | foreign _ message cause => [message, cause]
  | noControl | lacks _ | alreadyRegistered | notRegistered | robotLimit _ => []
  | containerLimit _ | keyLength _ | json => []

/-- The fault is not that something could not be printed, and what others have
given for its message is well formed. -/
structure Legible (fault : Fault) : Prop where
  ne_json : fault ≠ .json
  texts : ∀ t ∈ fault.texts, isWellFormed t = true

theorem legible_of_one {fault : Fault} {t : Text} (hfault : fault.texts = [t])
    (h : isWellFormed t = true) : fault.Legible := by
  constructor
  · rintro rfl
    cases hfault
  · intro found hfound
    rw [hfault, List.mem_singleton] at hfound
    exact hfound ▸ h

theorem legible_of_none {fault : Fault} (hne : fault ≠ .json)
    (hfault : fault.texts = []) :
    fault.Legible := by
  refine ⟨hne, ?_⟩
  intro found hfound
  rw [hfault] at hfound
  cases hfound

theorem isWellFormed_naming (before : String) {name after : Text}
    (hname : isWellFormed name = true) (hafter : isWellFormed after = true) :
    isWellFormed (text before ++ name.quoted ++ after) = true := by
  simp [hname, hafter]

/-- The wording of a fault is well formed if what others have given
for it is. -/
theorem Legible.wording {fault : Fault} (h : fault.Legible) :
    isWellFormed fault.wording = true := by
  cases fault with
  | noControl | alreadyRegistered | notRegistered | json =>
    exact isWellFormed_text _
  | lacks capability =>
    cases capability <;> simp [Fault.wording, Capability.name]
  | endpointDeleted t | interfaceDeleted t | sessionDestroyed t | addressInUse t
  | illegalNamespace t | illegalName t | alreadyConnected t | robotExists t
  | noRobot t
  | containerExists t | noContainer t | interfaceExists t | noInterface t
  | fieldNoText t
  | optionalFieldNoText t | fieldNoBool t | fieldMissing t =>
    exact isWellFormed_naming _ (h.texts t List.mem_cons_self)
      (isWellFormed_text _)
  | badParameter t misfit =>
    have hmisfit : isWellFormed misfit.message = true := by
      cases misfit <;> exact isWellFormed_text _
    exact isWellFormed_naming _ (h.texts t List.mem_cons_self)
      (by simp [hmisfit])
  | robotLimit limit | containerLimit limit | keyLength limit =>
    simp [Fault.wording]
  | noRandomness t | noConfiguration t | configurationNoObject t | noJournal t
  | noRequests t =>
    exact isWellFormed_append_of (isWellFormed_text _)
      (h.texts t List.mem_cons_self)
  | foreign kind message cause =>
    have hmessage : isWellFormed message = true :=
      h.texts message (by simp [Fault.texts])
    have hcause : isWellFormed cause = true :=
      h.texts cause (by simp [Fault.texts])
    simp only [Fault.wording]
    split
    · exact hmessage
    · simp [hmessage, hcause]

/-- So is the message, which ends where the wording has a zero byte. -/
theorem Legible.message {fault : Fault} (h : fault.Legible) :
    isWellFormed fault.message = true :=
  isWellFormed_cut h.wording

/-- A name with a zero byte ends the message that quotes it. -/
example : (noRobot [0x61, 0x00, 0x62]).message = text "Robot \"a" := by
  decide

end Fault

/-! ## Fleets -/

/-- The faults that the delegate raises are legible, as long as the command can
be printed. -/
def Control.Legible (control : Control) : Prop :=
  ∀ n command fault, command.body.isPrintable = true →
    control.objection n command = some fault → fault.Legible

/-- The names of the endpoint are well formed. -/
structure Endpoint.Legible (endpoint : Endpoint) : Prop where
  uid : isWellFormed endpoint.uid = true
  commId : isWellFormed endpoint.commId = true

/-- The texts in a behaviour are well formed. -/
def Behaviour.Legible : Behaviour → Prop
  | .address a => isWellFormed a = true
  | .stuck fault => fault.Legible
  | .plain | .chain _ => True

/-- The texts of the interface are well formed. -/
structure Interface.Legible (interface : Interface) : Prop where
  tag : isWellFormed interface.tag = true
  behaviour : interface.behaviour.Legible

/-- The user in whose name updates are logged has a well-formed name, and the
faults of those who hear of them are legible. -/
structure Listener.Legible (listener : Listener) : Prop where
  logsFor : ∀ userId, listener.logsFor = some userId →
    isWellFormed userId = true
  objection : ∀ n tag connected fault,
    listener.objection n tag connected = some fault → fault.Legible

namespace Fleet

/-- All texts in the fleet are well formed, all that it has logged is, and the
faults of delegates and listeners are legible. -/
structure Legible (f : Fleet) : Prop where
  controls : f.controls.All Control.Legible
  endpoints : f.endpoints.All Endpoint.Legible
  interfaces : f.interfaces.All Interface.Legible
  listener : f.listener.Legible
  entries : ∀ entry ∈ f.entries, isWellFormed entry.message = true

variable {f : Fleet}

namespace Legible

theorem endpoint (h : f.Legible) (e : EndpointId) : (f.endpoint e).Legible :=
  h.endpoints.getD e ⟨rfl, rfl⟩

theorem interface (h : f.Legible) (i : InterfaceId) : (f.interface i).Legible :=
  h.interfaces.getD i ⟨rfl, trivial⟩

theorem log (h : f.Legible) (level : Log.Level) {message : Text}
    (hmessage : isWellFormed message = true) :
    (f.log level message).Legible := by
  refine ⟨h.controls, h.endpoints, h.interfaces, h.listener, ?_⟩
  intro entry hentry
  rw [entries_log] at hentry
  rcases List.mem_append.mp hentry with hentry | hentry
  · exact h.entries entry hentry
  · rw [List.mem_singleton.mp hentry]
    exact hmessage

theorem modifyEndpoint (h : f.Legible) (e : EndpointId)
    {change : Endpoint → Endpoint}
    (hchange : ∀ endpoint : Endpoint, endpoint.Legible →
      (change endpoint).Legible) :
    (f.modifyEndpoint e change).Legible :=
  ⟨h.controls, h.endpoints.modify e hchange, h.interfaces, h.listener,
    h.entries⟩

theorem modifyInterface (h : f.Legible) (i : InterfaceId)
    {change : Interface → Interface}
    (hchange : ∀ interface : Interface, interface.Legible →
      (change interface).Legible) :
    (f.modifyInterface i change).Legible :=
  ⟨h.controls, h.endpoints, h.interfaces.modify i hchange, h.listener,
    h.entries⟩

theorem letGo {endpoint : Endpoint} (h : endpoint.Legible) (i : InterfaceId)
    (address? : Option Text) : (letGo i address? endpoint).Legible := by
  unfold Fleet.letGo
  split <;> exact ⟨h.uid, h.commId⟩

theorem close (h : f.Legible) (i : InterfaceId) : (f.close i).Legible := by
  have hendpoint :=
    h.modifyEndpoint (f.interface i).endpoint fun endpoint hlegible =>
      letGo hlegible i none
  exact hendpoint.modifyInterface i fun interface hlegible =>
    ⟨hlegible.tag, hlegible.behaviour⟩

theorem release (h : f.Legible) (e : EndpointId) {address : Text}
    (haddress : isWellFormed address = true) :
    (f.release e address).Legible := by
  unfold Fleet.release
  split
  · exact h.modifyEndpoint e fun endpoint hlegible =>
      ⟨hlegible.uid, hlegible.commId⟩
  · exact h.log _ (by simp [haddress])

theorem releaseOwned (h : f.Legible) (i : InterfaceId) :
    (f.releaseOwned i).Legible := by
  have hbehaviour := (h.interface i).behaviour
  simp only [Fleet.releaseOwned]
  cases hof : (f.interface i).behaviour with
  | address address =>
    rw [hof] at hbehaviour
    simp only [Behaviour.address?]
    split
    · exact h
    · exact h.release _ hbehaviour
  | _ => exact h

theorem dropInterface (h : f.Legible) (i : InterfaceId) :
    (f.dropInterface i).Legible := by
  have herased : ∀ g : Fleet, g.Legible →
      Legible { g with interfaces := g.interfaces.erase i } :=
    fun g hg =>
      ⟨hg.controls, hg.endpoints, hg.interfaces.erase i, hg.listener,
        hg.entries⟩
  simp only [Fleet.dropInterface]
  split
  · exact herased _ h
  · exact herased _ (h.modifyEndpoint _ fun endpoint hlegible =>
      letGo hlegible i _)

theorem dropEndpoint (h : f.Legible) (e : EndpointId) :
    (f.dropEndpoint e).Legible :=
  ⟨h.controls, h.endpoints.erase e, h.interfaces, h.listener, h.entries⟩

theorem retireEndpoint (h : f.Legible) (e : EndpointId) :
    (f.retireEndpoint e).Legible :=
  h.modifyEndpoint e fun _ hlegible => ⟨hlegible.uid, hlegible.commId⟩

end Legible

/-- A descent keeps a fleet legible and raises only legible faults. -/
theorem Descends.legible {g : Fleet} {i : InterfaceId}
    {closed : List InterfaceId} {answer : Except Fault Unit}
    (hdescends : Descends f i closed answer g) (h : f.Legible) :
    g.Legible ∧ ∀ fault, answer = .error fault → fault.Legible := by
  induction hdescends with
  | @stuck f i fault hbehaviour =>
    refine ⟨h, ?_⟩
    intro raised hraised
    cases hraised
    have hlegible := (h.interface i).behaviour
    rwa [hbehaviour] at hlegible
  | @again f i _ _ =>
    refine ⟨h, ?_⟩
    intro raised hraised
    cases hraised
    exact Fault.legible_of_one rfl (h.interface i).tag
  | @last f i _ _ => exact ⟨(h.releaseOwned i).close i, nofun⟩
  | @onward f i next closed answer g _ _ _ ih => exact ih (h.close i)

/-! ## Delegates and listeners -/

theorem legible_note (level : Log.Level) {message : Text}
    (h : isWellFormed message = true) :
    Act.Upholds Legible Fault.Legible (note level message) fun _ => True :=
  Act.upholds_modify fun _ hf => hf.log level h

theorem legible_issue (c : ControlId) {command : Command}
    (hcommand : command.body.isPrintable = true) :
    Act.Upholds Legible Fault.Legible (issue c command) fun _ => True := by
  refine .bind Act.upholds_get fun f hf => ?_
  split
  · exact Act.upholds_throw (Fault.legible_of_none nofun rfl)
  · next control hget =>
    have hcontrol := hf.controls.of_get? hget
    refine .bind (Act.upholds_set ?_) fun _ _ => ?_
    · refine ⟨hf.controls.modify c fun control hlegible => hlegible,
        hf.endpoints, hf.interfaces, hf.listener, hf.entries⟩
    · split
      · next fault hobjects =>
          exact Act.upholds_throw (hcontrol _ _ _ hcommand hobjects)
      · refine Act.upholds_modify fun g hg => ?_
        refine ⟨hg.controls, hg.endpoints, hg.interfaces, hg.listener, ?_⟩
        simpa [Fleet.entries, record, Event.entry?] using hg.entries

theorem legible_notify {tag : Text} (htag : isWellFormed tag = true)
    (connected : Bool) :
    Act.Upholds Legible Fault.Legible (notify tag connected) fun _ => True := by
  refine .bind Act.upholds_get fun f hf => ?_
  extract_lets listener hear
  have hheard : ∀ heard,
      Act.Upholds Legible Fault.Legible (hear heard) fun _ => True := by
    intro heard
    refine .ite (fun _ =>
      .bind (Act.upholds_modify fun g hg => ?_) fun _ _ => ?_)
      fun _ => Act.upholds_pure trivial
    · refine ⟨hg.controls, hg.endpoints, hg.interfaces,
        ⟨hg.listener.logsFor, ?_⟩, ?_⟩
      · exact hg.listener.objection
      · simpa [Fleet.entries, record, Event.entry?] using hg.entries
    · split
      · next fault hobjects =>
          exact Act.upholds_throw (hf.listener.objection _ _ _ _ hobjects)
      · exact Act.upholds_pure trivial
  split
  · next userId hlogs =>
    refine .bind (legible_note _ ?_) fun heard _ => hheard heard
    have huser := hf.listener.logsFor userId hlogs
    split <;> simp [huser, htag]
  · exact hheard ()

theorem legible_requireControl (needs : List Capability)
    (control : Option ControlId) :
    Act.Upholds Legible Fault.Legible (requireControl needs control)
      fun _ => True := by
  refine .bind Act.upholds_get fun f _ => ?_
  split
  · exact Act.upholds_throw (Fault.legible_of_none nofun rfl)
  · split
    · exact Act.upholds_throw (Fault.legible_of_none nofun rfl)
    · exact Act.upholds_pure trivial

/-! ## Endpoints -/

/-- The endpoint that is found live has well-formed names. -/
theorem legible_active (e : EndpointId) :
    Act.Upholds Legible Fault.Legible (active e) fun found =>
      found.1.Legible := by
  refine .bind Act.upholds_get fun f hf => ?_
  dsimp only
  split
  · exact Act.upholds_throw (Fault.legible_of_one rfl (hf.endpoint e).uid)
  · exact Act.upholds_pure (hf.endpoint e)

theorem legible_addEndpoint (role : Role) (owned : Bool) {uid commId : Text}
    (c : ControlId)
    (huid : isWellFormed uid = true) (hcommId : isWellFormed commId = true) :
    Act.Upholds Legible Fault.Legible (addEndpoint role owned uid commId c)
      fun _ => True := by
  refine .bind Act.upholds_get fun f hf => .bind (Act.upholds_set ?_) fun _ _ =>
    Act.upholds_pure trivial
  exact ⟨hf.controls, hf.endpoints.insert ⟨huid, hcommId⟩, hf.interfaces,
    hf.listener, hf.entries⟩

theorem legible_newRobot (owned : Bool) {uid commId key : Text}
    (control : Option ControlId)
    (huid : isWellFormed uid = true) (hcommId : isWellFormed commId = true)
    (hkey : isWellFormed key = true) :
    Act.Upholds Legible Fault.Legible (newRobot owned uid commId key control)
      fun _ => True := by
  refine .bind (legible_requireControl _ control) fun c _ => ?_
  refine .bind (legible_note _ (by simp [huid, hcommId])) fun _ _ => ?_
  refine .bind (legible_issue c ?_) fun _ _ =>
    legible_addEndpoint _ _ c huid hcommId
  exact Json.isPrintable_ofEntries (by simp [huid, hkey])

theorem legible_newContainer (owned : Bool) {uid commId : Text}
    (control : Option ControlId)
    (huid : isWellFormed uid = true) (hcommId : isWellFormed commId = true) :
    Act.Upholds Legible Fault.Legible (newContainer owned uid commId control)
      fun _ => True := by
  refine .bind (legible_requireControl _ control) fun c _ => ?_
  refine .bind (legible_note _ (by simp [hcommId])) fun _ _ => ?_
  refine .bind (legible_issue c ?_) fun _ _ =>
    legible_addEndpoint _ _ c huid hcommId
  exact Json.isPrintable_ofEntries (by simp [huid, hcommId])

theorem legible_reportInterface {uid : Text} (huid : isWellFormed uid = true)
    (i : InterfaceId) {fault : Fault} (hfault : fault.Legible) :
    Act.Upholds Legible Fault.Legible (reportInterface uid i fault)
      fun _ => True := by
  refine .bind Act.upholds_get fun f hf => legible_note _ ?_
  simp [(hf.interface i).tag, huid, hfault.message]

theorem legible_destroyInterface (i : InterfaceId) :
    Act.Upholds Legible Fault.Legible (destroyInterface i) fun _ => True := by
  intro f hf
  obtain ⟨closed, hdescends⟩ := descends_teardown f i
  obtain ⟨hlegible, hfault⟩ := hdescends.legible hf
  refine ⟨hlegible, ?_⟩
  rw [destroyInterface, Act.run_of]
  split
  · trivial
  · next fault hraised => exact hfault fault hraised

theorem legible_dismantle (e : EndpointId) :
    Act.Upholds Legible Fault.Legible (dismantle e) fun _ => True := by
  refine .bind Act.upholds_get fun f hf => ?_
  have hsweep : Act.Upholds Legible Fault.Legible
      (Act.sweep destroyInterface (reportInterface (f.endpoint e).uid)
        (f.endpoint e).registered)
      fun faults => ∀ fault ∈ faults, fault.Legible :=
    .sweep (fun i _ => legible_destroyInterface i)
      fun i _ fault hfault =>
      legible_reportInterface (hf.endpoint e).uid i hfault
  refine hsweep.bind fun faults hfaults => ?_
  refine .bind (Act.upholds_modify fun g hg => hg.retireEndpoint e)
    fun _ _ => ?_
  exact Act.upholds_raiseStructural hfaults

theorem legible_destroyEndpoint (e : EndpointId) :
    Act.Upholds Legible Fault.Legible (destroyEndpoint e) fun _ => True := by
  refine .bind (legible_active e) fun found hfound => ?_
  dsimp only
  have hrest := legible_dismantle e
  split
  · exact hrest
  · exact hrest
  · refine .bind (legible_note _ (by simp [hfound.uid])) fun _ _ => ?_
    refine .bind (legible_issue _ ?_) fun _ _ => hrest
    exact Json.isPrintable_ofEntries (by simp [hfound.uid])
  · refine .bind (legible_note _ (by simp [hfound.commId])) fun _ _ => ?_
    refine .bind (legible_issue _ ?_) fun _ _ => hrest
    exact Json.isPrintable_ofEntries (by simp [hfound.uid])

/-! ## Interfaces -/

theorem legible_reserve (e : EndpointId) {address : Text}
    (h : isWellFormed address = true) :
    Act.Upholds Legible Fault.Legible (reserve e address) fun _ => True := by
  refine .bind (legible_active e) fun _ _ => .bind Act.upholds_get fun f _ => ?_
  refine .unless (fun _ => Fault.legible_of_one rfl h) fun _ =>
    Act.upholds_modify fun g hg => ?_
  exact hg.modifyEndpoint e fun _ hlegible => ⟨hlegible.uid, hlegible.commId⟩

theorem legible_free (e : EndpointId) {address : Text}
    (h : isWellFormed address = true) :
    Act.Upholds Legible Fault.Legible (free e address) fun _ => True :=
  .bind (legible_active e) fun _ _ => Act.upholds_modify fun _ hg =>
    hg.release e h

theorem legible_newInterface (e : EndpointId) {tag : Text}
    {behaviour : Behaviour}
    (htag : isWellFormed tag = true) (hbehaviour : behaviour.Legible) :
    Act.Upholds Legible Fault.Legible (newInterface e tag behaviour)
      fun _ => True := by
  have hrest : Act.Upholds Legible Fault.Legible (do
      let fleet ← get
      set { fleet with interfaces :=
        fleet.interfaces.insert ⟨tag, e, none, false, behaviour⟩ }
      return fleet.interfaces.next) fun _ => True := by
    refine .bind Act.upholds_get fun f hf =>
      .bind (Act.upholds_set ?_) fun _ _ =>
      Act.upholds_pure trivial
    exact ⟨hf.controls, hf.endpoints, hf.interfaces.insert ⟨htag, hbehaviour⟩,
      hf.listener, hf.entries⟩
  unfold newInterface
  cases behaviour with
  | address address =>
    exact .bind (legible_reserve e hbehaviour) fun _ _ => hrest
  | _ => exact hrest

theorem legible_registerControl (i : InterfaceId) (control : Option ControlId) :
    Act.Upholds Legible Fault.Legible (registerControl i control)
      fun _ => True := by
  refine .bind Act.upholds_get fun f hf => ?_
  refine .unless (fun _ => Fault.legible_of_one rfl (hf.interface i).tag)
    fun _ => ?_
  exact Act.upholds_modify fun g hg => hg.modifyInterface i fun _ hlegible =>
    ⟨hlegible.tag, hlegible.behaviour⟩

theorem legible_register (e : EndpointId) (i : InterfaceId) :
    Act.Upholds Legible Fault.Legible (register e i) fun _ => True := by
  refine .bind (legible_active e) fun _ _ => .bind Act.upholds_get fun f _ => ?_
  refine .unless (fun _ => Fault.legible_of_none nofun rfl) fun _ => ?_
  refine .bind (legible_registerControl i _) fun _ _ =>
    Act.upholds_modify fun g hg => ?_
  exact hg.modifyEndpoint e fun _ hlegible => ⟨hlegible.uid, hlegible.commId⟩

/-! ## Computation graphs -/

/-- An order is logged with the name of the environment, and then handed to
the delegate. -/
theorem legible_order {before : Text} {endpoint : Endpoint} (c : ControlId)
    {command : Command}
    (hbefore : isWellFormed before = true) (hendpoint : endpoint.Legible)
    (hcommand : command.body.isPrintable = true) :
    Act.Upholds Legible Fault.Legible (do
      note .info (inEnvironment before endpoint)
      issue c command) fun _ => True := by
  refine .bind (legible_note _ ?_) fun _ _ => legible_issue c hcommand
  simp [inEnvironment, hbefore, hendpoint.commId]

theorem legible_addNode (e : EndpointId) {node : Node}
    (htag : isWellFormed node.tag = true)
    (hpackage : isWellFormed node.package = true)
    (hexecutable : isWellFormed node.executable = true)
    (hargs : isWellFormed node.args = true)
    (hname : isWellFormed node.name = true)
    (hnamespace : isWellFormed node.namespaceName = true) :
    Act.Upholds Legible Fault.Legible (addNode e node) fun _ => True := by
  refine .bind (legible_active e) fun found hfound => ?_
  refine .unless (fun _ => Fault.legible_of_one rfl hnamespace) fun _ => ?_
  have hprogram :
      isWellFormed (node.package ++ (text "/" ++ node.executable)) = true := by
    simp [hpackage, hexecutable]
  refine legible_order _ (by simp [htag, hprogram]) hfound
    (Json.isPrintable_ofEntries ?_)
  simp [htag, hpackage, hexecutable, hargs, hname, hnamespace]

theorem legible_removeNode (e : EndpointId) {tag : Text}
    (htag : isWellFormed tag = true) :
    Act.Upholds Legible Fault.Legible (removeNode e tag) fun _ => True := by
  refine .bind (legible_active e) fun found hfound =>
    legible_order _ (by simp [htag]) hfound ?_
  exact Json.isPrintable_ofEntries (by simp [htag])

theorem legible_addParameter (e : EndpointId) {name : Text} (value : Json)
    (type : Text) (hname : isWellFormed name = true) :
    Act.Upholds Legible Fault.Legible (addParameter e name value type)
      fun _ => True := by
  refine .bind (legible_active e) fun found hfound => ?_
  refine .unless (fun _ => Fault.legible_of_one rfl hname) fun _ => ?_
  split
  · exact Act.upholds_throw (Fault.legible_of_one rfl hname)
  · next parameter htyped =>
    exact legible_order _ (by simp [hname]) hfound
      (Parameter.isPrintable_of_typed hname htyped)

theorem legible_removeParameter (e : EndpointId) {name : Text}
    (hname : isWellFormed name = true) :
    Act.Upholds Legible Fault.Legible (removeParameter e name)
      fun _ => True := by
  refine .bind (legible_active e) fun found hfound =>
    legible_order _ (by simp [hname]) hfound ?_
  exact Json.isPrintable_ofEntries (by simp [hname])

theorem legible_setConnected (e : EndpointId) (connected : Bool) :
    Act.Upholds Legible Fault.Legible (setConnected e connected)
      fun _ => True := by
  refine .bind (legible_active e) fun found hfound => ?_
  refine .unless (fun _ => Fault.legible_of_one rfl hfound.uid) fun _ => ?_
  refine .bind (Act.upholds_modify fun g hg =>
    hg.modifyEndpoint e fun _ hlegible =>
    ⟨hlegible.uid, hlegible.commId⟩) fun _ _ => ?_
  exact .ite (fun _ => legible_notify hfound.uid connected) fun _ =>
    Act.upholds_pure trivial

end Fleet
end FleetControl

import FleetControl.Fleet.Environment
import FleetControl.Proofs.Fleet.Continues

/-!
# Operations of live endpoints

What the operations of an endpoint answer while it is live, and the fleet that
each of them leaves.  An operation that meets the delegate logs first and calls
afterwards; `Fleet.asked` is the fleet at that point, whether or not the
delegate accepts the command.
-/

namespace FleetControl
namespace Fleet

/-! ## Things of a fleet -/

theorem exists_of_isDeleted_eq_false {f : Fleet} {e : EndpointId}
    (h : (f.endpoint e).isDeleted = false) :
    ∃ endpoint, f.endpoints.get? e = some endpoint := by
  cases hget : f.endpoints.get? e with
  | some endpoint => exact ⟨endpoint, rfl⟩
  | none => simp [endpoint, hget, Endpoint.gone, Endpoint.isDeleted] at h

theorem exists_of_deleted_eq_false {f : Fleet} {i : InterfaceId}
    (h : (f.interface i).deleted = false) :
    ∃ interface, f.interfaces.get? i = some interface := by
  cases hget : f.interfaces.get? i with
  | some interface => exact ⟨interface, rfl⟩
  | none => simp [interface, hget, Interface.gone] at h

theorem exists_control {e : Endpoint} (h : e.isDeleted = false) :
    ∃ c, e.control = some c := by
  cases hcontrol : e.control with
  | some c => exact ⟨c, rfl⟩
  | none => simp [Endpoint.isDeleted, hcontrol] at h

theorem endpoint_modifyEndpoint_self {f : Fleet} {e : EndpointId}
    (h : (f.endpoint e).isDeleted = false) (change : Endpoint → Endpoint) :
    (f.modifyEndpoint e change).endpoint e = change (f.endpoint e) := by
  obtain ⟨endpoint, hget⟩ := exists_of_isDeleted_eq_false h
  simp [Fleet.endpoint, modifyEndpoint, Store.get?_modify_self, hget]

/-- A change of an endpoint shows in that endpoint or nowhere. -/
theorem endpoint_modifyEndpoint (f : Fleet) (e other : EndpointId)
    (change : Endpoint → Endpoint) :
    (f.modifyEndpoint e change).endpoint other = f.endpoint other ∨
      (f.modifyEndpoint e change).endpoint other =
        change (f.endpoint other) := by
  simp only [endpoint, modifyEndpoint]
  by_cases hother : other = e
  · rw [hother, Store.get?_modify_self]
    cases f.endpoints.get? e with
    | none => exact Or.inl rfl
    | some endpoint => exact Or.inr rfl
  · rw [Store.get?_modify_of_ne _ hother]
    exact Or.inl rfl

theorem interface_modifyInterface_self {f : Fleet} {i : InterfaceId}
    (h : (f.interface i).deleted = false) (change : Interface → Interface) :
    (f.modifyInterface i change).interface i = change (f.interface i) := by
  obtain ⟨interface, hget⟩ := exists_of_deleted_eq_false h
  simp [Fleet.interface, modifyInterface, Store.get?_modify_self, hget]

theorem interface_modifyInterface_of_ne (f : Fleet) {i other : InterfaceId}
    (h : other ≠ i) (change : Interface → Interface) :
    (f.modifyInterface i change).interface other = f.interface other := by
  simp [Fleet.interface, modifyInterface, Store.get?_modify_of_ne _ h]

@[simp]
theorem interface_modifyEndpoint (f : Fleet) (e : EndpointId)
    (change : Endpoint → Endpoint) (i : InterfaceId) :
    (f.modifyEndpoint e change).interface i = f.interface i :=
  rfl

@[simp]
theorem endpoint_modifyInterface (f : Fleet) (i : InterfaceId)
    (change : Interface → Interface)
    (e : EndpointId) : (f.modifyInterface i change).endpoint e = f.endpoint e :=
  rfl

/-! ## Asking the delegate -/

/-- The fleet after a log entry and a call to a delegate. -/
def asked (fleet : Fleet) (message : Text) (c : ControlId) : Fleet :=
  (fleet.log .info message).called c

/-- The fleet after a delegate has been asked, and has accepted the command. -/
def granted (fleet : Fleet) (message : Text) (c : ControlId)
    (command : Command) : Fleet :=
  (fleet.asked message c).record (.commanded c command)

theorem continues_asked (f : Fleet) (message : Text) (c : ControlId) :
    Continues f (f.asked message c) [] :=
  (continues_log f _ _).trans_left (continues_called _ c)

theorem sameThings_asked (f : Fleet) (message : Text) (c : ControlId) :
    SameThings f (f.asked message c) :=
  ⟨rfl, rfl⟩

theorem continues_granted {f : Fleet} {c : ControlId} {command : Command}
    (message : Text) (h : f.objection? c command = none) :
    Continues f (f.granted message c command) [(c, command)] :=
  (continues_log f _ _).trans_left (continues_commanded h)

/-- A command is logged before the delegate is asked. -/
theorem run_note_issue (message : Text) (c : ControlId) (command : Command)
    (f : Fleet) :
    Act.run (do note .info message; issue c command) f =
      match f.objection? c command with
      | none => (.ok (), f.granted message c command)
      | some fault => (.error fault, f.asked message c) := by
  simp only [Act.run_bind, run_note, run_issue]
  rfl

/-! ## The beginning of an endpoint -/

/-- Making an endpoint that announces itself: it is added when the delegate is
fit and accepts the command, and an obliging delegate does both. -/
theorem run_announce (needs : List Capability) (control : Option ControlId)
    (message : Text) (command : Command) (role : Role) (owned : Bool)
    (uid commId : Text) (f : Fleet) :
    let outcome := Act.run (do
      let c ← requireControl needs control
      note .info message
      issue c command
      addEndpoint role owned uid commId c) f
    (∃ c g, control = some c ∧ (f.nature c).isSome ∧
      outcome = (.ok f.endpoints.next, g) ∧
      Continues f g [(c, command)] ∧ g.interfaces = f.interfaces ∧
      g.endpoints = f.endpoints.insert
        ⟨role, uid, commId, some c, owned, [], []⟩) ∨
    (∃ fault g, ¬ f.Obliging control needs ∧ outcome = (.error fault, g) ∧
      Continues f g [] ∧ SameThings f g) := by
  intro outcome
  rcases run_requireControl needs control f with
      ⟨c, hcontrol, hnature, hrun⟩ | ⟨fault, hnot, hrun⟩
  · have hissue : outcome =
        match f.objection? c command with
        | none =>
          Act.run (addEndpoint role owned uid commId c)
            (f.granted message c command)
        | some fault => (.error fault, f.asked message c) := by
      have hlog : (f.log .info message).objection? c command =
          f.objection? c command := rfl
      simp only [outcome, Act.run_bind, hrun, run_note, run_issue, hlog]
      cases f.objection? c command with
      | none => rfl
      | some fault => rfl
    cases hobjection : f.objection? c command with
    | none =>
      let granted := f.granted message c command
      let g : Fleet := { granted with
        endpoints :=
          f.endpoints.insert ⟨role, uid, commId, some c, owned, [], []⟩ }
      have hrun : outcome = (.ok f.endpoints.next, g) := by
        rw [hissue, hobjection]
        rfl
      have hcontinues : Continues f g [(c, command)] :=
        (continues_granted message hobjection).trans_right
          (continues_of_eq rfl rfl rfl)
      exact Or.inl ⟨c, g, hcontrol, hnature, hrun, hcontinues, rfl, rfl⟩
    | some fault =>
      refine Or.inr
        ⟨fault, f.asked message c, ?_, ?_, continues_asked f message c,
          sameThings_asked f message c⟩
      · rintro ⟨c', capabilities, hc, hobliging, -⟩
        cases hcontrol.symm.trans hc
        simp [objection?_eq_none hobliging command] at hobjection
      · rw [hissue, hobjection]
  · refine Or.inr ⟨fault, f, hnot, ?_, Continues.refl f, SameThings.refl f⟩
    simp only [outcome, Act.run_bind, hrun]

/-- A new robot is live and without interfaces, and its delegate has
accepted it. -/
theorem run_newRobot (owned : Bool) (uid commId key : Text)
    (control : Option ControlId) (f : Fleet) :
    (∃ c g, control = some c ∧ (f.nature c).isSome ∧
      Act.run (newRobot owned uid commId key control) f =
        (.ok f.endpoints.next, g) ∧
      Continues f g [(c, .createRobot uid key)] ∧ g.interfaces = f.interfaces ∧
      g.endpoints = f.endpoints.insert
        ⟨.robot, uid, commId, some c, owned, [], []⟩) ∨
    (∃ fault g, ¬ f.Obliging control [.robot] ∧
      Act.run (newRobot owned uid commId key control) f = (.error fault, g) ∧
      Continues f g [] ∧ SameThings f g) :=
  run_announce [.robot] control _ (.createRobot uid key) .robot
    owned uid commId f

theorem run_newContainer (owned : Bool) (uid commId : Text)
    (control : Option ControlId) (f : Fleet) :
    (∃ c g, control = some c ∧ (f.nature c).isSome ∧
      Act.run (newContainer owned uid commId control) f =
        (.ok f.endpoints.next, g) ∧
      Continues f g [(c, .createContainer uid commId)] ∧
      g.interfaces = f.interfaces ∧
      g.endpoints =
        f.endpoints.insert ⟨.container false, uid, commId, some c, owned, [],
          []⟩) ∨
    (∃ fault g, ¬ f.Obliging control [.node, .parameter, .container] ∧
      Act.run (newContainer owned uid commId control) f = (.error fault, g) ∧
      Continues f g [] ∧ SameThings f g) :=
  run_announce [.node, .parameter, .container] control _
    (.createContainer uid commId) (.container false) owned uid commId f

/-! ## Live endpoints -/

theorem run_active {f : Fleet} {e : EndpointId} {c : ControlId}
    (h : (f.endpoint e).control = some c) :
    Act.run (active e) f = (.ok (f.endpoint e, c), f) := by
  simp [active, Act.run_bind, h]

/-- A node is started when its namespace is legal and the delegate
accepts it. -/
theorem run_addNode {f : Fleet} {e : EndpointId} {c : ControlId}
    (h : (f.endpoint e).control = some c) (node : Node) :
    ∃ message, Act.run (addNode e node) f =
      if GraphName.isLegal node.namespaceName then
        match f.objection? c (.addNode node) with
        | none => (.ok (), f.granted message c (.addNode node))
        | some fault => (.error fault, f.asked message c)
      else (.error (.illegalNamespace node.namespaceName), f) := by
  refine ⟨inEnvironment (text "[EnvironmentProxy] Start node "
    ++ (node.package ++ text "/" ++ node.executable).quoted
    ++ text " (tag: " ++ node.tag.quoted ++ text ") in") (f.endpoint e), ?_⟩
  rw [addNode, Act.run_bind, run_active h]
  cases GraphName.isLegal node.namespaceName with
  | false => rfl
  | true =>
    simp only [Bool.not_true, Bool.false_eq_true, if_false, if_true]
    exact run_note_issue _ c (.addNode node) f

theorem run_removeNode {f : Fleet} {e : EndpointId} {c : ControlId}
    (h : (f.endpoint e).control = some c) (tag : Text) :
    ∃ message, Act.run (removeNode e tag) f =
      match f.objection? c (.removeNode tag) with
      | none => (.ok (), f.granted message c (.removeNode tag))
      | some fault => (.error fault, f.asked message c) := by
  refine ⟨inEnvironment
    (text "[EnvironmentProxy] Remove node (tag: " ++ tag.quoted
      ++ text ") from") (f.endpoint e), ?_⟩
  rw [removeNode, Act.run_bind, run_active h]
  exact run_note_issue _ c (.removeNode tag) f

theorem run_removeParameter {f : Fleet} {e : EndpointId} {c : ControlId}
    (h : (f.endpoint e).control = some c) (name : Text) :
    ∃ message, Act.run (removeParameter e name) f =
      match f.objection? c (.removeParameter name) with
      | none => (.ok (), f.granted message c (.removeParameter name))
      | some fault => (.error fault, f.asked message c) := by
  refine ⟨inEnvironment
    (text "[EnvironmentProxy] Remove parameter " ++ name.quoted ++ text " from")
    (f.endpoint e), ?_⟩
  rw [removeParameter, Act.run_bind, run_active h]
  exact run_note_issue _ c (.removeParameter name) f

/-- A parameter is set when its name is legal, its value has the declared type
and the delegate accepts it. -/
theorem run_addParameter {f : Fleet} {e : EndpointId} {c : ControlId}
    (h : (f.endpoint e).control = some c) (name : Text) (value : Json)
    (type : Text) :
    ∃ message, Act.run (addParameter e name value type) f =
      if GraphName.isLegal name then
        match Parameter.typed name value type with
        | .error misfit => (.error (.badParameter name misfit), f)
        | .ok parameter =>
          match f.objection? c (.addParameter parameter) with
          | none => (.ok (), f.granted message c (.addParameter parameter))
          | some fault => (.error fault, f.asked message c)
      else (.error (.illegalName name), f) := by
  refine ⟨inEnvironment (text "[EnvironmentProxy] Add parameter " ++ name.quoted
    ++ text " to") (f.endpoint e), ?_⟩
  rw [addParameter, Act.run_bind, run_active h]
  cases GraphName.isLegal name with
  | false => rfl
  | true =>
    simp only [Bool.not_true, Bool.false_eq_true, if_false, if_true]
    cases Parameter.typed name value type with
    | error misfit => rfl
    | ok parameter => exact run_note_issue _ c (.addParameter parameter) f

/-- The fleet with the connected flag of a container set. -/
def withFlag (fleet : Fleet) (e : EndpointId) (connected : Bool) : Fleet :=
  fleet.modifyEndpoint e fun endpoint =>
    { endpoint with role := .container connected }

/-- The flag of an owned container is set before its owner hears of it; only a
container that is connected already is left as it is. -/
theorem run_setConnected {f : Fleet} {e : EndpointId} {c : ControlId}
    (h : (f.endpoint e).control = some c) (howned : (f.endpoint e).owned = true)
    (connected : Bool) :
    Act.run (setConnected e connected) f =
      if connected = true ∧ (f.endpoint e).connected? = some true then
        (.error (.alreadyConnected (f.endpoint e).uid), f)
      else
        (Fault.outcome (f.listener.objects (f.endpoint e).uid connected),
          ((f.withFlag e connected).announced (f.endpoint e).uid
            connected).heard (f.endpoint e).uid connected) := by
  rw [setConnected, Act.run_bind, run_active h]
  by_cases hagain : connected = true ∧ (f.endpoint e).connected? = some true
  · simp [hagain.1, hagain.2]
  · have hnot :
        (connected && decide ((f.endpoint e).connected? = some true)) =
          false := by
      simpa using hagain
    have hlistener : (f.withFlag e connected).listener = f.listener := rfl
    rw [if_neg hagain, ← hlistener, ← run_notify]
    simp only [hnot, Bool.false_eq_true, if_false, howned, if_true]
    rfl

/-- Setting the flag of a container changes its flag at most, whoever
hears of it. -/
theorem setConnected_cases {f : Fleet} {e : EndpointId} {c : ControlId}
    (h : (f.endpoint e).control = some c) (connected : Bool) :
    (Act.run (setConnected e connected) f).2 = f ∨
      SameThings (f.withFlag e connected)
        (Act.run (setConnected e connected) f).2 := by
  by_cases hagain : connected = true ∧ (f.endpoint e).connected? = some true
  · left
    simp [setConnected, Act.run_bind, run_active h, hagain.1, hagain.2]
  · right
    cases howned : (f.endpoint e).owned with
    | true =>
      rw [run_setConnected h howned, if_neg hagain]
      exact sameThings_update (f.withFlag e connected) _ connected
    | false =>
      have hnot :
          (connected && decide ((f.endpoint e).connected? = some true)) =
            false := by
        simpa using hagain
      have hrun : Act.run (setConnected e connected) f =
          (.ok (), f.withFlag e connected) := by
        rw [setConnected, Act.run_bind, run_active h]
        simp only [hnot, Bool.false_eq_true, if_false, howned]
        rfl
      rw [hrun]
      exact .refl _

end Fleet
end FleetControl

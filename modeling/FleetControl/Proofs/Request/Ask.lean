import FleetControl.Request

/-!
# What requests ask for

`Json.ask?` reads a request once and for all: which operation it asks for, and
the fields that the operation is given.  A request that cannot be read so is
refused, whatever the session; all others are carried out by `Ask.perform`,
which meets no JSON any more.

A request about the computation graph of a container is the container with
an `Order`, and the order alone decides which command it comes to, if it
comes to one.
-/

namespace FleetControl

/-- What has been read after a first part was read after that part. -/
theorem exists_of_bind_eq_ok {ε α β : Type} {first : Except ε α}
    {next : α → Except ε β} {b : β}
    (h : first >>= next = .ok b) : ∃ a, first = .ok a ∧ next a = .ok b := by
  cases first with
  | error fault => cases h
  | ok a => exact ⟨a, rfl, h⟩

theorem exists_of_map_eq_ok {ε α β : Type} {first : Except ε α} {f : α → β}
    {b : β} (h : first.map f = .ok b) : ∃ a, first = .ok a ∧ f a = b := by
  cases first with
  | error fault => cases h
  | ok a => exact ⟨a, rfl, Except.ok.inj h⟩

/-- The operation of a command and the thing that it is about. -/
def Command.entry (command : Command) : Text × Text :=
  (command.name, command.subject)

/-- What may be asked of a computation graph. -/
inductive Order where
  | addNode (node : Node)
  | removeNode (tag : Text)
  | addParameter (name : Text) (value : Json) (type : Text)
  | removeParameter (name : Text)

namespace Order

/-- The command that an order comes to, or what is not valid about the order. -/
def command : Order → Except Fault Command
  | .addNode node =>
    if GraphName.isLegal node.namespaceName then .ok (.addNode node)
    else .error (.illegalNamespace node.namespaceName)
  | .removeNode tag => .ok (.removeNode tag)
  | .addParameter name value type =>
    if GraphName.isLegal name then
      match Parameter.typed name value type with
      | .error misfit => .error (.badParameter name misfit)
      | .ok parameter => .ok (.addParameter parameter)
    else .error (.illegalName name)
  | .removeParameter name => .ok (.removeParameter name)

/-- The operation and the subject of the command that an order comes to. -/
def entry : Order → Text × Text
  | .addNode node => (text "add_node", node.tag)
  | .removeNode tag => (text "remove_node", tag)
  | .addParameter name _ _ => (text "add_parameter", name)
  | .removeParameter name => (text "remove_parameter", name)

/-- The operation of an order. -/
def operation : Order → Operation
  | .addNode _ => .addNode
  | .removeNode _ => .removeNode
  | .addParameter _ _ _ => .addParameter
  | .removeParameter _ => .removeParameter

/-- Carries an order out on an endpoint. -/
def perform (e : EndpointId) : Order → Act Fleet Unit
  | .addNode node => Fleet.addNode e node
  | .removeNode tag => Fleet.removeNode e tag
  | .addParameter name value type => Fleet.addParameter e name value type
  | .removeParameter name => Fleet.removeParameter e name

/-- Carries an order out on an endpoint of the session; the answer holds
nothing more. -/
def carryOut (e : EndpointId) (order : Order) :
    Act Session (List (Text × Json)) := do
  Session.onFleet (order.perform e)
  return []

end Order

/-- What may be asked of a session. -/
inductive Ask where
  | addRobot (id commId : Text)
  | removeRobot (id : Text)
  | addContainer (tag commId : Text)
  | removeContainer (tag : Text)
  | setConnected (tag : Text) (connected : Bool)
  | graph (container : Text) (order : Order)
  | addInterface (container tag address : Text)
  | removeInterface (tag : Text)

namespace Ask

/-- The operation that is asked for. -/
def operation : Ask → Operation
  | .addRobot _ _ => .addRobot
  | .removeRobot _ => .removeRobot
  | .addContainer _ _ => .addContainer
  | .removeContainer _ => .removeContainer
  | .setConnected _ _ => .setContainerConnected
  | .graph _ order => order.operation
  | .addInterface _ _ _ => .addInterface
  | .removeInterface _ => .removeInterface

/-- The operations and subjects of the commands that what is asked for comes to,
once it is carried out. -/
def entries : Ask → List (Text × Text)
  | .addRobot id _ => [(text "create_robot", id)]
  | .removeRobot id => [(text "destroy_robot", id)]
  | .addContainer tag _ => [(text "create_container", tag)]
  | .removeContainer tag => [(text "destroy_container", tag)]
  | .graph _ order => [order.entry]
  | .setConnected _ _ | .addInterface _ _ _ | .removeInterface _ => []

/-- Nothing is done about what is asked for before those outside have agreed to
it. -/
def needsConsent : Ask → Bool
  | .addRobot _ _ | .addContainer _ _ | .graph _ _ => true
  | _ => false

/-- Carries out what is asked for, and gives what the answer holds beyond
its status. -/
def perform : Ask → Act Session (List (Text × Json))
  | .addRobot id commId => do
    let key ← Session.addRobot id commId
    return [(text "key", .string key)]
  | .removeRobot id => do
    Session.removeRobot id
    return []
  | .addContainer tag commId => do
    Session.addContainer tag commId
    return []
  | .removeContainer tag => do
    Session.removeContainer tag
    return []
  | .setConnected tag connected => do
    let e ← Session.container tag
    Session.onFleet (Fleet.setConnected e connected)
    return []
  | .graph container order => do
    let e ← Session.container container
    order.carryOut e
  | .addInterface container tag address => do
    Session.addInterface container tag address
    return []
  | .removeInterface tag => do
    Session.removeInterface tag
    return []

end Ask

namespace Request

/-- The order to start the node that a request describes. -/
def startOrder (request : Dict Json) : Except Fault Order := do
  let tag ← field request "tag"
  let package ← field request "pkg"
  let executable ← field request "exe"
  let args ← optionalField request "args"
  let name ← optionalField request "name"
  let namespaceName ← optionalField request "namespace"
  return .addNode ⟨tag, package, executable, args, name, namespaceName⟩

/-- The order to set the parameter that a request describes. -/
def valueOrder (request : Dict Json) (given : Json) : Except Fault Order := do
  let name ← field request "name"
  let type ← field request "param_type"
  return .addParameter name given type

/-- The order to remove what a request names. -/
def removalOrder (request : Dict Json) (key : String) (order : Text → Order) :
    Except Fault Order := do
  let name ← field request key
  return order name

/-- What a request for an operation asks for. -/
def ask (request : Dict Json) : Operation → Except Fault Ask
  | .addRobot => do
    return .addRobot (← field request "robot_id") (← field request "comm_id")
  | .removeRobot => do
    return .removeRobot (← field request "robot_id")
  | .addContainer => do
    return .addContainer (← field request "tag") (← field request "comm_id")
  | .removeContainer => do
    return .removeContainer (← field request "tag")
  | .setContainerConnected => do
    let connected ← flag request "connected"
    return .setConnected (← field request "tag") connected
  | .addNode => do
    return .graph (← field request "container") (← startOrder request)
  | .removeNode => do
    return .graph (← field request "container")
      (← removalOrder request "tag" .removeNode)
  | .addParameter => do
    let given ← value request "value"
    return .graph (← field request "container") (← valueOrder request given)
  | .removeParameter => do
    return .graph (← field request "container")
      (← removalOrder request "name" .removeParameter)
  | .addInterface => do
    return .addInterface (← field request "container") (← field request "tag")
      (← field request "addr")
  | .removeInterface => do
    return .removeInterface (← field request "tag")

end Request

/-- What a value asks for as a request. -/
def Json.ask? : Json → Option Ask
  | .object entries =>
    (Operation.ofName? (Session.requestedName entries)).bind fun operation =>
      (Request.ask entries operation).toOption
  | _ => none

/-! ## Orders -/

theorem Parameter.name_of_typed {name type : Text} {value : Json}
    {parameter : Parameter}
    (h : Parameter.typed name value type = .ok parameter) :
    parameter.name = name := by
  unfold Parameter.typed at h
  split at h
  · cases h
  · obtain ⟨content, -, rfl⟩ := exists_of_map_eq_ok h
    rfl
  · obtain ⟨values, -, h⟩ := exists_of_bind_eq_ok h
    cases h
    rfl
  · split at h
    · obtain ⟨values, -, h⟩ := exists_of_bind_eq_ok h
      cases h
      rfl
    · cases h

/-- An order comes to a command of its own operation and subject. -/
theorem Order.entry_of_command {order : Order} {command : Command}
    (h : order.command = .ok command) : command.entry = order.entry := by
  cases order with
  | addNode node =>
    simp only [Order.command] at h
    split at h
    · cases h
      rfl
    · cases h
  | removeNode tag =>
    cases h
    rfl
  | addParameter name value type =>
    simp only [Order.command] at h
    split at h
    · cases hparameter : Parameter.typed name value type with
      | error misfit => simp [hparameter] at h
      | ok parameter =>
        simp only [hparameter, Except.ok.injEq] at h
        rw [← h, Command.entry, Command.name, Command.subject,
          Parameter.name_of_typed hparameter, Order.entry]
    · cases h
  | removeParameter name =>
    cases h
    rfl

/-! ## Reading first -/

namespace Request

theorem kind_of_field_eq_error {request : Dict Json} {key : String}
    {fault : Fault}
    (h : field request key = .error fault) : fault.kind = .invalid := by
  unfold field at h
  split at h
  · cases h
  · cases h
    rfl

theorem kind_of_optionalField_eq_error {request : Dict Json} {key : String}
    {fault : Fault}
    (h : optionalField request key = .error fault) : fault.kind = .invalid := by
  unfold optionalField at h
  split at h
  · cases h
  · cases h
  · cases h
  · cases h
    rfl

theorem kind_of_flag_eq_error {request : Dict Json} {key : String}
    {fault : Fault}
    (h : flag request key = .error fault) : fault.kind = .invalid := by
  unfold flag at h
  split at h
  · cases h
  · cases h
    rfl

theorem kind_of_value_eq_error {request : Dict Json} {key : String}
    {fault : Fault}
    (h : value request key = .error fault) : fault.kind = .invalid := by
  unfold value at h
  split at h
  · cases h
  · cases h
    rfl

end Request

namespace Session

open Request

/-- An operation is refused as invalid and leaves the session. -/
def Refuses {α : Type} (s : Session) (act : Act Session α) : Prop :=
  ∃ fault, fault.kind = .invalid ∧ Act.run act s = (.error fault, s)

/-- Where the fields can be read, the operation does what comes after reading
them; where they cannot, it is refused as invalid. -/
def ReadsFirst {α β : Type} (s : Session) (act : Act Session β)
    (fields : Except Fault α) (next : α → Act Session β) : Prop :=
  match fields with
  | .ok a => Act.run act s = Act.run (next a) s
  | .error _ => s.Refuses act

variable {α β γ : Type} {s : Session}

theorem readsFirst_pure (a : α) (next : α → Act Session β) :
    s.ReadsFirst (next a) (pure a) next :=
  rfl

/-- A field is read before what comes after it. -/
theorem ReadsFirst.read {first : Except Fault γ} {act : γ → Act Session β}
    {fields : γ → Except Fault α} {next : α → Act Session β}
    (hkind : ∀ fault, first = .error fault → fault.kind = .invalid)
    (h : ∀ c, s.ReadsFirst (act c) (fields c) next) :
    s.ReadsFirst (liftM first >>= act) (first >>= fields) next := by
  cases hfirst : first with
  | error fault =>
    refine ⟨fault, hkind fault hfirst, ?_⟩
    rw [Act.run_bind, Act.run_lift]
  | ok c =>
    have hrun : Act.run (liftM (.ok c : Except Fault γ) >>= act) s =
        Act.run (act c) s := by
      rw [Act.run_bind, Act.run_lift]
    have hc := h c
    show s.ReadsFirst _ (fields c) next
    unfold ReadsFirst Refuses at hc ⊢
    rw [hrun]
    exact hc

theorem run_container (tag : Text) (s : Session) :
    Act.run (container tag) s =
      match s.containers.get? tag with
      | some e => (.ok e, s)
      | none => (.error (.noContainer tag), s) := by
  rw [container, Act.run_bind, Act.run_get]
  dsimp only
  cases s.containers.get? tag with
  | some e => rfl
  | none => rfl

/-- The container of an order is looked up before the order is read. -/
theorem readsFirst_graph {fields : Except Fault Order}
    {act : EndpointId → Act Session (List (Text × Json))} (tag : Text)
    (h : ∀ e, s.ReadsFirst (act e) fields (Order.carryOut e)) :
    s.ReadsFirst (container tag >>= act)
      (fields >>= fun order => pure (.graph tag order))
      Ask.perform := by
  have hact : Act.run (container tag >>= act) s =
      match s.containers.get? tag with
      | some e => Act.run (act e) s
      | none => (.error (.noContainer tag), s) := by
    rw [Act.run_bind, run_container]
    cases s.containers.get? tag with
    | some e => rfl
    | none => rfl
  have hperform : ∀ order, Act.run (Ask.perform (.graph tag order)) s =
      match s.containers.get? tag with
      | some e => Act.run (order.carryOut e) s
      | none => (.error (.noContainer tag), s) := by
    intro order
    rw [Ask.perform, Act.run_bind, run_container]
    cases s.containers.get? tag with
    | some e => rfl
    | none => rfl
  cases hget : s.containers.get? tag with
  | none =>
    rw [hget] at hact
    cases fields with
    | error fault => exact ⟨.noContainer tag, rfl, hact⟩
    | ok order =>
      have hlost := hperform order
      rw [hget] at hlost
      exact hact.trans hlost.symm
  | some e =>
    rw [hget] at hact
    have he := h e
    cases fields with
    | error fault =>
      obtain ⟨fault, hkind, hrun⟩ := he
      exact ⟨fault, hkind, hact.trans hrun⟩
    | ok order =>
      have hfound := hperform order
      rw [hget] at hfound
      exact hact.trans (he.trans hfound.symm)

/-- The order in which an operation reads its fields makes no difference but to
which fault comes first. -/
theorem readsFirst_ask (operation : Operation) (entries : Dict Json)
    (s : Session) :
    s.ReadsFirst (perform operation entries) (Request.ask entries operation)
      Ask.perform := by
  have hfield : ∀ key fault, field entries key = .error fault →
      fault.kind = .invalid :=
    fun _ _ => kind_of_field_eq_error
  have hoptional : ∀ key fault, optionalField entries key = .error fault →
      fault.kind = .invalid :=
    fun _ _ => kind_of_optionalField_eq_error
  cases operation with
  | addRobot =>
    apply ReadsFirst.read (hfield _)
    intro id
    apply ReadsFirst.read (hfield _)
    intro commId
    exact readsFirst_pure (Ask.addRobot id commId) Ask.perform
  | removeRobot =>
    apply ReadsFirst.read (hfield _)
    intro id
    exact readsFirst_pure (Ask.removeRobot id) Ask.perform
  | addContainer =>
    apply ReadsFirst.read (hfield _)
    intro tag
    apply ReadsFirst.read (hfield _)
    intro commId
    exact readsFirst_pure (Ask.addContainer tag commId) Ask.perform
  | removeContainer =>
    apply ReadsFirst.read (hfield _)
    intro tag
    exact readsFirst_pure (Ask.removeContainer tag) Ask.perform
  | setContainerConnected =>
    apply ReadsFirst.read fun _ => kind_of_flag_eq_error
    intro connected
    apply ReadsFirst.read (hfield _)
    intro tag
    exact readsFirst_pure (Ask.setConnected tag connected) Ask.perform
  | addNode =>
    apply ReadsFirst.read (hfield _)
    intro container
    apply readsFirst_graph
    intro e
    apply ReadsFirst.read (hfield _)
    intro tag
    apply ReadsFirst.read (hfield _)
    intro package
    apply ReadsFirst.read (hfield _)
    intro executable
    apply ReadsFirst.read (hoptional _)
    intro args
    apply ReadsFirst.read (hoptional _)
    intro name
    apply ReadsFirst.read (hoptional _)
    intro namespaceName
    exact readsFirst_pure
      (Order.addNode ⟨tag, package, executable, args, name, namespaceName⟩)
      (Order.carryOut e)
  | removeNode =>
    apply ReadsFirst.read (hfield _)
    intro container
    apply readsFirst_graph
    intro e
    apply ReadsFirst.read (hfield _)
    intro tag
    exact readsFirst_pure (Order.removeNode tag) (Order.carryOut e)
  | addParameter =>
    apply ReadsFirst.read fun _ => kind_of_value_eq_error
    intro given
    apply ReadsFirst.read (hfield _)
    intro container
    apply readsFirst_graph
    intro e
    apply ReadsFirst.read (hfield _)
    intro name
    apply ReadsFirst.read (hfield _)
    intro type
    exact readsFirst_pure (Order.addParameter name given type)
      (Order.carryOut e)
  | removeParameter =>
    apply ReadsFirst.read (hfield _)
    intro container
    apply readsFirst_graph
    intro e
    apply ReadsFirst.read (hfield _)
    intro name
    exact readsFirst_pure (Order.removeParameter name) (Order.carryOut e)
  | addInterface =>
    apply ReadsFirst.read (hfield _)
    intro container
    apply ReadsFirst.read (hfield _)
    intro tag
    apply ReadsFirst.read (hfield _)
    intro address
    exact readsFirst_pure (Ask.addInterface container tag address) Ask.perform
  | removeInterface =>
    apply ReadsFirst.read (hfield _)
    intro tag
    exact readsFirst_pure (Ask.removeInterface tag) Ask.perform

end Session
end FleetControl

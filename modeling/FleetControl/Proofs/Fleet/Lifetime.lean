import FleetControl.Proofs.Journal
import FleetControl.Proofs.Fleet.Quiet
import FleetControl.Proofs.Session.Perform

/-!
# The life of a robot or container

A robot or container begins with a command, and from then on its operations and
those of interfaces may come in any order and number, and fail or not.
`Lifetime` says what has become of it: either it is live and its delegate has
accepted its beginning and orders after that, or it has been torn down and its
end is the last command of all.

The end is accepted or refused by the delegate alone.  A refused end leaves all
endpoints and interfaces as they were; once an end has been accepted, every
operation fails and leaves the fleet.
-/

namespace FleetControl

/-- The command starts or stops a node, or sets or removes a parameter. -/
def Command.isOrder : Command → Bool
  | .addNode _ | .removeNode _ | .addParameter _ | .removeParameter _ => true
  | _ => false

namespace Group

/-- Endpoints of the role belong to the group. -/
def Fits : Group → Role → Prop
  | .robots, role => role = .robot
  | .containers, role => ∃ connected, role = .container connected

/-- Begins a thing of the group; only robots have keys. -/
def start (group : Group) (owned : Bool) (uid commId key : Text)
    (control : Option ControlId) :
    Act Fleet EndpointId :=
  match group with
  | .robots => Fleet.newRobot owned uid commId key control
  | .containers => Fleet.newContainer owned uid commId control

/-- The command that begins a thing of the group. -/
def startCommand (group : Group) (uid commId key : Text) : Command :=
  match group with
  | .robots => .createRobot uid key
  | .containers => .createContainer uid commId

end Group

/-- The operations of a thing of the group. -/
inductive Handling : Group → Type where
  | register {group : Group} (i : InterfaceId) : Handling group
  | unregister {group : Group} (i : InterfaceId) : Handling group
  | destroy {group : Group} : Handling group
  | graph (order : Order) : Handling .containers
  | reserve (address : Text) : Handling .containers
  | free (address : Text) : Handling .containers
  | setConnected (connected : Bool) : Handling .containers

/-- Runs an operation on the endpoint that it is for. -/
def Handling.perform {group : Group} (e : EndpointId) :
    Handling group → Act Fleet Unit
  | .register i => Fleet.register e i
  | .unregister i => Fleet.unregister e i
  | .destroy => Fleet.destroyEndpoint e
  | .graph order => order.perform e
  | .reserve address => Fleet.reserve e address
  | .free address => Fleet.free e address
  | .setConnected connected => Fleet.setConnected e connected

/-- The operation is about registrations or addresses. -/
def Handling.isQuiet {group : Group} : Handling group → Bool
  | .register _ | .unregister _ | .reserve _ | .free _ => true
  | .destroy | .graph _ | .setConnected _ => false

/-- What may happen in the life of a thing: its own operations, and the making
and the end of interfaces on this or other endpoints. -/
inductive Move (group : Group) where
  | own (handling : Handling group)
  | newInterface (home : EndpointId) (tag : Text) (behaviour : Behaviour)
  | destroyInterface (i : InterfaceId)
  | dropInterface (i : InterfaceId)

/-- The move is about registrations, addresses or interfaces. -/
def Move.isQuiet {group : Group} : Move group → Bool
  | .own handling => handling.isQuiet
  | .newInterface _ _ _ | .destroyInterface _ | .dropInterface _ => true

theorem Move.exists_own {group : Group} {move : Move group}
    (h : move.isQuiet = false) :
    ∃ handling, move = .own handling ∧ handling.isQuiet = false := by
  cases move with
  | own handling => exact ⟨handling, rfl, h⟩
  | newInterface home tag behaviour => cases h
  | destroyInterface i => cases h
  | dropInterface i => cases h

/-- The fleet after a move, which may have failed. -/
def Move.after {group : Group} (e : EndpointId) (f : Fleet) : Move group → Fleet
  | .own handling => (Act.run (handling.perform e) f).2
  | .newInterface home tag behaviour =>
    (Act.run (Fleet.newInterface home tag behaviour) f).2
  | .destroyInterface i => (Act.run (Fleet.destroyInterface i) f).2
  | .dropInterface i => f.dropInterface i

namespace Fleet

variable {f g h : Fleet} {e : EndpointId} {c : ControlId} {group : Group}

/-- A move about registrations, addresses or interfaces is quiet. -/
theorem quiet_after (f : Fleet) (e : EndpointId) {move : Move group}
    (h : move.isQuiet = true) :
    Quiet f (move.after e f) := by
  cases move with
  | own handling =>
    cases handling with
    | register i => exact quiet_of_keeps (keeps_register f e i)
    | unregister i => exact quiet_of_keeps (keeps_unregister f e i)
    | reserve address => exact quiet_of_keeps (keeps_reserve f e address)
    | free address => exact quiet_of_keeps (keeps_free f e address)
    | destroy => cases h
    | graph order => cases h
    | setConnected connected => cases h
  | newInterface home tag behaviour =>
    exact quiet_of_keeps (keeps_newInterface f home tag behaviour)
  | destroyInterface i => exact quiet_destroyInterface f i
  | dropInterface i => exact quiet_dropInterface f i

/-! ## Operations without a command -/

/-- Without a command, the endpoint has stayed the same thing of its group. -/
structure StaysItself (group : Group) (e : EndpointId) (f g : Fleet) :
    Prop where
  continues : Continues f g []
  uid_eq : (g.endpoint e).uid = (f.endpoint e).uid
  control_eq : (g.endpoint e).control = (f.endpoint e).control
  fits : group.Fits (f.endpoint e).role → group.Fits (g.endpoint e).role

namespace StaysItself

theorem refl (group : Group) (e : EndpointId) (f : Fleet) :
    StaysItself group e f f :=
  ⟨.refl f, rfl, rfl, id⟩

theorem trans (hfg : StaysItself group e f g) (hgh : StaysItself group e g h) :
    StaysItself group e f h where
  continues := hfg.continues.trans_left hgh.continues
  uid_eq := hgh.uid_eq.trans hfg.uid_eq
  control_eq := hgh.control_eq.trans hfg.control_eq
  fits := fun hrole => hgh.fits (hfg.fits hrole)

theorem of_quiet (hquiet : Quiet f g) : StaysItself group e f g := by
  obtain ⟨hrole, huid, hcontrol, -⟩ := Endpoint.eq_of_core_eq (hquiet.core_eq e)
  exact ⟨hquiet.continues, huid, hcontrol, fun hfits => hrole ▸ hfits⟩

theorem of_sameThings (hcontinues : Continues f g []) (hsame : SameThings f g) :
    StaysItself group e f g where
  continues := hcontinues
  uid_eq := by rw [hsame.endpoint_eq]
  control_eq := by rw [hsame.endpoint_eq]
  fits := by rw [hsame.endpoint_eq]; exact id

theorem asked (f : Fleet) (message : Text) (c : ControlId) :
    StaysItself group e f (f.asked message c) :=
  of_sameThings (continues_asked f message c) (sameThings_asked f message c)

theorem modifyEndpoint (f : Fleet) (other : EndpointId)
    {change : Endpoint → Endpoint}
    (hchange : ∀ endpoint, (change endpoint).uid = endpoint.uid ∧
      (change endpoint).control = endpoint.control ∧
      (group.Fits endpoint.role → group.Fits (change endpoint).role)) :
    StaysItself group e f (f.modifyEndpoint other change) := by
  have hcontinues : Continues f (f.modifyEndpoint other change) [] :=
    continues_of_eq rfl rfl rfl
  obtain ⟨huid, hcontrol, hfits⟩ := hchange (f.endpoint e)
  rcases endpoint_modifyEndpoint f other e change with hsame | hchanged
  · exact ⟨hcontinues, by rw [hsame], by rw [hsame], by rw [hsame]; exact id⟩
  · exact ⟨hcontinues, by rw [hchanged, huid], by rw [hchanged, hcontrol],
      by rw [hchanged]; exact hfits⟩

end StaysItself

theorem keeps_notify (f : Fleet) (group : Group) (e : EndpointId) (tag : Text)
    (connected : Bool) :
    Act.Keeps (StaysItself group e f) (notify tag connected) := by
  apply Act.keeps_of_run
  intro g hg
  rw [run_notify]
  exact hg.trans (.of_sameThings (continues_update g tag connected)
    (sameThings_update g tag connected))

theorem keeps_setConnected (f : Fleet) (e other : EndpointId)
    (connected : Bool) :
    Act.Keeps (StaysItself .containers e f) (setConnected other connected) := by
  apply (keeps_active _ other).bind
  intro _ _
  apply Act.Upholds.unless (fun _ => trivial)
  intro _
  apply Act.Upholds.bind (Q := fun _ => True)
  · apply Act.upholds_modify
    intro g hg
    exact hg.trans (.modifyEndpoint g other fun _ =>
      ⟨rfl, rfl, fun _ => ⟨connected, rfl⟩⟩)
  · intro _ _
    apply Act.Upholds.ite
    · intro _
      exact keeps_notify f .containers e _ connected
    · intro _
      exact Act.upholds_pure trivial

/-! ## The life of an endpoint -/

/-- What has become of an endpoint since the delegate `c` accepted its
beginning: it has issued orders, and its end exactly if it has been torn down,
which is the last of its commands. -/
structure Lifetime (group : Group) (e : EndpointId) (c : ControlId) (uid : Text)
    (begun : List (ControlId × Command)) (orders : List Command) (f : Fleet) :
    Prop where
  uid_eq : (f.endpoint e).uid = uid
  live : (f.endpoint e).isDeleted = false →
    (f.endpoint e).control = some c ∧ group.Fits (f.endpoint e).role
  isOrder : ∀ command ∈ orders, command.isOrder = true
  commands_eq : f.commands = begun ++
    (orders ++ if (f.endpoint e).isDeleted then [group.removal uid] else []).map
      fun command => (c, command)

variable {uid : Text} {begun : List (ControlId × Command)}
    {orders : List Command}

theorem farewell_of_fits {endpoint : Endpoint} (h : group.Fits endpoint.role) :
    ∃ message, endpoint.farewell? =
      some (message, group.removal endpoint.uid) := by
  unfold Endpoint.farewell?
  cases group with
  | robots =>
    have hrole : endpoint.role = .robot := h
    rw [hrole]
    exact ⟨_, rfl⟩
  | containers =>
    obtain ⟨connected, hrole⟩ := h
    rw [hrole]
    exact ⟨_, rfl⟩

theorem isOrder_of_command {order : Order} {command : Command}
    (h : order.command = .ok command) :
    command.isOrder = true := by
  cases order with
  | addNode node =>
    simp only [Order.command] at h
    split at h
    · cases h
      rfl
    · cases h
  | removeNode tag =>
    cases h
    rfl
  | addParameter name value type =>
    simp only [Order.command] at h
    split at h
    · split at h
      · cases h
      · cases h
        rfl
    · cases h
  | removeParameter name =>
    cases h
    rfl

/-- Once an endpoint has been torn down, every operation on it fails and leaves
the fleet. -/
theorem run_handling_of_isDeleted (h : (f.endpoint e).isDeleted = true)
    (handling : Handling group) :
    Act.run (handling.perform e) f =
      (.error (.endpointDeleted (f.endpoint e).uid), f) := by
  have hactive := run_active_of_isDeleted h
  cases handling with
  | register i => simp [Handling.perform, register, Act.run_bind, hactive]
  | unregister i => simp [Handling.perform, unregister, Act.run_bind, hactive]
  | destroy => simp [Handling.perform, destroyEndpoint, Act.run_bind, hactive]
  | reserve address => simp [Handling.perform, reserve, Act.run_bind, hactive]
  | free address => simp [Handling.perform, free, Act.run_bind, hactive]
  | setConnected connected =>
    simp [Handling.perform, setConnected, Act.run_bind, hactive]
  | graph order =>
    cases order with
    | addNode node =>
      simp [Handling.perform, Order.perform, addNode, Act.run_bind, hactive]
    | removeNode tag =>
      simp [Handling.perform, Order.perform, removeNode, Act.run_bind, hactive]
    | addParameter name value type =>
      simp [Handling.perform, Order.perform, addParameter, Act.run_bind,
        hactive]
    | removeParameter name =>
      simp [Handling.perform, Order.perform, removeParameter, Act.run_bind,
        hactive]

namespace Lifetime

theorem of_stays (h : Lifetime group e c uid begun orders f)
    (hstays : StaysItself group e f g) :
    Lifetime group e c uid begun orders g := by
  have hdeleted : (g.endpoint e).isDeleted = (f.endpoint e).isDeleted := by
    rw [Endpoint.isDeleted, hstays.control_eq, Endpoint.isDeleted]
  refine ⟨hstays.uid_eq.trans h.uid_eq, ?_, h.isOrder, ?_⟩
  · intro hlive
    obtain ⟨hcontrol, hfits⟩ := h.live (hdeleted ▸ hlive)
    exact ⟨hstays.control_eq.trans hcontrol, hstays.fits hfits⟩
  · rw [hstays.continues.commands_eq, List.append_nil, h.commands_eq, hdeleted]

/-- An order that the delegate accepts comes after those that it has
accepted before. -/
theorem granted (h : Lifetime group e c uid begun orders f)
    (hlive : (f.endpoint e).isDeleted = false) {command : Command}
    (horder : command.isOrder = true) (message : Text)
    (haccepts : f.objection? c command = none) :
    Lifetime group e c uid begun (orders ++ [command])
      (f.granted message c command) := by
  refine ⟨h.uid_eq, h.live, ?_, ?_⟩
  · intro other hother
    rcases List.mem_append.mp hother with hother | hother
    · exact h.isOrder other hother
    · rwa [List.mem_singleton.mp hother]
  · have hstill : ((f.granted message c command).endpoint e).isDeleted =
        false := hlive
    rw [(continues_granted message haccepts).commands_eq, h.commands_eq, hlive,
      hstill]
    simp

/-- An accepted end is the last command, also when the interfaces of the
endpoint fail. -/
theorem ended (h : Lifetime group e c uid begun orders f)
    (hlive : (f.endpoint e).isDeleted = false)
    (haccepts : f.objection? c (group.removal uid) = none) :
    Lifetime group e c uid begun orders (Act.run (destroyEndpoint e) f).2 ∧
      ((Act.run (destroyEndpoint e) f).2.endpoint e).isDeleted = true := by
  obtain ⟨hcontrol, hfits⟩ := h.live hlive
  obtain ⟨message, hfarewell⟩ := farewell_of_fits hfits
  rw [h.uid_eq] at hfarewell
  have haccepts' : ∀ message command,
    (f.endpoint e).farewell? = some (message, command) →
      f.objection? c command = none := by
    intro message' command hfarewell'
    cases hfarewell.symm.trans hfarewell'
    exact haccepts
  have hdeparted : f.departed e = f.granted message c (group.removal uid) := by
    rw [departed, hfarewell, hcontrol]
  obtain ⟨calls, g, hcascade, hrun⟩ := run_dismantle_cascade (f.departed e) e
  rw [run_destroyEndpoint_of_accepted hcontrol haccepts', hrun]
  rw [hdeparted] at hcascade
  have hdeleted : ((g.retireEndpoint e).endpoint e).isDeleted = true := by
    rw [Endpoint.isDeleted, (endpoint_retireEndpoint g e).1]
    rfl
  have huid : ((g.retireEndpoint e).endpoint e).uid = uid :=
    (uid_retireEndpoint g e).trans ((hcascade.loosened e).uid_eq.trans h.uid_eq)
  have hcommands : g.commands = f.commands ++ [(c, group.removal uid)] := by
    rw [hcascade.continues.commands_eq, List.append_nil,
      (continues_granted message haccepts).commands_eq]
  refine ⟨⟨huid, ?_, h.isOrder, ?_⟩, hdeleted⟩
  · intro hnot
    rw [hdeleted] at hnot
    cases hnot
  · calc
      (g.retireEndpoint e).commands = g.commands := rfl
      _ = begun ++
          (orders ++ if ((g.retireEndpoint e).endpoint e).isDeleted then
            [group.removal uid] else []).map fun command => (c, command) := by
        rw [hcommands, h.commands_eq, hlive, hdeleted]
        simp

/-- A refused end leaves all endpoints and interfaces as they were. -/
theorem refused (h : Lifetime group e c uid begun orders f)
    (hlive : (f.endpoint e).isDeleted = false) {fault : Fault}
    (hrefuses : f.objection? c (group.removal uid) = some fault) :
    ∃ message, Act.run (destroyEndpoint e) f =
      (.error fault, f.asked message c) := by
  obtain ⟨hcontrol, hfits⟩ := h.live hlive
  obtain ⟨message, hfarewell⟩ := farewell_of_fits hfits
  rw [h.uid_eq] at hfarewell
  exact ⟨message, run_destroyEndpoint_of_refused hcontrol hfarewell hrefuses⟩

/-- What an operation that may meet the delegate or the owner does to a life. -/
theorem own (h : Lifetime group e c uid begun orders f)
    {handling : Handling group} (hloud : handling.isQuiet = false) :
    ∃ more, Lifetime group e c uid begun (orders ++ more)
      (Act.run (handling.perform e) f).2 := by
  cases hdeleted : (f.endpoint e).isDeleted with
  | true =>
    refine ⟨[], ?_⟩
    rw [run_handling_of_isDeleted hdeleted, List.append_nil]
    exact h
  | false =>
    cases handling with
    | register i => cases hloud
    | unregister i => cases hloud
    | reserve address => cases hloud
    | free address => cases hloud
    | setConnected connected =>
      refine ⟨[], ?_⟩
      rw [List.append_nil]
      exact h.of_stays
        (keeps_setConnected f e e connected f (.refl .containers e f)).1
    | destroy =>
      refine ⟨[], ?_⟩
      rw [List.append_nil]
      cases hobjection : f.objection? c (group.removal uid) with
      | none => exact (h.ended hdeleted hobjection).1
      | some fault =>
        obtain ⟨message, hrun⟩ := h.refused hdeleted hobjection
        rw [Handling.perform, hrun]
        exact h.of_stays (.asked f message c)
    | graph order =>
      obtain ⟨message, hrun⟩ := Session.run_order (h.live hdeleted).1 order
      rw [Handling.perform, hrun]
      cases hcommand : order.command with
      | error fault => exact ⟨[], by rw [List.append_nil]; exact h⟩
      | ok command =>
        dsimp only
        cases hobjection : f.objection? c command with
        | none =>
          exact ⟨[command], h.granted hdeleted (isOrder_of_command hcommand)
            message hobjection⟩
        | some fault =>
          refine ⟨[], ?_⟩
          rw [List.append_nil]
          exact h.of_stays (.asked f message c)

theorem move (h : Lifetime group e c uid begun orders f) (move : Move group) :
    ∃ more, Lifetime group e c uid begun (orders ++ more) (move.after e f) := by
  cases hquiet : move.isQuiet with
  | true =>
    refine ⟨[], ?_⟩
    rw [List.append_nil]
    exact h.of_stays (.of_quiet (quiet_after f e hquiet))
  | false =>
    obtain ⟨handling, rfl, hloud⟩ := Move.exists_own hquiet
    exact h.own hloud

theorem moves (h : Lifetime group e c uid begun orders f)
    (moves : List (Move group)) :
    ∃ more, Lifetime group e c uid begun (orders ++ more)
      (moves.foldl (Move.after e) f) := by
  induction moves generalizing f orders with
  | nil => exact ⟨[], by rw [List.append_nil]; exact h⟩
  | cons move rest ih =>
    obtain ⟨first, hfirst⟩ := h.move move
    obtain ⟨later, hlater⟩ := ih hfirst
    exact ⟨first ++ later, by rw [← List.append_assoc]; exact hlater⟩

end Lifetime

/-! ## All lives -/

/-- A thing of the group begins live and without orders, once its delegate has
accepted it; if it does not begin, there is no command and nothing new. -/
theorem start_lifetime (hfresh : f.endpoints.Fresh) (group : Group)
    (owned : Bool) (uid commId key : Text) (control : Option ControlId) :
    (∃ fault g,
      Act.run (group.start owned uid commId key control) f =
        (.error fault, g) ∧
      SameThings f g ∧ g.commands = f.commands) ∨
    ∃ e c g, control = some c ∧
      Act.run (group.start owned uid commId key control) f = (.ok e, g) ∧
      Lifetime group e c uid
        (f.commands ++ [(c, group.startCommand uid commId key)]) [] g := by
  have hbegun : ∀ {c : ControlId} {g : Fleet} {role : Role}, group.Fits role →
      Continues f g [(c, group.startCommand uid commId key)] →
      g.endpoints = f.endpoints.insert
        ⟨role, uid, commId, some c, owned, [], []⟩ →
      Lifetime group f.endpoints.next c uid
        (f.commands ++ [(c, group.startCommand uid commId key)]) [] g := by
    intro c g role hfits hcontinues hendpoints
    have hendpoint : g.endpoint f.endpoints.next =
        ⟨role, uid, commId, some c, owned, [], []⟩ := by
      rw [endpoint, hendpoints, Store.get?_insert_next hfresh]
      rfl
    refine ⟨by rw [hendpoint], fun _ => by rw [hendpoint]; exact ⟨rfl, hfits⟩,
      List.forall_mem_nil _, ?_⟩
    rw [hcontinues.commands_eq, hendpoint]
    simp [Endpoint.isDeleted]
  cases group with
  | robots =>
    rcases run_newRobot owned uid commId key control f with
      ⟨c, g, hcontrol, -, hrun, hcontinues, -, hendpoints⟩ |
        ⟨fault, g, -, hrun, hcontinues, hsame⟩
    · exact Or.inr ⟨_, c, g, hcontrol, hrun, hbegun rfl hcontinues hendpoints⟩
    · exact Or.inl ⟨fault, g, hrun, hsame, by
        rw [hcontinues.commands_eq, List.append_nil]⟩
  | containers =>
    rcases run_newContainer owned uid commId control f with
      ⟨c, g, hcontrol, -, hrun, hcontinues, -, hendpoints⟩ |
        ⟨fault, g, -, hrun, hcontinues, hsame⟩
    · exact Or.inr
        ⟨_, c, g, hcontrol, hrun, hbegun ⟨false, rfl⟩ hcontinues hendpoints⟩
    · exact Or.inl ⟨fault, g, hrun, hsame, by
        rw [hcontinues.commands_eq, List.append_nil]⟩

/-- How a thing of the group stands at some point of its life, which began with
the last of the given commands. -/
structure LivesOnce (group : Group) (e : EndpointId) (c : ControlId)
    (uid : Text) (begun : List (ControlId × Command)) (f : Fleet) : Prop where
  /-- Its further commands are orders, and its end exactly if it has been
  torn down. -/
  commands : ∃ orders, (∀ command ∈ orders, command.isOrder = true) ∧
    f.commands = begun ++
      (orders ++ if (f.endpoint e).isDeleted then [group.removal uid]
        else []).map
        fun command => (c, command)
  /-- The end that the delegate refuses raises that fault and leaves all
  endpoints and interfaces, so that it can be tried again. -/
  refused : (f.endpoint e).isDeleted = false →
    ∀ fault, f.objection? c (group.removal uid) = some fault →
      ∃ g, Act.run (destroyEndpoint e) f = (.error fault, g) ∧ SameThings f g ∧
        g.commands = f.commands
  /-- The end that the delegate accepts is one, whatever the interfaces
  raise afterwards. -/
  accepted : (f.endpoint e).isDeleted = false →
    f.objection? c (group.removal uid) = none →
    ((Act.run (destroyEndpoint e) f).2.endpoint e).isDeleted = true ∧
      (Act.run (destroyEndpoint e) f).2.commands =
        f.commands ++ [(c, group.removal uid)]
  /-- After its end every operation fails, and the fleet stays
  exactly as it is. -/
  past : (f.endpoint e).isDeleted = true → ∀ handling : Handling group,
    Act.run (handling.perform e) f = (.error (.endpointDeleted uid), f)

theorem Lifetime.livesOnce (h : Lifetime group e c uid begun orders f) :
    LivesOnce group e c uid begun f where
  commands := ⟨orders, h.isOrder, h.commands_eq⟩
  refused := by
    intro hlive fault hrefuses
    obtain ⟨message, hrun⟩ := h.refused hlive hrefuses
    refine ⟨_, hrun, sameThings_asked f message c, ?_⟩
    rw [(continues_asked f message c).commands_eq, List.append_nil]
  accepted := by
    intro hlive haccepts
    obtain ⟨hlast, hdeleted⟩ := h.ended hlive haccepts
    refine ⟨hdeleted, ?_⟩
    rw [hlast.commands_eq, h.commands_eq, hlive, hdeleted]
    simp
  past := by
    intro hdeleted handling
    rw [run_handling_of_isDeleted hdeleted, h.uid_eq]

/-- Whatever is done with a robot or container, in any order and with any
failures: its delegate accepts its beginning first, then orders, and at most one
end, which is the last of its commands and comes exactly when it has been torn
down.  A thing that does not begin leaves no command. -/
theorem livesOnce_of_start (hfresh : f.endpoints.Fresh) (group : Group)
    (owned : Bool) (uid commId key : Text) (control : Option ControlId) :
    (∃ fault g,
      Act.run (group.start owned uid commId key control) f =
        (.error fault, g) ∧
      SameThings f g ∧ g.commands = f.commands) ∨
    ∃ e c g, control = some c ∧
      Act.run (group.start owned uid commId key control) f = (.ok e, g) ∧
      ∀ moves : List (Move group),
        LivesOnce group e c uid
          (f.commands ++ [(c, group.startCommand uid commId key)])
          (moves.foldl (Move.after e) g) := by
  rcases start_lifetime hfresh group owned uid commId key control with
    hfailed | ⟨e, c, g, hcontrol, hrun, hbegun⟩
  · exact Or.inl hfailed
  · refine Or.inr ⟨e, c, g, hcontrol, hrun, ?_⟩
    intro moves
    obtain ⟨more, hlife⟩ := hbegun.moves moves
    exact hlife.livesOnce

/-- A fleet whose delegate refuses its second command. -/
def hesitant : Fleet where
  controls := ⟨[(0, ⟨[.robot, .container, .node, .parameter],
    fun n _ => if n = 1 then some (.foreign .runtime (text "busy") [])
      else none, 0⟩)], 1⟩
  endpoints := .empty
  interfaces := .empty
  listener := ⟨none, false, fun _ _ _ => none, 0⟩
  history := []

theorem livesOnce_of_start_hesitant :
    hesitant.endpoints.Fresh ∧
      ∃ e c g,
        Act.run
          (Group.containers.start true (text "c1") (text "m1") [] (some 0))
          hesitant = (.ok e, g) ∧
        ∀ moves : List (Move .containers),
          LivesOnce .containers e c (text "c1")
            [(c, .createContainer (text "c1") (text "m1"))]
            (moves.foldl (Move.after e) g) := by
  refine ⟨Store.fresh_empty, ?_⟩
  rcases livesOnce_of_start (f := hesitant) Store.fresh_empty .containers
    true (text "c1")
    (text "m1") []
    (some 0) with ⟨fault, g, hrun, -, -⟩ | ⟨e, c, g, -, hrun, hlives⟩
  · cases hrun
  · exact ⟨e, c, g, hrun, hlives⟩

end Fleet
end FleetControl

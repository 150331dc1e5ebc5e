import FleetControl.Proofs.Fleet.Dismantling
import FleetControl.Proofs.Request.Ask
import FleetControl.Proofs.Session.Sound

/-!
# Steps of a session

`Session.Step` lists everything that can come of what is asked of a session.
The session refuses what `Session.fault?` finds, and then nothing at all has
changed.  What the session admits is carried out, unless those outside have to
agree to it first and decline.  Only the end of a robot or container that its
delegate refuses, and a new flag that the listener objects to, answer with a
fault and leave a trace.

Every step keeps the session sound.
-/

namespace FleetControl
namespace Session

variable {s t u : Session}

/-! ## What stays -/

/-- One state of a session comes after another one, in which delegates
have accepted the given commands meanwhile.  What the session holds may
have changed. -/
structure Continues (s t : Session) (commands : List (ControlId × Command)) :
    Prop where
  userId_eq : t.userId = s.userId
  robotControl_eq : t.robotControl = s.robotControl
  containerControl_eq : t.containerControl = s.containerControl
  limits_eq : t.limits = s.limits
  destroyed_eq : t.destroyed = s.destroyed
  stream_eq : t.entropy.stream = s.entropy.stream
  fails_eq : t.entropy.fails = s.entropy.fails
  fleet : Fleet.Continues s.fleet t.fleet commands

namespace Continues

variable {first second : List (ControlId × Command)}

theorem refl (s : Session) : s.Continues s [] :=
  ⟨rfl, rfl, rfl, rfl, rfl, rfl, rfl, Fleet.Continues.refl _⟩

theorem trans (hst : s.Continues t first) (htu : t.Continues u second) :
    s.Continues u (first ++ second) where
  userId_eq := htu.userId_eq.trans hst.userId_eq
  robotControl_eq := htu.robotControl_eq.trans hst.robotControl_eq
  containerControl_eq := htu.containerControl_eq.trans hst.containerControl_eq
  limits_eq := htu.limits_eq.trans hst.limits_eq
  destroyed_eq := htu.destroyed_eq.trans hst.destroyed_eq
  stream_eq := htu.stream_eq.trans hst.stream_eq
  fails_eq := htu.fails_eq.trans hst.fails_eq
  fleet := hst.fleet.trans htu.fleet

theorem trans_left (hst : s.Continues t []) (htu : t.Continues u second) :
    s.Continues u second := by
  simpa using hst.trans htu

theorem trans_right (hst : s.Continues t first) (htu : t.Continues u []) :
    s.Continues u first := by
  simpa using hst.trans htu

end Continues

theorem continues_of_fleet {fleet : Fleet}
    {commands : List (ControlId × Command)}
    (h : Fleet.Continues s.fleet fleet commands)
    (robots containers : Dict EndpointId) (interfaces : Dict InterfaceId) :
    s.Continues
      { s with
        robots := robots
        containers := containers
        interfaces := interfaces
        fleet := fleet }
      commands :=
  ⟨rfl, rfl, rfl, rfl, rfl, rfl, rfl, h⟩

/-- Those outside are fit for all that the session may ask of them, and
never object. -/
structure Willing (s : Session) : Prop where
  robot : s.fleet.Obliging s.robotControl [.robot]
  container : s.fleet.Obliging s.containerControl
    [.node, .parameter, .container]
  entropy : ∀ n, s.entropy.fails n = false
  keyBytes_pos : 0 < s.limits.keyBytes
  keyBytes_le : (s.limits.keyBytes : Int) ≤ Int32.maxValue.toInt
  listener : s.fleet.listener.hears = true →
    ∀ n tag connected, s.fleet.listener.objection n tag connected = none

/-- Those outside stay as willing as they are. -/
theorem Continues.willing {commands : List (ControlId × Command)}
    (h : s.Continues t commands) (hs : s.Willing) : t.Willing := by
  have hobliging : ∀ control needs, s.fleet.Obliging control needs →
      t.fleet.Obliging control needs := by
    rintro control needs ⟨c, capabilities, hcontrol, hnature, hneeds⟩
    exact ⟨c, capabilities, hcontrol, h.fleet.nature_eq ▸ hnature, hneeds⟩
  constructor
  · exact h.robotControl_eq ▸ hobliging _ _ hs.robot
  · exact h.containerControl_eq ▸ hobliging _ _ hs.container
  · exact h.fails_eq ▸ hs.entropy
  · exact h.limits_eq ▸ hs.keyBytes_pos
  · exact h.limits_eq ▸ hs.keyBytes_le
  · rw [h.fleet.hears_eq, h.fleet.objection_eq]
    exact hs.listener

/-! ## The invariant -/

/-- A session that is not destroyed, keeps to its limits, and is in step with
its fleet, whose endpoints have the delegates of the session. -/
structure Sound (s : Session) : Prop where
  active : s.destroyed = false
  holdings : s.holdings.Sound
  manned : s.holdings.Manned s.robotControl s.containerControl
  robots_le : s.robots.length ≤ s.limits.robots
  containers_le : s.containers.length ≤ s.limits.containers

/-! ## Steps -/

/-- The fault that a session finds by itself in what is asked of it, before it
turns to those outside. -/
def fault? (s : Session) : Ask → Option Fault
  | .addRobot id _ =>
    if s.robots.contains id then some (.robotExists id)
    else if s.limits.robots ≤ s.robots.length then
      some (.robotLimit s.limits.robots)
    else none
  | .removeRobot id => if s.robots.contains id then none else some (.noRobot id)
  | .addContainer tag _ =>
    if s.containers.contains tag then some (.containerExists tag)
    else if s.limits.containers ≤ s.containers.length then
      some (.containerLimit s.limits.containers)
    else none
  | .removeContainer tag =>
    if s.containers.contains tag then none else some (.noContainer tag)
  | .setConnected tag connected =>
    match s.containers.get? tag with
    | none => some (.noContainer tag)
    | some e =>
      if connected = true ∧ (s.fleet.endpoint e).connected? = some true then
        some (.alreadyConnected (s.fleet.endpoint e).uid)
      else none
  | .graph container order =>
    match s.containers.get? container, order.command with
    | none, _ => some (.noContainer container)
    | some _, .error fault => some fault
    | some _, .ok _ => none
  | .addInterface container tag address =>
    if s.interfaces.contains tag then some (.interfaceExists tag)
    else match s.containers.get? container with
      | none => some (.noContainer container)
      | some e =>
        if s.fleet.isReserved e address then some (.addressInUse address)
        else none
  | .removeInterface tag =>
    if s.interfaces.contains tag then none else some (.noInterface tag)

/-- What can come of what is asked of a session: an answer and the
state after it. -/
inductive Step (s : Session) :
    Ask → Except Fault (List (Text × Json)) → Session → Prop where
  /-- The session refuses by itself. -/
  | refused {ask fault} (hfault : s.fault? ask = some fault) :
      Step s ask (.error fault) s
  /-- Those outside decline, and the session holds what it held. -/
  | declined {ask fault t} (hconsent : ask.needsConsent = true)
      (hfault : s.fault? ask = none) (hworld : ¬ s.Willing)
      (hcontinues : s.Continues t []) (hholdings : t.holdings = s.holdings) :
      Step s ask (.error fault) t
  | robotAdded {id commId key c t}
      (hfault : s.fault? (.addRobot id commId) = none)
      (hcontrol : s.robotControl = some c)
      (hcontinues : s.Continues t [(c, .createRobot id key)])
      (hholdings : t.holdings =
        s.holdings.withRobot id ⟨.robot, id, commId, some c, true, [], []⟩) :
      Step s (.addRobot id commId) (.ok [(text "key", .string key)]) t
  | robotRemoved {id e c t} (hget : s.robots.get? id = some e)
      (hcontrol : s.robotControl = some c)
      (hcontinues : s.Continues t [(c, .destroyRobot id)])
      (hholdings : t.holdings = s.holdings.withoutRobot id e) :
      Step s (.removeRobot id) (.ok []) t
  /-- The delegate refuses the end of a robot, which is forgotten
  all the same. -/
  | robotLost {id e c fault message t} (hget : s.robots.get? id = some e)
      (hcontrol : s.robotControl = some c)
      (hobjects : s.fleet.objection? c (.destroyRobot id) = some fault)
      (hcontinues : s.Continues t [])
      (hholdings : t.holdings = s.holdings.withoutRobot id e)
      (hhistory : t.fleet.history = .logged ⟨.info, message⟩ ::
        s.fleet.history) :
      Step s (.removeRobot id) (.error fault) t
  | containerAdded {tag commId c t}
      (hfault : s.fault? (.addContainer tag commId) = none)
      (hcontrol : s.containerControl = some c)
      (hcontinues : s.Continues t [(c, .createContainer tag commId)])
      (hholdings : t.holdings =
        s.holdings.withContainer tag
          ⟨.container false, tag, commId, some c, true, [], []⟩) :
      Step s (.addContainer tag commId) (.ok []) t
  | containerRemoved {tag e c t} (hget : s.containers.get? tag = some e)
      (hcontrol : s.containerControl = some c)
      (hcontinues : s.Continues t [(c, .destroyContainer tag)])
      (hholdings : t.holdings = s.holdings.withoutContainer tag e) :
      Step s (.removeContainer tag) (.ok []) t
  /-- The delegate refuses the end of a container, which is forgotten
  all the same. -/
  | containerLost {tag e c fault message t}
      (hget : s.containers.get? tag = some e)
      (hcontrol : s.containerControl = some c)
      (hobjects : s.fleet.objection? c (.destroyContainer tag) = some fault)
      (hcontinues : s.Continues t [])
      (hholdings : t.holdings = s.holdings.withoutContainer tag e)
      (hhistory : t.fleet.history = .logged ⟨.info, message⟩ ::
        s.fleet.history) :
      Step s (.removeContainer tag) (.error fault) t
  | flagSet {tag e connected t}
      (hfault : s.fault? (.setConnected tag connected) = none)
      (hget : s.containers.get? tag = some e) (hcontinues : s.Continues t [])
      (hholdings : t.holdings = s.holdings.withFlag e connected) :
      Step s (.setConnected tag connected) (.ok []) t
  /-- Those who hear of a new flag object to it; it stays set. -/
  | flagUnheard {tag e connected fault t}
      (hfault : s.fault? (.setConnected tag connected) = none)
      (hget : s.containers.get? tag = some e)
      (hobjects : s.fleet.listener.objects tag connected = some fault)
      (hcontinues : s.Continues t [])
      (hholdings : t.holdings = s.holdings.withFlag e connected) :
      Step s (.setConnected tag connected) (.error fault) t
  | forwarded {container order command c t}
      (hfault : s.fault? (.graph container order) = none)
      (hcommand : order.command = .ok command)
      (hcontrol : s.containerControl = some c)
      (hcontinues : s.Continues t [(c, command)])
      (hholdings : t.holdings = s.holdings) :
      Step s (.graph container order) (.ok []) t
  | interfaceAdded {container tag address e c t}
      (hfault : s.fault? (.addInterface container tag address) = none)
      (hget : s.containers.get? container = some e)
      (hcontinues : s.Continues t [])
      (hholdings : t.holdings = s.holdings.withInterface tag e address c) :
      Step s (.addInterface container tag address) (.ok []) t
  | interfaceRemoved {tag i container address t}
      (hget : s.interfaces.get? tag = some i)
      (hcontainer : s.containers.get? container =
        some (s.fleet.interface i).endpoint)
      (haddress : (s.fleet.interface i).behaviour = .address address)
      (hcontinues : s.Continues t [])
      (hholdings : t.holdings =
        s.holdings.withoutInterface tag i
          (s.fleet.interface i).endpoint address) :
      Step s (.removeInterface tag) (.ok []) t

/-! ## Commands -/

/-- The operations and subjects of the commands of an answer: those of what is
asked for when it is carried out, and none otherwise. -/
def entriesOf (ask : Ask) :
    Except Fault (List (Text × Json)) → List (Text × Text)
  | .ok _ => ask.entries
  | .error _ => []

/-- A step goes on with the commands of its answer. -/
theorem Step.exists_continues {ask : Ask}
    {result : Except Fault (List (Text × Json))} (h : Step s ask result t) :
    ∃ commands, s.Continues t commands ∧
      commands.map (fun p => p.2.entry) = entriesOf ask result := by
  cases h with
  | refused hfault => exact ⟨[], Continues.refl s, rfl⟩
  | declined hconsent hfault hworld hcontinues hholdings =>
    exact ⟨[], hcontinues, rfl⟩
  | robotAdded hfault hcontrol hcontinues hholdings =>
    exact ⟨_, hcontinues, rfl⟩
  | robotRemoved hget hcontrol hcontinues hholdings =>
    exact ⟨_, hcontinues, rfl⟩
  | robotLost hget hcontrol hobjects hcontinues hholdings hhistory =>
    exact ⟨[], hcontinues, rfl⟩
  | containerAdded hfault hcontrol hcontinues hholdings =>
    exact ⟨_, hcontinues, rfl⟩
  | containerRemoved hget hcontrol hcontinues hholdings =>
    exact ⟨_, hcontinues, rfl⟩
  | containerLost hget hcontrol hobjects hcontinues hholdings hhistory =>
    exact ⟨[], hcontinues, rfl⟩
  | flagSet hfault hget hcontinues hholdings => exact ⟨[], hcontinues, rfl⟩
  | flagUnheard hfault hget hobjects hcontinues hholdings =>
    exact ⟨[], hcontinues, rfl⟩
  | forwarded hfault hcommand hcontrol hcontinues hholdings =>
    refine ⟨_, hcontinues, ?_⟩
    simp [entriesOf, Ask.entries, Order.entry_of_command hcommand]
  | interfaceAdded hfault hget hcontinues hholdings =>
    exact ⟨[], hcontinues, rfl⟩
  | interfaceRemoved hget hcontainer haddress hcontinues hholdings =>
    exact ⟨[], hcontinues, rfl⟩

/-! ## What a session refuses -/

theorem fault?_addRobot_eq_none_iff {id commId : Text} :
    s.fault? (.addRobot id commId) = none ↔
      s.robots.contains id = false ∧ s.robots.length < s.limits.robots := by
  simp only [fault?]
  split
  · next hcontains => simp [hcontains]
  · next hcontains =>
    split
    · next hlimit => simp [hcontains, hlimit]
    · next hlimit => simp [hcontains, Nat.lt_of_not_le hlimit]

theorem fault?_addContainer_eq_none_iff {tag commId : Text} :
    s.fault? (.addContainer tag commId) = none ↔
      s.containers.contains tag = false ∧
      s.containers.length < s.limits.containers := by
  simp only [fault?]
  split
  · next hcontains => simp [hcontains]
  · next hcontains =>
    split
    · next hlimit => simp [hcontains, hlimit]
    · next hlimit => simp [hcontains, Nat.lt_of_not_le hlimit]

/-- A session admits an interface with a new tag on one of its containers, at an
address that is not reserved there. -/
theorem fault?_addInterface_eq_none_iff {container tag address : Text}
    {e : EndpointId} (hget : s.containers.get? container = some e) :
    s.fault? (.addInterface container tag address) = none ↔
      s.interfaces.contains tag = false ∧
      address ∉ (s.fleet.endpoint e).addresses := by
  simp only [fault?, hget, Fleet.isReserved, List.contains_iff_mem]
  split
  · next hcontains => simp [hcontains]
  · next hcontains =>
    split
    · next hmem => simp [hmem]
    · next hmem => simp [hcontains, hmem]

/-! ## The invariant along a step -/

/-- A session that goes on is sound as long as what it holds is. -/
theorem Sound.of_continues {commands : List (ControlId × Command)}
    (hs : s.Sound)
    (hcontinues : s.Continues t commands) (hsound : t.holdings.Sound)
    (hmanned : t.holdings.Manned s.robotControl s.containerControl)
    (hrobots : t.robots.length ≤ s.limits.robots)
    (hcontainers : t.containers.length ≤ s.limits.containers) : t.Sound where
  active := hcontinues.destroyed_eq.trans hs.active
  holdings := hsound
  manned := by
    rw [hcontinues.robotControl_eq, hcontinues.containerControl_eq]
    exact hmanned
  robots_le := hcontinues.limits_eq ▸ hrobots
  containers_le := hcontinues.limits_eq ▸ hcontainers

/-- A session that goes on with what it holds stays sound. -/
theorem Sound.of_holdings_eq {commands : List (ControlId × Command)}
    (hs : s.Sound) (hcontinues : s.Continues t commands)
    (hholdings : t.holdings = s.holdings) : t.Sound := by
  have hrobots : t.robots = s.robots := congrArg Holdings.robots hholdings
  have hcontainers : t.containers = s.containers :=
    congrArg Holdings.containers hholdings
  apply hs.of_continues hcontinues
  · exact hholdings ▸ hs.holdings
  · exact hholdings ▸ hs.manned
  · exact hrobots ▸ hs.robots_le
  · exact hcontainers ▸ hs.containers_le

theorem Sound.of_withoutRobot {commands : List (ControlId × Command)}
    (hs : s.Sound) {id : Text} {e : EndpointId}
    (hget : s.robots.get? id = some e) (hcontinues : s.Continues t commands)
    (hholdings : t.holdings = s.holdings.withoutRobot id e) : t.Sound := by
  have hrobots : t.robots = s.robots.erase id :=
    congrArg Holdings.robots hholdings
  have hcontainers : t.containers = s.containers :=
    congrArg Holdings.containers hholdings
  apply hs.of_continues hcontinues
  · exact hholdings ▸ hs.holdings.withoutRobot hget
  · exact hholdings ▸ hs.manned.erase rfl
  · rw [hrobots]
    exact Nat.le_trans (Dict.length_erase_le id s.robots) hs.robots_le
  · exact hcontainers ▸ hs.containers_le

theorem Sound.of_withoutContainer {commands : List (ControlId × Command)}
    (hs : s.Sound)
    {tag : Text} {e : EndpointId} (hget : s.containers.get? tag = some e)
    (hcontinues : s.Continues t commands)
    (hholdings : t.holdings = s.holdings.withoutContainer tag e) : t.Sound := by
  have hrobots : t.robots = s.robots := congrArg Holdings.robots hholdings
  have hcontainers : t.containers = s.containers.erase tag :=
    congrArg Holdings.containers hholdings
  apply hs.of_continues hcontinues
  · exact hholdings ▸ hs.holdings.withoutContainer hget
  · exact hholdings ▸ hs.manned.erase rfl
  · exact hrobots ▸ hs.robots_le
  · rw [hcontainers]
    exact Nat.le_trans (Dict.length_erase_le tag s.containers) hs.containers_le

theorem Sound.of_withFlag {commands : List (ControlId × Command)} (hs : s.Sound)
    {tag : Text}
    {e : EndpointId} {connected : Bool} (hget : s.containers.get? tag = some e)
    (hcontinues : s.Continues t commands)
    (hholdings : t.holdings = s.holdings.withFlag e connected) : t.Sound := by
  have hrobots : t.robots = s.robots := congrArg Holdings.robots hholdings
  have hcontainers : t.containers = s.containers :=
    congrArg Holdings.containers hholdings
  have he := hs.holdings.container hget
  obtain ⟨old, hrole⟩ := he.role_eq
  apply hs.of_continues hcontinues
  · exact hholdings ▸ hs.holdings.withFlag hget connected
  · rw [hholdings]
    exact hs.manned.modify hrole he.live
      (Holdings.endpointStore_withFlag s.holdings e connected) rfl nofun
  · exact hrobots ▸ hs.robots_le
  · exact hcontainers ▸ hs.containers_le

/-- A step keeps a session sound. -/
theorem Step.sound {ask : Ask} {result : Except Fault (List (Text × Json))}
    (hs : s.Sound) (h : Step s ask result t) : t.Sound := by
  cases h with
  | refused hfault => exact hs
  | declined hconsent hfault hworld hcontinues hholdings =>
    exact hs.of_holdings_eq hcontinues hholdings
  | robotAdded hfault hcontrol hcontinues hholdings =>
    rename_i id commId key c
    obtain ⟨hnew, hlt⟩ := fault?_addRobot_eq_none_iff.mp hfault
    have hrobots : t.robots = s.robots.insert id _ :=
      congrArg Holdings.robots hholdings
    have hcontainers : t.containers = s.containers :=
      congrArg Holdings.containers hholdings
    apply hs.of_continues hcontinues
    · exact hholdings ▸ hs.holdings.withRobot id commId c
    · rw [hholdings]
      exact hs.manned.insert hs.holdings.endpoints_fresh rfl
        (fun _ => hcontrol.symm) nofun
    · rw [hrobots, Dict.length_insert_of_not_contains hnew]
      exact hlt
    · exact hcontainers ▸ hs.containers_le
  | robotRemoved hget hcontrol hcontinues hholdings =>
    exact hs.of_withoutRobot hget hcontinues hholdings
  | robotLost hget hcontrol hobjects hcontinues hholdings hhistory =>
    exact hs.of_withoutRobot hget hcontinues hholdings
  | containerAdded hfault hcontrol hcontinues hholdings =>
    rename_i tag commId c
    obtain ⟨hnew, hlt⟩ := fault?_addContainer_eq_none_iff.mp hfault
    have hrobots : t.robots = s.robots := congrArg Holdings.robots hholdings
    have hcontainers : t.containers = s.containers.insert tag _ :=
      congrArg Holdings.containers hholdings
    apply hs.of_continues hcontinues
    · exact hholdings ▸ hs.holdings.withContainer hnew commId c
    · rw [hholdings]
      exact hs.manned.insert hs.holdings.endpoints_fresh rfl nofun
        fun _ _ => hcontrol.symm
    · exact hrobots ▸ hs.robots_le
    · rw [hcontainers, Dict.length_insert_of_not_contains hnew]
      exact hlt
  | containerRemoved hget hcontrol hcontinues hholdings =>
    exact hs.of_withoutContainer hget hcontinues hholdings
  | containerLost hget hcontrol hobjects hcontinues hholdings hhistory =>
    exact hs.of_withoutContainer hget hcontinues hholdings
  | flagSet hfault hget hcontinues hholdings =>
    exact hs.of_withFlag hget hcontinues hholdings
  | flagUnheard hfault hget hobjects hcontinues hholdings =>
    exact hs.of_withFlag hget hcontinues hholdings
  | forwarded hfault hcommand hcontrol hcontinues hholdings =>
    exact hs.of_holdings_eq hcontinues hholdings
  | interfaceAdded hfault hget hcontinues hholdings =>
    rename_i container tag address e c
    obtain ⟨hnew, hfree⟩ := (fault?_addInterface_eq_none_iff hget).mp hfault
    have hrobots : t.robots = s.robots := congrArg Holdings.robots hholdings
    have hcontainers : t.containers = s.containers :=
      congrArg Holdings.containers hholdings
    have he := hs.holdings.container hget
    obtain ⟨connected, hrole⟩ := he.role_eq
    apply hs.of_continues hcontinues
    · exact hholdings ▸ hs.holdings.withInterface hget hnew hfree c
    · rw [hholdings]
      refine hs.manned.modify hrole he.live
        (Holdings.endpointStore_withInterface s.holdings tag e address c) rfl ?_
      rw [hrole]
      exact nofun
    · exact hrobots ▸ hs.robots_le
    · exact hcontainers ▸ hs.containers_le
  | interfaceRemoved hget hcontainer haddress hcontinues hholdings =>
    rename_i tag i container address
    have hrobots : t.robots = s.robots := congrArg Holdings.robots hholdings
    have hcontainers : t.containers = s.containers :=
      congrArg Holdings.containers hholdings
    have he := hs.holdings.container hcontainer
    obtain ⟨connected, hrole⟩ := he.role_eq
    apply hs.of_continues hcontinues
    · exact hholdings ▸ hs.holdings.withoutInterface hcontainer
        hget rfl haddress
    · rw [hholdings]
      refine hs.manned.modify hrole he.live
        (Holdings.endpointStore_withoutInterface s.holdings tag i _ address) rfl
        ?_
      rw [hrole]
      exact nofun
    · exact hrobots ▸ hs.robots_le
    · exact hcontainers ▸ hs.containers_le

end Session
end FleetControl

import FleetControl.Proofs.Session.Invariant

/-!
# The effect of refused requests

A request that is refused issues no command and leaves what the session holds,
with exceptions that the session before the request decides.  A robot or
container whose delegate refuses its end is lost: it and the interfaces on it
are gone, and its name is free again.  And a flag to which those who hear of it
object stays set.
-/

namespace FleetControl
namespace Session

open Request

variable {s t : Session} {request : Json} {ask : Ask}

/-! ## The exceptions -/

/-- The session has a robot of the name, whose delegate refuses its end. -/
def ObjectsToRobotEnd (s : Session) (id : Text) : Prop :=
  ∃ e c fault, s.robots.get? id = some e ∧ s.robotControl = some c ∧
    s.fleet.objection? c (.destroyRobot id) = some fault

/-- The session has a container of the tag, whose delegate refuses its end. -/
def ObjectsToContainerEnd (s : Session) (tag : Text) : Prop :=
  ∃ e c fault, s.containers.get? tag = some e ∧ s.containerControl = some c ∧
    s.fleet.objection? c (.destroyContainer tag) = some fault

/-- The session has a container of the tag that takes the flag, and those who
hear of it object. -/
def ObjectsToFlag (s : Session) (tag : Text) (connected : Bool) : Prop :=
  ∃ e fault, s.containers.get? tag = some e ∧
    ¬ (connected = true ∧ (s.fleet.endpoint e).connected? = some true) ∧
    s.fleet.listener.objects tag connected = some fault

/-- What is asked for is one of the exceptions: those outside refuse what the
session does not take back. -/
def LeavesTrace (s : Session) : Ask → Prop
  | .removeRobot id => s.ObjectsToRobotEnd id
  | .removeContainer tag => s.ObjectsToContainerEnd tag
  | .setConnected tag connected => s.ObjectsToFlag tag connected
  | _ => False

/-- The robot is gone because its delegate has refused its end; nothing but that
end and the refusal is logged, and a robot of its name can be added. -/
def LosesRobot (s t : Session) (id : Text) : Prop :=
  ∃ e c fault message, s.robots.get? id = some e ∧ s.robotControl = some c ∧
    s.fleet.objection? c (.destroyRobot id) = some fault ∧
    t.holdings = s.holdings.withoutRobot id e ∧
    t.fleet.history = .logged (refusalEntry .removeRobot fault) ::
      .logged ⟨.info, message⟩ :: s.fleet.history ∧
    t.robots.contains id = false ∧ t.robots.length < t.limits.robots

/-- The container is gone with the interfaces on it because its delegate has
refused its end; nothing but that end and the refusal is logged, and a container
of its tag can be added. -/
def LosesContainer (s t : Session) (tag : Text) : Prop :=
  ∃ e c fault message, s.containers.get? tag = some e ∧
    s.containerControl = some c ∧
    s.fleet.objection? c (.destroyContainer tag) = some fault ∧
    t.holdings = s.holdings.withoutContainer tag e ∧
    t.fleet.history = .logged (refusalEntry .removeContainer fault) ::
      .logged ⟨.info, message⟩ :: s.fleet.history ∧
    t.containers.contains tag = false ∧
    t.containers.length < t.limits.containers

/-- The flag of the container is set, although those who hear of it object. -/
def KeepsFlag (s t : Session) (tag : Text) (connected : Bool) : Prop :=
  ∃ e fault, s.containers.get? tag = some e ∧
    ¬ (connected = true ∧ (s.fleet.endpoint e).connected? = some true) ∧
    s.fleet.listener.objects tag connected = some fault ∧
    t.holdings = s.holdings.withFlag e connected

/-- What is left after a refused request: the trace of the exception that the
request is, and all that the session held if it is none. -/
structure RefusalEffect (s t : Session) (request : Json) : Prop where
  robot : ∀ id, request.ask? = some (.removeRobot id) →
    s.ObjectsToRobotEnd id → LosesRobot s t id
  container : ∀ tag, request.ask? = some (.removeContainer tag) →
    s.ObjectsToContainerEnd tag → LosesContainer s t tag
  flag : ∀ tag connected, request.ask? = some (.setConnected tag connected) →
    s.ObjectsToFlag tag connected → KeepsFlag s t tag connected
  unchanged : (∀ ask, request.ask? = some ask → ¬ s.LeavesTrace ask) →
    t.holdings = s.holdings

/-- A request that is none of the exceptions only has to leave what the session
holds. -/
theorem refusalEffect_of_holdings_eq
    (hnone : ∀ ask, request.ask? = some ask → ¬ s.LeavesTrace ask)
    (hholdings : t.holdings = s.holdings) : RefusalEffect s t request where
  robot := fun _ hask hobjects => absurd hobjects (hnone _ hask)
  container := fun _ hask hobjects => absurd hobjects (hnone _ hask)
  flag := fun _ _ hask hobjects => absurd hobjects (hnone _ hask)
  unchanged := fun _ => hholdings

/-- The same for a request that is read as an ask. -/
theorem refusalEffect_of_not_leavesTrace (hask : request.ask? = some ask)
    (hnone : ¬ s.LeavesTrace ask) (hholdings : t.holdings = s.holdings) :
    RefusalEffect s t request := by
  refine refusalEffect_of_holdings_eq (fun other hother => ?_) hholdings
  cases hask.symm.trans hother
  exact hnone

/-- What is left of an exception. -/
def Trace (s t : Session) : Ask → Prop
  | .removeRobot id => LosesRobot s t id
  | .removeContainer tag => LosesContainer s t tag
  | .setConnected tag connected => KeepsFlag s t tag connected
  | _ => False

/-- A request that is one of the exceptions only has to leave its trace. -/
theorem refusalEffect_of_trace (hask : request.ask? = some ask)
    (hleaves : s.LeavesTrace ask) (htrace : Trace s t ask) :
    RefusalEffect s t request := by
  have hone : ∀ {other}, request.ask? = some other → ask = other :=
    fun hother => Option.some.inj (hask.symm.trans hother)
  constructor
  · intro id hother hobjects
    cases hone hother
    exact htrace
  · intro tag hother hobjects
    cases hone hother
    exact htrace
  · intro tag connected hother hobjects
    cases hone hother
    exact htrace
  · exact fun hnone => absurd hleaves (hnone ask hask)

/-- What the session refuses by itself is none of the exceptions. -/
theorem fault?_eq_none_of_leavesTrace (h : s.LeavesTrace ask) :
    s.fault? ask = none := by
  cases ask with
  | removeRobot id =>
    obtain ⟨e, c, fault, hget, -, -⟩ := h
    simp [fault?, Dict.contains, hget]
  | removeContainer tag =>
    obtain ⟨e, c, fault, hget, -, -⟩ := h
    simp [fault?, Dict.contains, hget]
  | setConnected tag connected =>
    obtain ⟨e, fault, hget, hnew, -⟩ := h
    simp only [fault?, hget]
    exact if_neg hnew
  | _ => exact h.elim

/-- Neither is anything to which those outside have to agree first. -/
theorem not_leavesTrace_of_needsConsent (h : ask.needsConsent = true) :
    ¬ s.LeavesTrace ask := by
  cases ask with
  | addRobot robot commId => exact False.elim
  | addContainer tag commId => exact False.elim
  | graph container order => exact False.elim
  | _ => cases h

/-! ## Robots and containers that are lost -/

theorem history_conclude_error (operation : Operation) (fault : Fault)
    (t : Session) :
    (conclude operation (.error fault) t).2.fleet.history =
      .logged (refusalEntry operation fault) :: t.fleet.history :=
  rfl

theorem losesRobot (hs : s.Sound) {id : Text} {e : EndpointId} {c : ControlId}
    {fault : Fault} {message : Text} (hget : s.robots.get? id = some e)
    (hcontrol : s.robotControl = some c)
    (hobjects : s.fleet.objection? c (.destroyRobot id) = some fault)
    (hcontinues : s.Continues t [])
    (hholdings : t.holdings = s.holdings.withoutRobot id e)
    (hhistory : t.fleet.history = .logged ⟨.info, message⟩ :: s.fleet.history) :
    LosesRobot s (conclude .removeRobot (.error fault) t).2 id := by
  have hrobots : t.robots = s.robots.erase id :=
    congrArg Holdings.robots hholdings
  have hroom : t.robots.contains id = false ∧
      t.robots.length < t.limits.robots := by
    rw [hrobots, hcontinues.limits_eq]
    exact Dict.room_erase hget hs.robots_le
  refine ⟨e, c, fault, message, hget, hcontrol, hobjects, hholdings, ?_, hroom⟩
  rw [history_conclude_error, hhistory]

theorem losesContainer (hs : s.Sound) {tag : Text} {e : EndpointId}
    {c : ControlId} {fault : Fault} {message : Text}
    (hget : s.containers.get? tag = some e)
    (hcontrol : s.containerControl = some c)
    (hobjects : s.fleet.objection? c (.destroyContainer tag) = some fault)
    (hcontinues : s.Continues t [])
    (hholdings : t.holdings = s.holdings.withoutContainer tag e)
    (hhistory : t.fleet.history = .logged ⟨.info, message⟩ :: s.fleet.history) :
    LosesContainer s (conclude .removeContainer (.error fault) t).2 tag := by
  have hcontainers : t.containers = s.containers.erase tag :=
    congrArg Holdings.containers hholdings
  have hroom : t.containers.contains tag = false ∧
      t.containers.length < t.limits.containers := by
    rw [hcontainers, hcontinues.limits_eq]
    exact Dict.room_erase hget hs.containers_le
  refine ⟨e, c, fault, message, hget, hcontrol, hobjects, hholdings, ?_, hroom⟩
  rw [history_conclude_error, hhistory]

/-! ## Refused requests -/

/-- A step that ends in a fault leaves the trace of its exception, and what the
session holds if it is none. -/
theorem Step.refusalEffect (hs : s.Sound) {fault : Fault}
    (hask : request.ask? = some ask) (h : Step s ask (.error fault) t) :
    RefusalEffect s (conclude ask.operation (.error fault) t).2 request := by
  cases h with
  | refused hfault =>
    refine refusalEffect_of_not_leavesTrace hask (fun hleaves => ?_) rfl
    cases (fault?_eq_none_of_leavesTrace hleaves).symm.trans hfault
  | declined hconsent hfault hworld hcontinues hholdings =>
    exact refusalEffect_of_not_leavesTrace hask
      (not_leavesTrace_of_needsConsent hconsent) hholdings
  | robotLost hget hcontrol hobjects hcontinues hholdings hhistory =>
    exact refusalEffect_of_trace hask ⟨_, _, _, hget, hcontrol, hobjects⟩
      (losesRobot hs hget hcontrol hobjects hcontinues hholdings hhistory)
  | containerLost hget hcontrol hobjects hcontinues hholdings hhistory =>
    exact refusalEffect_of_trace hask ⟨_, _, _, hget, hcontrol, hobjects⟩
      (losesContainer hs hget hcontrol hobjects hcontinues hholdings hhistory)
  | flagUnheard hfault hget hobjects hcontinues hholdings =>
    rename_i tag e connected
    have hnew :
        ¬ (connected = true ∧ (s.fleet.endpoint e).connected? = some true) := by
      intro hagain
      simp [fault?, hget, hagain] at hfault
    exact refusalEffect_of_trace hask ⟨e, fault, hget, hnew, hobjects⟩
      ⟨e, fault, hget, hnew, hobjects, hholdings⟩

/-- A refused request issues no command and changes nothing but log, random
bytes and the counts of calls, unless it is one of the exceptions.  A robot or
container whose delegate refuses its end is always lost, and a flag to which
those who hear of it object is always kept. -/
theorem effect_of_refused_request (outside : Outside) (requests : List Json)
    (request : Json)
    (hrefused : (handle request (outside.sessionAfter requests)).1.status? =
      some (text "error")) :
    let s := outside.sessionAfter requests
    let t := (handle request s).2
    t.fleet.commands = s.fleet.commands ∧ s.Continues t [] ∧
      RefusalEffect s t request := by
  intro s t
  have hs : s.Sound := sound_sessionAfter outside requests
  have hnotOk : (handle request s).1.status? ≠ some (text "ok") := by
    rw [hrefused]
    decide
  have hcontinues : s.Continues t [] := by
    obtain ⟨commands, hcontinues, hentries⟩ := hs.handle_continues request
    have hnone : commands = [] := by
      rw [Json.entries, if_neg hnotOk] at hentries
      exact List.map_eq_nil_iff.mp hentries
    exact hnone ▸ hcontinues
  refine ⟨?_, hcontinues, ?_⟩
  · have hcommands := hcontinues.fleet.commands_eq
    rwa [List.append_nil] at hcommands
  · rcases hs.handle_cases request with
      ⟨message, u, hask, hhandle, hu⟩ | ⟨ask, result, u, hask, hstep, hhandle⟩
    · have ht : t = u := congrArg Prod.snd hhandle
      have hnone : ∀ ask, request.ask? = some ask → ¬ s.LeavesTrace ask := by
        intro ask hsome
        cases hask.symm.trans hsome
      rw [ht]
      rcases hu with rfl | ⟨entry, rfl⟩
      · exact refusalEffect_of_holdings_eq hnone rfl
      · exact refusalEffect_of_holdings_eq hnone
          (holdings_logged s .error entry)
    · cases result with
      | ok results =>
        rw [hhandle] at hnotOk
        exact absurd (status?_success ask.operation results) hnotOk
      | error fault =>
        have ht : t = (conclude ask.operation (.error fault) u).2 :=
          congrArg Prod.snd hhandle
        rw [ht]
        exact hstep.refusalEffect hs hask

/-- A user whose delegate accepts everything but an end. -/
def unyielding : Outside where
  userId := text "user"
  robotControl := some 0
  containerControl := some 0
  limits := .default
  entropy := ⟨fun _ => 0, fun _ => false, 0, 0, []⟩
  controls := Store.empty.insert
    { capabilities := [.robot, .container, .node, .parameter]
      objection := fun _ command =>
        match command with
        | .destroyRobot _ | .destroyContainer _ =>
          some (.foreign .runtime (text "busy") [])
        | _ => none
      calls := 0 }
  listener := ⟨none, false, fun _ _ _ => none, 0⟩

/-- Taking back a container from such a user is refused, and the
container is lost. -/
theorem effect_of_refused_request_unyielding :
    let adding := Json.ofEntries
      [(text "op", .str "add_container"), (text "tag", .str "c"),
        (text "comm_id", .str "c1")]
    let removing :=
      Json.ofEntries [(text "op", .str "remove_container"),
        (text "tag", .str "c")]
    let s := unyielding.sessionAfter [adding]
    let t := (handle removing s).2
    (handle removing s).1.status? = some (text "error") ∧
      t.fleet.commands = s.fleet.commands ∧ s.Continues t [] ∧
      RefusalEffect s t removing ∧ LosesContainer s t (text "c") := by
  intro adding removing s t
  have hrefused : (handle removing s).1.status? = some (text "error") := by
    decide
  obtain ⟨hcommands, hcontinues, heffect⟩ :=
    effect_of_refused_request unyielding [adding] removing hrefused
  have hobjects : s.ObjectsToContainerEnd (text "c") :=
    ⟨0, 0, .foreign .runtime (text "busy") [], by decide, rfl, rfl⟩
  exact ⟨hrefused, hcommands, hcontinues, heffect,
    heffect.container _ rfl hobjects⟩

end Session
end FleetControl

import FleetControl.Proofs.Session.Abstraction
import FleetControl.Proofs.Session.Invariant

/-!
# Sessions and registries

As long as those outside are willing, a session answers as its registry would,
and the registry of the session goes on as the registry by itself does: one step
at a time, and so for every run.
-/

namespace FleetControl
namespace Session

open Request

variable {s t : Session}

/-- The registry of a session. -/
def registry (s : Session) : Registry :=
  s.holdings.registry

/-! ## Refusals -/

/-- The class of a refusal. -/
def refusalOf (fault : Fault) : Registry.Refusal :=
  if fault.kind = .addressInUse then .addressInUse else .invalid

theorem kind_of_command_eq_error {order : Order} {fault : Fault}
    (h : order.command = .error fault) : fault.kind = .invalid := by
  cases order with
  | addNode node =>
    simp only [Order.command] at h
    split at h
    · cases h
    · cases h
      rfl
  | removeNode tag => cases h
  | addParameter name value type =>
    simp only [Order.command] at h
    split at h
    · split at h
      · cases h
        rfl
      · cases h
    · cases h
      rfl
  | removeParameter name => cases h

theorem kind_of_fault? {ask : Ask} {fault : Fault}
    (h : s.fault? ask = some fault) :
    fault.kind = .invalid ∨ fault.kind = .addressInUse := by
  cases ask with
  | graph container order =>
    simp only [fault?] at h
    split at h
    · cases h
      exact Or.inl rfl
    · next hcommand =>
      cases h
      exact Or.inl (kind_of_command_eq_error hcommand)
    · cases h
  | addInterface container tag address =>
    simp only [fault?] at h
    repeat' split at h
    all_goals cases h
    · exact Or.inl rfl
    · exact Or.inl rfl
    · exact Or.inr rfl
  | _ =>
    simp only [fault?] at h
    repeat' split at h
    all_goals cases h
    all_goals exact Or.inl rfl

/-- The answer to what a session refuses by itself names the class of
the refusal. -/
theorem answerClass_of_fault? {ask : Ask} {fault : Fault}
    (h : s.fault? ask = some fault) :
    text (answerClass fault.kind).1 = (refusalOf fault).name := by
  rcases kind_of_fault? h with hkind | hkind
  · simp [refusalOf, hkind, answerClass, Registry.Refusal.name]
  · simp [refusalOf, hkind, answerClass, Registry.Refusal.name]

/-- A session refuses by itself what its registry refuses. -/
theorem Sound.refusal?_registry (hs : s.Sound) (ask : Ask) :
    s.registry.refusal? s.limits ask = (s.fault? ask).map refusalOf := by
  have hrobots : ∀ id, id ∈ s.registry.robots ↔ s.robots.contains id = true :=
    fun _ => Holdings.mem_robots_registry
  have hcard : s.registry.robots.card = s.robots.length :=
    hs.holdings.card_robots_registry
  have hcontainers : ∀ tag,
      s.registry.containers.contains tag = s.containers.contains tag :=
    fun _ => Holdings.contains_containers_registry _
  have hlength : s.registry.containers.length = s.containers.length :=
    Holdings.length_containers_registry
  have hinterfaces : ∀ tag,
      s.registry.interfaces.contains tag = s.interfaces.contains tag :=
    fun _ => Holdings.contains_interfaces_registry _
  cases ask with
  | addRobot id commId =>
    simp only [Registry.refusal?, fault?, hrobots, hcard]
    by_cases hcontains : s.robots.contains id = true
    · simp [hcontains, refusalOf, Fault.kind]
    · by_cases hlimit : s.limits.robots ≤ s.robots.length
      · simp [hcontains, hlimit, refusalOf, Fault.kind]
      · simp [hcontains, hlimit]
  | removeRobot id =>
    simp only [Registry.refusal?, fault?, hrobots]
    by_cases hcontains : s.robots.contains id = true
    · simp [hcontains]
    · simp [hcontains, refusalOf, Fault.kind]
  | addContainer tag commId =>
    simp only [Registry.refusal?, fault?, hcontainers, hlength]
    by_cases hcontains : s.containers.contains tag = true
    · simp [hcontains, refusalOf, Fault.kind]
    · by_cases hlimit : s.limits.containers ≤ s.containers.length
      · simp [hcontains, hlimit, refusalOf, Fault.kind]
      · simp [hcontains, hlimit]
  | removeContainer tag =>
    simp only [Registry.refusal?, fault?, hcontainers]
    by_cases hcontains : s.containers.contains tag = true
    · simp [hcontains]
    · simp [hcontains, refusalOf, Fault.kind]
  | setConnected tag connected =>
    simp only [Registry.refusal?, fault?, hcontainers]
    cases hget : s.containers.get? tag with
    | none => simp [Dict.contains, hget, refusalOf, Fault.kind]
    | some e =>
      have hflag : s.registry.containers.get? tag =
          some (decide ((s.fleet.endpoint e).connected? = some true)) :=
        Holdings.get?_containers_registry hget
      by_cases hagain : connected = true ∧
        (s.fleet.endpoint e).connected? = some true
      · simp [Dict.contains, hget, hflag, hagain, refusalOf, Fault.kind]
      · simp [Dict.contains, hget, hflag, hagain]
  | graph container order =>
    simp only [Registry.refusal?, fault?, hcontainers]
    cases hget : s.containers.get? container with
    | none => simp [Dict.contains, hget, refusalOf, Fault.kind]
    | some e =>
      cases hcommand : order.command with
      | error fault =>
        simp [Dict.contains, hget, Except.isOk, Except.toBool, refusalOf,
          kind_of_command_eq_error hcommand]
      | ok command => simp [Dict.contains, hget, Except.isOk, Except.toBool]
  | addInterface container tag address =>
    simp only [Registry.refusal?, fault?, hcontainers, hinterfaces]
    by_cases hcontains : s.interfaces.contains tag = true
    · simp [hcontains, refusalOf, Fault.kind]
    · cases hget : s.containers.get? container with
      | none =>
        have hmissing : s.containers.contains container = false := by
          simp [Dict.contains, hget]
        simp [hcontains, hmissing, refusalOf, Fault.kind]
      | some e =>
        have hthere : s.containers.contains container = true := by
          simp [Dict.contains, hget]
        have htaken : s.registry.isTaken container address =
            s.fleet.isReserved e address := by
          rw [Bool.eq_iff_iff, registry, hs.holdings.isTaken_registry hget]
          simp [Fleet.isReserved]
        by_cases hreserved : s.fleet.isReserved e address = true
        · simp [hcontains, hthere, htaken, hreserved, refusalOf, Fault.kind]
        · simp [hcontains, hthere, htaken, hreserved]
  | removeInterface tag =>
    simp only [Registry.refusal?, fault?, hinterfaces]
    by_cases hcontains : s.interfaces.contains tag = true
    · simp [hcontains]
    · simp [hcontains, refusalOf, Fault.kind]

/-! ## Effects -/

theorem objection?_eq_none_of_obliging {f : Fleet} {control : Option ControlId}
    {needs : List Capability} {c : ControlId} (h : f.Obliging control needs)
    (hcontrol : control = some c) (command : Command) :
    f.objection? c command = none := by
  obtain ⟨c', capabilities, hc, hnature, -⟩ := h
  cases hcontrol.symm.trans hc
  exact Fleet.objection?_eq_none hnature command

/-- A step of a session with willing surroundings is carried out as its registry
carries it out, unless the session refuses by itself. -/
theorem Step.refines {ask : Ask} {result : Except Fault (List (Text × Json))}
    (hs : s.Sound) (hwilling : s.Willing) (h : Step s ask result t) :
    (∃ fault, result = .error fault ∧ s.fault? ask = some fault ∧ t = s) ∨
    (∃ results, result = .ok results ∧
      (Dict.ofList results).get? (text "error") = none ∧
      s.fault? ask = none ∧ t.registry = s.registry.after ask) := by
  cases h with
  | refused hfault =>
    rename_i fault
    exact Or.inl ⟨fault, rfl, hfault, rfl⟩
  | declined hconsent hfault hworld hcontinues hholdings =>
    exact absurd hwilling hworld
  | robotAdded hfault hcontrol hcontinues hholdings =>
    rename_i id commId key c
    have hresults :
        (Dict.ofList [(text "key", Json.string key)]).get?
          (text "error") = none := by
      have hne : text "error" ≠ text "key" := by decide
      simp [Dict.ofList, Dict.insert, Dict.get?, Ne.symm hne]
    refine Or.inr ⟨_, rfl, hresults, hfault, ?_⟩
    rw [registry, hholdings]
    exact hs.holdings.registry_withRobot id _
  | robotRemoved hget hcontrol hcontinues hholdings =>
    refine Or.inr ⟨[], rfl, rfl, ?_, ?_⟩
    · simp [fault?, Dict.contains, hget]
    · rw [registry, hholdings]
      exact hs.holdings.registry_withoutRobot hget
  | robotLost hget hcontrol hobjects hcontinues hholdings hhistory =>
    rw [objection?_eq_none_of_obliging hwilling.robot hcontrol] at hobjects
    cases hobjects
  | containerAdded hfault hcontrol hcontinues hholdings =>
    rename_i tag commId c
    refine Or.inr ⟨[], rfl, rfl, hfault, ?_⟩
    rw [registry, hholdings]
    exact hs.holdings.registry_withContainer tag commId (some c)
  | containerRemoved hget hcontrol hcontinues hholdings =>
    refine Or.inr ⟨[], rfl, rfl, ?_, ?_⟩
    · simp [fault?, Dict.contains, hget]
    · rw [registry, hholdings]
      exact hs.holdings.registry_withoutContainer hget
  | containerLost hget hcontrol hobjects hcontinues hholdings hhistory =>
    rw [objection?_eq_none_of_obliging hwilling.container hcontrol] at hobjects
    cases hobjects
  | flagSet hfault hget hcontinues hholdings =>
    rename_i tag e connected
    refine Or.inr ⟨[], rfl, rfl, hfault, ?_⟩
    rw [registry, hholdings]
    exact hs.holdings.registry_withFlag hget connected
  | flagUnheard hfault hget hobjects hcontinues hholdings =>
    unfold Listener.objects at hobjects
    split at hobjects
    · next hhears =>
      rw [hwilling.listener hhears] at hobjects
      cases hobjects
    · cases hobjects
  | forwarded hfault hcommand hcontrol hcontinues hholdings =>
    refine Or.inr ⟨[], rfl, rfl, hfault, ?_⟩
    rw [registry, hholdings]
    rfl
  | interfaceAdded hfault hget hcontinues hholdings =>
    rename_i container tag address e c
    refine Or.inr ⟨[], rfl, rfl, hfault, ?_⟩
    rw [registry, hholdings]
    exact hs.holdings.registry_withInterface hget tag address c
  | interfaceRemoved hget hcontainer haddress hcontinues hholdings =>
    rename_i tag i container address
    refine Or.inr ⟨[], rfl, rfl, ?_, ?_⟩
    · simp [fault?, Dict.contains, hget]
    · rw [registry, hholdings]
      exact hs.holdings.registry_withoutInterface hcontainer hget address

/-- A request is answered by a session as by its registry, and the registry of
the session goes on as the registry by itself does. -/
theorem Sound.handle_refines (hs : s.Sound) (hwilling : s.Willing)
    (request : Json) :
    ((Session.handle request s).1.status?,
      (Session.handle request s).1.errorClass?) =
        Registry.shown (s.registry.answer s.limits request).1 ∧
      (Session.handle request s).2.registry =
        (s.registry.answer s.limits request).2 := by
  rcases hs.handle_cases request with
    ⟨message, t, hask, hhandle, ht⟩ | ⟨ask, result, t, hask, hstep, hhandle⟩
  · have hregistry : t.registry = s.registry := by
      rcases ht with rfl | ⟨entry, rfl⟩
      · rfl
      · rfl
    rw [hhandle, Registry.answer, hask]
    simp [Registry.shown, Registry.Refusal.name, hregistry]
  · have hrefusal := hs.refusal?_registry ask
    rw [hhandle, Registry.answer, hask]
    rcases hstep.refines hs hwilling with
      ⟨fault, rfl, hfault, rfl⟩ | ⟨results, rfl, hresults, hfault, hregistry⟩
    · simp only [hfault, Option.map_some] at hrefusal
      simp only [hrefusal, conclude, Registry.shown, status?_refusal,
        errorClass?_refusal, answerClass_of_fault? hfault, true_and]
      rfl
    · simp only [hfault, Option.map_none] at hrefusal
      simp only [hrefusal, conclude, Registry.shown, status?_success,
        errorClass?_success ask.operation hresults, hregistry, and_self]

/-! ## Runs -/

/-- Requests are answered by a session as by its registry, one after
the other. -/
theorem Sound.handleEach_refines (hs : s.Sound) (hwilling : s.Willing)
    (requests : List Json) :
    (Session.handleEach requests s).1.map
      (fun answer => (answer.status?, answer.errorClass?)) =
        (Registry.run s.limits requests s.registry).1.map Registry.shown ∧
      (Session.handleEach requests s).2.registry =
        (Registry.run s.limits requests s.registry).2 := by
  induction requests generalizing s with
  | nil => exact ⟨rfl, rfl⟩
  | cons request rest ih =>
    obtain ⟨hanswer, hregistry⟩ := hs.handle_refines hwilling request
    obtain ⟨commands, hcontinues, -⟩ := hs.handle_continues request
    obtain ⟨hanswers, hlater⟩ :=
      ih (hs.handle request) (hcontinues.willing hwilling)
    rw [hcontinues.limits_eq, hregistry] at hanswers hlater
    rw [handleEach_cons, Registry.run]
    refine ⟨?_, hlater⟩
    rw [List.map_cons, List.map_cons, hanswer, hanswers]

/-- With willing surroundings a session and the registry that starts empty
answer all requests alike, by status and class of error, and the registry is
what the session holds: its robots, containers and interfaces, and for each
container the addresses that are reserved there. -/
theorem answers_as_registry (outside : Outside)
    (hwilling : outside.newSession.Willing) (requests : List Json) :
    let s := outside.sessionAfter requests
    let expected := Registry.run outside.limits requests .empty
    (handleEach requests outside.newSession).1.map
        (fun answer => (answer.status?, answer.errorClass?)) =
          expected.1.map Registry.shown ∧ s.registry = expected.2 ∧
      ∀ container e, s.containers.get? container = some e → ∀ address,
        address ∈ (s.fleet.endpoint e).addresses ↔
          ∃ tag, expected.2.interfaces.get? tag =
            some (container, address) := by
  intro s expected
  obtain ⟨hanswers, hregistry⟩ :=
    (sound_newSession outside).handleEach_refines hwilling requests
  have hs : s.Sound := sound_sessionAfter outside requests
  refine ⟨hanswers, hregistry, ?_⟩
  intro container e hget address
  have hexpected : expected.2 = s.holdings.registry := hregistry.symm
  rw [hexpected]
  exact hs.holdings.mem_addresses_iff hget address

/-- A user whose delegate accepts everything. -/
def obliging : Outside where
  userId := text "user"
  robotControl := some 0
  containerControl := some 0
  limits := .default
  entropy := ⟨fun _ => 0, fun _ => false, 0, 0, []⟩
  controls := Store.empty.insert
    ⟨[.robot, .container, .node, .parameter], fun _ _ => none, 0⟩
  listener := ⟨none, false, fun _ _ _ => none, 0⟩

theorem willing_obliging : obliging.newSession.Willing where
  robot := ⟨0, [.robot, .container, .node, .parameter], rfl, rfl, by decide⟩
  container := ⟨0, [.robot, .container, .node, .parameter], rfl, rfl, by decide⟩
  entropy := fun _ => rfl
  keyBytes_pos := by decide
  keyBytes_le := by decide
  listener := nofun

/-- The address of a container is taken until the container is gone, and free on
a new container of the same tag. -/
theorem answers_as_registry_obliging :
    let container (op : String) := Json.ofEntries
      [(text "op", .str op), (text "tag", .str "c"),
        (text "comm_id", .str "c1")]
    let interface (tag : String) := Json.ofEntries
      [(text "op", .str "add_interface"), (text "container", .str "c"),
        (text "tag", .str tag), (text "addr", .str "/a")]
    let requests := [container "add_container", interface "i", interface "j",
      container "remove_container", container "add_container", interface "j"]
    let s := obliging.sessionAfter requests
    let expected := Registry.run .default requests .empty
    obliging.newSession.Willing ∧
      expected.1 = [none, none, some .addressInUse, none, none, none] ∧
      (handleEach requests obliging.newSession).1.map
          (fun answer => (answer.status?, answer.errorClass?)) =
            expected.1.map Registry.shown ∧ s.registry = expected.2 ∧
        ∀ container e, s.containers.get? container = some e → ∀ address,
          address ∈ (s.fleet.endpoint e).addresses ↔
            ∃ tag, expected.2.interfaces.get? tag = some (container, address) :=
  ⟨willing_obliging, by decide, answers_as_registry obliging willing_obliging _⟩

end Session
end FleetControl

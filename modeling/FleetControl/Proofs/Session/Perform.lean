import FleetControl.Proofs.Fleet.Interfaces
import FleetControl.Proofs.Session.Local

/-!
# What is asked of a session

Whatever is asked of a sound session comes to one of the steps.  What is asked
about one container is also answered and settled as the state alone decides.
-/

namespace FleetControl

namespace Entropy

variable {n : Nat} {source : Entropy}

/-- Keys can have this many bytes: at least one, and at most what a number of 31
bits can tell. -/
def IsKeyLength (n : Nat) : Prop :=
  0 < n ∧ (n : Int) ≤ Int32.maxValue.toInt

/-- The bytes of the stream from a place on. -/
def bytes (source : Entropy) (start n : Nat) : Text :=
  (List.range n).map fun k => source.stream (start + k)

/-- The source after a call that has failed. -/
def failed (source : Entropy) : Entropy :=
  { source with calls := source.calls + 1 }

/-- The source after a call that has taken bytes. -/
def drawn (source : Entropy) (n : Nat) : Entropy :=
  { source with calls := source.calls + 1, taken := source.taken + n }

theorem run_newKey_of_not_isKeyLength (h : ¬ IsKeyLength n) (source : Entropy) :
    Act.run (newKey n) source = (.error (.keyLength n), source) := by
  have hlength : n = 0 ∨ Int32.maxValue.toInt < n := by
    unfold IsKeyLength at h
    omega
  simp [newKey, hlength]

theorem run_newKey_of_fails (h : IsKeyLength n)
    (hfails : source.fails source.calls = true) :
    Act.run (newKey n) source =
      (.error (.noRandomness source.reason), source.failed) := by
  have hlength : ¬ (n = 0 ∨ Int32.maxValue.toInt < n) := by
    unfold IsKeyLength at h
    omega
  simp [newKey, draw, Act.run_bind, hlength, hfails, failed]

theorem run_newKey_of_not_fails (h : IsKeyLength n)
    (hfails : source.fails source.calls = false) :
    Act.run (newKey n) source =
      (.ok (Text.hex (source.bytes source.taken n)), source.drawn n) := by
  have hlength : ¬ (n = 0 ∨ Int32.maxValue.toInt < n) := by
    unfold IsKeyLength at h
    omega
  simp [newKey, draw, Act.run_bind, hlength, hfails, drawn, block, bytes]

end Entropy

namespace Session

variable {s t u : Session} {id : Text}

/-- The session after a log entry. -/
def logged (s : Session) (level : Log.Level) (message : Text) : Session :=
  { s with fleet := s.fleet.log level message }

theorem continues_logged (s : Session) (level : Log.Level) (message : Text) :
    s.Continues (s.logged level message) [] :=
  continues_of_fleet (Fleet.continues_log s.fleet level message) _ _ _

theorem holdings_logged (s : Session) (level : Log.Level) (message : Text) :
    (s.logged level message).holdings = s.holdings :=
  rfl

@[simp]
theorem run_note (level : Log.Level) (message : Text) (s : Session) :
    Act.run (note level message) s = (.ok (), s.logged level message) :=
  rfl

@[simp]
theorem run_onFleet {α : Type} (act : Act Fleet α) (s : Session) :
    Act.run (onFleet act) s =
      ((Act.run act s.fleet).1, { s with fleet := (Act.run act s.fleet).2 }) :=
  rfl

@[simp]
theorem run_onEntropy {α : Type} (act : Act Entropy α) (s : Session) :
    Act.run (onEntropy act) s =
      ((Act.run act s.entropy).1, { s with
        entropy := (Act.run act s.entropy).2 }) :=
  rfl

theorem run_ensureActive (h : s.destroyed = false) :
    Act.run ensureActive s = (.ok (), s) := by
  simp [ensureActive, Act.run_bind, h]

/-- What is asked of the session comes to a step. -/
def Performs (s : Session) (ask : Ask) : Prop :=
  ∃ result t, Act.run ask.perform s = (result, t) ∧ Step s ask result t

/-- What is asked of the session comes to a step that its state decides. -/
def PerformsLocally (s : Session) (ask : Ask) : Prop :=
  ∃ result t, Act.run ask.perform s = (result, t) ∧ Step s ask result t ∧
    Settles s ask result t

/-! ## Robots -/

/-- A key can be made unless the random bytes fail or its length is
not valid. -/
theorem run_newKey (n : Nat) (source : Entropy) :
    ∃ result rest, Act.run (Entropy.newKey n) source = (result, rest) ∧
      rest.stream = source.stream ∧ rest.fails = source.fails ∧
      ((∃ key, result = .ok key) ∨
        ∃ fault, result = .error fault ∧
          ¬ ((∀ k, source.fails k = false) ∧ Entropy.IsKeyLength n)) := by
  by_cases hlength : Entropy.IsKeyLength n
  · cases hfails : source.fails source.calls with
    | true =>
      refine ⟨_, _, Entropy.run_newKey_of_fails hlength hfails, rfl, rfl,
        Or.inr ⟨_, rfl, ?_⟩⟩
      rintro ⟨hnever, -⟩
      simp [hnever] at hfails
    | false =>
      exact ⟨_, _, Entropy.run_newKey_of_not_fails hlength hfails, rfl, rfl,
        Or.inl ⟨_, rfl⟩⟩
  · refine ⟨_, _, Entropy.run_newKey_of_not_isKeyLength hlength source, rfl,
      rfl, Or.inr ⟨_, rfl, ?_⟩⟩
    rintro ⟨-, hvalid⟩
    exact hlength hvalid

/-- A robot of the name is admitted: the session is active and has neither such
a robot nor as many robots as it may have. -/
def Admits (s : Session) (id : Text) : Prop :=
  s.destroyed = false ∧ s.robots.contains id = false ∧
    s.robots.length < s.limits.robots

instance (s : Session) (id : Text) : Decidable (s.Admits id) :=
  inferInstanceAs (Decidable (_ ∧ _ ∧ _))

theorem run_addRobot_of_not_admits (h : ¬ s.Admits id) (commId : Text) :
    ∃ fault, Act.run (addRobot id commId) s = (.error fault, s) := by
  cases hdestroyed : s.destroyed with
  | true =>
    exact ⟨.sessionDestroyed s.userId, by
      simp [addRobot, ensureActive, Act.run_bind, hdestroyed]⟩
  | false =>
    have hactive := run_ensureActive hdestroyed
    cases hthere : s.robots.contains id with
    | true =>
      exact ⟨.robotExists id, by simp [addRobot, Act.run_bind, hactive, hthere]⟩
    | false =>
      have hfull : s.limits.robots ≤ s.robots.length :=
        Nat.not_lt.mp fun hroom => h ⟨hdestroyed, hthere, hroom⟩
      exact ⟨.robotLimit s.limits.robots,
        by simp [addRobot, Act.run_bind, hactive, hthere, hfull]⟩

/-- An admitted robot gets a key first, and then its delegate is asked. -/
theorem run_addRobot (h : s.Admits id) (commId : Text) :
    Act.run (addRobot id commId) s =
      match Act.run (Entropy.newKey s.limits.keyBytes) s.entropy with
      | (.error fault, source) => (.error fault, { s with entropy := source })
      | (.ok key, source) =>
        match Act.run (Fleet.newRobot true id commId key s.robotControl)
          s.fleet with
        | (.error fault, f) =>
          (.error fault, { s with entropy := source, fleet := f })
        | (.ok e, f) =>
          let t : Session := { s with
            robots := s.robots.insert id e
            entropy := source
            fleet := f }
          (.ok key, t.logged .info
            (s.remark (text "added robot " ++ id.quoted))) := by
  obtain ⟨hactive, hnew, hlt⟩ := h
  have hroom : ¬ s.limits.robots ≤ s.robots.length := Nat.not_le.mpr hlt
  rcases hkey : Act.run (Entropy.newKey s.limits.keyBytes) s.entropy with
      ⟨fault | key, source⟩
  · simp [addRobot, Act.run_bind, run_ensureActive hactive, hnew, hroom, hkey]
  · rcases hrobot :
        Act.run (Fleet.newRobot true id commId key s.robotControl) s.fleet with
      ⟨fault | e, f⟩
    · simp [addRobot, Act.run_bind, run_ensureActive hactive, hnew, hroom, hkey,
        hrobot]
    · simp [addRobot, Act.run_bind, run_ensureActive hactive, hnew, hroom, hkey,
        hrobot]

theorem performs_addRobot (hs : s.Sound) (id commId : Text) :
    s.Performs (.addRobot id commId) := by
  cases hfault : s.fault? (.addRobot id commId) with
  | some fault =>
    refine ⟨.error fault, s, ?_, .refused hfault⟩
    simp only [fault?] at hfault
    split at hfault
    · next hcontains =>
      cases hfault
      simp [Ask.perform, addRobot, Act.run_bind, run_ensureActive hs.active,
        hcontains]
    · next hcontains =>
      split at hfault
      · next hlimit =>
        cases hfault
        simp [Ask.perform, addRobot, Act.run_bind, run_ensureActive hs.active,
          hcontains, hlimit]
      · cases hfault
  | none =>
    have hrun :=
      run_addRobot ⟨hs.active, fault?_addRobot_eq_none_iff.mp hfault⟩ commId
    obtain ⟨result, source, hkey, hstream, hfails, ⟨key, rfl⟩ |
      ⟨fault, rfl, hunfit⟩⟩ :=
      run_newKey s.limits.keyBytes s.entropy
    · rcases Fleet.run_newRobot true id commId key s.robotControl s.fleet with
        ⟨c, g, hcontrol, -, hrobot, hcontinues, hinterfaces, hendpoints⟩ |
        ⟨fault, g, hnot, hrobot, hcontinues, hsame⟩
      · let t : Session := { s with
          robots := s.robots.insert id s.fleet.endpoints.next
          entropy := source
          fleet := g }
        refine ⟨.ok [(text "key", .string key)], t.logged .info
          (s.remark (text "added robot " ++ id.quoted)), ?_,
          .robotAdded hfault hcontrol ?_ ?_⟩
        · simp [Ask.perform, hrun, hkey, hrobot, t]
        · have ht : s.Continues t [(c, .createRobot id key)] :=
            ⟨rfl, rfl, rfl, rfl, rfl, hstream, hfails, hcontinues⟩
          exact ht.trans_right (continues_logged t _ _)
        · rw [holdings_logged]
          simp [holdings, t, Holdings.withRobot, hinterfaces, hendpoints]
      · refine ⟨.error fault, { s with entropy := source, fleet := g }, ?_,
          .declined rfl hfault ?_ ?_ ?_⟩
        · simp [Ask.perform, hrun, hkey, hrobot]
        · exact fun hwilling => hnot hwilling.robot
        · exact ⟨rfl, rfl, rfl, rfl, rfl, hstream, hfails, hcontinues⟩
        · simp [holdings, hsame.endpoints_eq, hsame.interfaces_eq]
    · refine ⟨.error fault, { s with entropy := source }, ?_,
        .declined rfl hfault ?_ ?_ rfl⟩
      · simp [Ask.perform, hrun, hkey]
      · intro hwilling
        exact hunfit
          ⟨hwilling.entropy, hwilling.keyBytes_pos, hwilling.keyBytes_le⟩
      · exact ⟨rfl, rfl, rfl, rfl, rfl, hstream, hfails,
          Fleet.Continues.refl s.fleet⟩

/-! ## Forgetting an endpoint -/

theorem endpoint_of_mem_interfacesOn {e : EndpointId} {i : InterfaceId}
    (hi : i ∈ s.holdings.interfacesOn e) :
    (s.fleet.interface i).endpoint = e := by
  obtain ⟨entry, hentry, rfl⟩ := List.mem_map.mp hi
  exact of_decide_eq_true (List.mem_filter.mp hentry).2

theorem fleet_dropInterfacesOf (s : Session) (e : EndpointId) :
    (s.dropInterfacesOf e).fleet =
      s.fleet.dropAll (s.holdings.interfacesOn e) := by
  simp only [dropInterfacesOf, Fleet.dropAll, Holdings.interfacesOn,
    List.foldl_map]
  rfl

theorem interfaces_dropInterfacesOf (s : Session) (e : EndpointId) :
    (s.dropInterfacesOf e).interfaces =
      s.interfaces.filter fun entry =>
        (s.fleet.interface entry.2).endpoint ≠ e := by
  simp only [dropInterfacesOf, decide_not]

/-- Forgetting an endpoint leaves no trace of it and of the session's interfaces
on it, and writes no event. -/
theorem forget_eq (s : Session) (e : EndpointId) :
    s.Continues (s.forget e) [] ∧ (s.forget e).holdings = s.holdings.without e ∧
      (s.forget e).fleet.history = s.fleet.history := by
  obtain ⟨hcontrols, hlistener, hhistory, herase, hrestrict⟩ :=
    Fleet.dropAll_eq fun i hi =>
      Or.inr (endpoint_of_mem_interfacesOn (s := s) (e := e) hi)
  have hforget : s.forget e =
      { s with
        interfaces :=
          s.interfaces.filter fun entry =>
            (s.fleet.interface entry.2).endpoint ≠ e
        fleet :=
          (s.fleet.dropAll (s.holdings.interfacesOn e)).dropEndpoint e } := by
    rw [← fleet_dropInterfacesOf, ← interfaces_dropInterfacesOf]
    rfl
  refine ⟨?_, ?_, ?_⟩
  · rw [hforget]
    have hdropped : Fleet.Continues s.fleet
        ((s.fleet.dropAll (s.holdings.interfacesOn e)).dropEndpoint e) [] :=
      Fleet.continues_of_eq hcontrols hlistener hhistory
    exact continues_of_fleet hdropped _ _ _
  · rw [hforget]
    simp only [holdings, Fleet.dropEndpoint] at herase hrestrict ⊢
    rw [herase, hrestrict]
    rfl
  · rw [hforget]
    exact hhistory

/-- An endpoint is forgotten whether its end is accepted or refused. -/
theorem run_retire (e : EndpointId) (s : Session) :
    Act.run (retire e) s =
      ((Act.run (Fleet.destroyEndpoint e) s.fleet).1,
        Session.forget
          { s with fleet := (Act.run (Fleet.destroyEndpoint e) s.fleet).2 }
          e) := by
  rw [retire, Act.run_bind, Act.run_tryCatch, run_onFleet]
  rcases Act.run (Fleet.destroyEndpoint e) s.fleet with ⟨fault | _, g⟩
  · rfl
  · rfl

/-- The endpoint is ready for its end, and its interfaces are the session's. -/
structure Retirable (s : Session) (e : EndpointId) (c : ControlId)
    (message : Text) (command : Command) : Prop where
  ready : s.fleet.Ready e c message command
  on : ∀ i ∈ (s.fleet.endpoint e).registered, i ∈ s.holdings.interfacesOn e

/-- An endpoint is gone with the session's interfaces on it, whether its
delegate accepts its end or refuses it. -/
theorem Retirable.run {e : EndpointId} {c : ControlId} {message : Text}
    {command : Command} (h : s.Retirable e c message command) :
    (∃ fault t, s.fleet.objection? c command = some fault ∧
      Act.run (retire e) s = (.error fault, t) ∧ s.Continues t [] ∧
      t.holdings = s.holdings.without e ∧
      t.fleet.history = .logged ⟨.info, message⟩ :: s.fleet.history) ∨
    (∃ t, Act.run (retire e) s = (.ok (), t) ∧ s.Continues t [(c, command)] ∧
      t.holdings = s.holdings.without e) := by
  rcases Fleet.run_destroyEndpoint h.ready with
    ⟨fault, hobjects, hrun⟩ | ⟨g, haccepts, hrun, hchanges⟩
  · let t : Session := { s with fleet := s.fleet.asked message c }
    obtain ⟨hforget, hholdings, hhistory⟩ := forget_eq t e
    have ht : s.Continues t [] :=
      continues_of_fleet (Fleet.continues_asked s.fleet message c) _ _ _
    refine Or.inl ⟨fault, t.forget e, hobjects, ?_, ht.trans_left hforget,
      hholdings, hhistory⟩
    rw [run_retire, hrun]
  · let t : Session := { s with fleet := g }
    obtain ⟨hforget, hholdings, -⟩ := forget_eq t e
    have ht : s.Continues t [(c, command)] := by
      apply continues_of_fleet
      exact (Fleet.continues_granted message haccepts).trans_right
        hchanges.continues
    refine Or.inr ⟨t.forget e, ?_, ht.trans_right hforget, ?_⟩
    · rw [run_retire, hrun]
    · have hhome : ∀ i, (g.interface i).endpoint =
          (s.fleet.interface i).endpoint :=
        hchanges.home_eq
      have hids : t.holdings.interfacesOn e = s.holdings.interfacesOn e := by
        simp only [Holdings.interfacesOn, Holdings.interface_holdings, t, hhome]
        rfl
      have hrestrict :
          g.interfaces.restrict (fun i => i ∉ s.holdings.interfacesOn e) =
            s.fleet.interfaces.restrict
              fun i => i ∉ s.holdings.interfacesOn e := by
        apply Store.restrict_eq_of_imp hchanges.restrict_eq
        intro i hi
        simp only [decide_eq_true_eq] at hi ⊢
        exact fun hmem => hi (h.on i hmem)
      have herase : g.endpoints.erase e = s.fleet.endpoints.erase e :=
        hchanges.erase_eq
      rw [hholdings]
      simp only [Holdings.without, hids, Holdings.interface_holdings, t, hhome]
      simp only [holdings] at hrestrict ⊢
      rw [hrestrict, herase]
      rfl

/-- A robot of a sound session is ready for its end. -/
theorem Sound.ready_robot (hs : s.Sound) {id : Text} {e : EndpointId}
    (hget : s.robots.get? id = some e) :
    ∃ c message, s.robotControl = some c ∧
      s.fleet.Ready e c message (.destroyRobot id) := by
  have he := hs.holdings.robot hget
  obtain ⟨c, hcontrol⟩ := Fleet.exists_control he.live
  have hrole : (s.fleet.endpoint e).role = .robot := he.role_eq
  have huid : (s.fleet.endpoint e).uid = id := he.uid_eq
  have hregistered : (s.fleet.endpoint e).registered = [] := he.registered_eq
  refine ⟨c, text "[RobotProxy] Destroy robot " ++ id.quoted,
    (hs.manned.robot e hrole).symm.trans hcontrol, ?_⟩
  constructor
  · exact hcontrol
  · simp [Endpoint.farewell?, hrole, huid]
  · simp [hregistered]
  · simp [Fleet.Tame, hregistered]

theorem Sound.ready_container (hs : s.Sound) {tag : Text} {e : EndpointId}
    (hget : s.containers.get? tag = some e) :
    ∃ c message, s.containerControl = some c ∧
      s.fleet.Ready e c message (.destroyContainer tag) := by
  have he := hs.holdings.container hget
  obtain ⟨c, hcontrol⟩ := Fleet.exists_control he.live
  obtain ⟨connected, hconnected⟩ := he.role_eq
  have hrole : (s.fleet.endpoint e).role = .container connected := hconnected
  have huid : (s.fleet.endpoint e).uid = tag := he.uid_eq
  refine ⟨c,
    text "[ContainerProxy] Stop container "
      ++ (s.fleet.endpoint e).commId.quoted ++ text ".",
    (hs.manned.container e connected hrole).symm.trans hcontrol, ?_⟩
  constructor
  · exact hcontrol
  · simp [Endpoint.farewell?, hrole, huid]
  · exact he.registered_nodup
  · intro i hi
    obtain ⟨⟨t, ht⟩, hhome⟩ := (he.mem_registered i).mp hi
    have hinterface := hs.holdings.interface ht
    exact ⟨hinterface.live, hhome, hinterface.address⟩

theorem Sound.retirable_robot (hs : s.Sound) {id : Text} {e : EndpointId}
    (hget : s.robots.get? id = some e) :
    ∃ c message, s.robotControl = some c ∧
      ({ s with robots := s.robots.erase id } : Session).Retirable e c message
        (.destroyRobot id) := by
  obtain ⟨c, message, hcontrol, hready⟩ := hs.ready_robot hget
  have hregistered : (s.fleet.endpoint e).registered = [] :=
    (hs.holdings.robot hget).registered_eq
  refine ⟨c, message, hcontrol, hready, ?_⟩
  simp [hregistered]

theorem Sound.retirable_container (hs : s.Sound) {tag : Text} {e : EndpointId}
    (hget : s.containers.get? tag = some e) :
    ∃ c message, s.containerControl = some c ∧
      ({ s with containers := s.containers.erase tag } : Session).Retirable e c
        message (.destroyContainer tag) := by
  obtain ⟨c, message, hcontrol, hready⟩ := hs.ready_container hget
  refine ⟨c, message, hcontrol, hready, ?_⟩
  intro i hi
  exact hs.holdings.mem_interfacesOn.mpr
    (((hs.holdings.container hget).mem_registered i).mp hi)

theorem performs_removeRobot (hs : s.Sound) (id : Text) :
    s.Performs (.removeRobot id) := by
  cases hget : s.robots.get? id with
  | none =>
    refine ⟨.error (.noRobot id), s, ?_, .refused ?_⟩
    · simp [Ask.perform, removeRobot, robot, Act.run_bind,
        run_ensureActive hs.active, hget]
    · simp [fault?, Dict.contains, hget]
  | some e =>
    obtain ⟨c, message, hcontrol, hretirable⟩ := hs.retirable_robot hget
    have herased :=
      s.continues_of_fleet (Fleet.Continues.refl s.fleet) (s.robots.erase id)
        s.containers s.interfaces
    rcases hretirable.run with
      ⟨fault, t, hobjects, hrun, hcontinues, hholdings, hhistory⟩ |
        ⟨t, hrun, hcontinues, hholdings⟩
    · refine ⟨.error fault, t, ?_,
        .robotLost hget hcontrol hobjects (herased.trans_left hcontinues)
          hholdings hhistory⟩
      simp [Ask.perform, removeRobot, robot, Act.run_bind,
        run_ensureActive hs.active, hget, hrun]
    · have ht :=
        (herased.trans_left hcontinues).trans_right (continues_logged t .info
          (t.remark (text "removed robot " ++ id.quoted)))
      refine ⟨.ok [], _, ?_, .robotRemoved hget hcontrol ht hholdings⟩
      simp [Ask.perform, removeRobot, robot, Act.run_bind,
        run_ensureActive hs.active, hget, hrun]

/-! ## Containers -/

theorem performs_addContainer (hs : s.Sound) (tag commId : Text) :
    s.Performs (.addContainer tag commId) := by
  cases hfault : s.fault? (.addContainer tag commId) with
  | some fault =>
    refine ⟨.error fault, s, ?_, .refused hfault⟩
    simp only [fault?] at hfault
    split at hfault
    · next hcontains =>
      cases hfault
      simp [Ask.perform, addContainer, Act.run_bind, run_ensureActive hs.active,
        hcontains]
    · next hcontains =>
      split at hfault
      · next hlimit =>
        cases hfault
        simp [Ask.perform, addContainer, Act.run_bind,
          run_ensureActive hs.active, hcontains, hlimit]
      · cases hfault
  | none =>
    obtain ⟨hnew, hlt⟩ := fault?_addContainer_eq_none_iff.mp hfault
    have hroom : ¬ s.limits.containers ≤ s.containers.length :=
      Nat.not_le.mpr hlt
    rcases Fleet.run_newContainer true tag commId
      s.containerControl s.fleet with
      ⟨c, g, hcontrol, -, hrun, hcontinues, hinterfaces, hendpoints⟩ |
      ⟨fault, g, hnot, hrun, hcontinues, hsame⟩
    · let t : Session := { s with
        containers := s.containers.insert tag s.fleet.endpoints.next
        fleet := g }
      have ht : s.Continues t [(c, .createContainer tag commId)] :=
        continues_of_fleet hcontinues _ _ _
      refine ⟨.ok [], t.logged .info
        (s.remark (text "added container " ++ tag.quoted)), ?_,
        .containerAdded hfault hcontrol
          (ht.trans_right (continues_logged t _ _)) ?_⟩
      · simp [Ask.perform, addContainer, Act.run_bind,
          run_ensureActive hs.active, hnew, hroom, hrun, t]
      · rw [holdings_logged]
        simp [holdings, t, Holdings.withContainer, hinterfaces, hendpoints]
    · refine ⟨.error fault, { s with fleet := g }, ?_,
        .declined rfl hfault ?_ (continues_of_fleet hcontinues _ _ _) ?_⟩
      · simp [Ask.perform, addContainer, Act.run_bind,
          run_ensureActive hs.active, hnew, hroom, hrun]
      · exact fun hwilling => hnot hwilling.container
      · simp [holdings, hsame.endpoints_eq, hsame.interfaces_eq]

theorem performs_removeContainer (hs : s.Sound) (tag : Text) :
    s.Performs (.removeContainer tag) := by
  cases hget : s.containers.get? tag with
  | none =>
    refine ⟨.error (.noContainer tag), s, ?_, .refused ?_⟩
    · simp [Ask.perform, removeContainer, run_container, Act.run_bind,
        run_ensureActive hs.active, hget]
    · simp [fault?, Dict.contains, hget]
  | some e =>
    obtain ⟨c, message, hcontrol, hretirable⟩ := hs.retirable_container hget
    have herased := s.continues_of_fleet (Fleet.Continues.refl s.fleet) s.robots
      (s.containers.erase tag) s.interfaces
    rcases hretirable.run with
      ⟨fault, t, hobjects, hrun, hcontinues, hholdings, hhistory⟩ |
        ⟨t, hrun, hcontinues, hholdings⟩
    · refine ⟨.error fault, t, ?_,
        .containerLost hget hcontrol hobjects (herased.trans_left hcontinues)
          hholdings hhistory⟩
      simp [Ask.perform, removeContainer, run_container, Act.run_bind,
        run_ensureActive hs.active, hget, hrun]
    · have ht :=
        (herased.trans_left hcontinues).trans_right (continues_logged t .info
          (t.remark (text "removed container " ++ tag.quoted)))
      refine ⟨.ok [], _, ?_, .containerRemoved hget hcontrol ht hholdings⟩
      simp [Ask.perform, removeContainer, run_container, Act.run_bind,
        run_ensureActive hs.active, hget, hrun]

theorem Sound.exists_control (hs : s.Sound) {tag : Text} {e : EndpointId}
    (hget : s.containers.get? tag = some e) :
    ∃ c, s.containerControl = some c ∧
      (s.fleet.endpoint e).control = some c := by
  have he := hs.holdings.container hget
  obtain ⟨connected, hrole⟩ := he.role_eq
  obtain ⟨c, hcontrol⟩ := Fleet.exists_control he.live
  exact ⟨c, (hs.manned.container e connected hrole).symm.trans hcontrol,
    hcontrol⟩

theorem performs_setConnected (hs : s.Sound) (tag : Text) (connected : Bool) :
    s.PerformsLocally (.setConnected tag connected) := by
  cases hget : s.containers.get? tag with
  | none =>
    have hfault : s.fault? (.setConnected tag connected) =
        some (.noContainer tag) := by
      simp [fault?, hget]
    refine ⟨.error (.noContainer tag), s, ?_, .refused hfault, .refused hfault⟩
    simp [Ask.perform, run_container, Act.run_bind, hget]
  | some e =>
    have he := hs.holdings.container hget
    have huid : (s.fleet.endpoint e).uid = tag := he.uid_eq
    obtain ⟨c, -, hcontrol⟩ := hs.exists_control hget
    have hrun := Fleet.run_setConnected hcontrol he.owned connected
    by_cases hagain : connected = true ∧
      (s.fleet.endpoint e).connected? = some true
    · rw [if_pos hagain] at hrun
      have hfault : s.fault? (.setConnected tag connected) =
          some (.alreadyConnected (s.fleet.endpoint e).uid) := by
        simp [fault?, hget, hagain]
      refine ⟨.error (.alreadyConnected (s.fleet.endpoint e).uid), s, ?_,
        .refused hfault, .refused hfault⟩
      simp [Ask.perform, run_container, Act.run_bind, hget, hrun]
    · rw [if_neg hagain, huid] at hrun
      let g :=
        ((s.fleet.withFlag e connected).announced tag connected).heard tag
          connected
      have hfault : s.fault? (.setConnected tag connected) = none := by
        simp only [fault?, hget]
        exact if_neg hagain
      have hcontinues : s.Continues { s with fleet := g } [] := by
        have hset : Fleet.Continues s.fleet (s.fleet.withFlag e connected) [] :=
          Fleet.continues_of_eq rfl rfl rfl
        apply continues_of_fleet
        exact hset.trans_left (Fleet.continues_update _ tag connected)
      have hsame :=
        Fleet.sameThings_update (s.fleet.withFlag e connected) tag connected
      have hholdings : ({ s with fleet := g } : Session).holdings =
          s.holdings.withFlag e connected := by
        simp only [holdings, g, hsame.endpoints_eq, hsame.interfaces_eq]
        rfl
      have hcarried : ({ s with fleet := g } : Session).holdings =
          s.holdings.carried s.containerControl
            (.setConnected tag connected) := by
        have hget' : s.holdings.containers.get? tag = some e := hget
        simp only [hholdings, Holdings.carried, hget']
      cases hobjects : s.fleet.listener.objects tag connected with
      | none =>
        refine ⟨.ok [], { s with fleet := g }, ?_,
          .flagSet hfault hget hcontinues hholdings,
          .done hfault hobjects hcontinues hcarried⟩
        simp [Ask.perform, run_container, Act.run_bind, hget, hrun, hobjects,
          Fault.outcome, g]
      | some fault =>
        refine ⟨.error fault, { s with fleet := g }, ?_,
          .flagUnheard hfault hget hobjects hcontinues hholdings,
          .protested hfault hobjects hcontinues hcarried⟩
        simp [Ask.perform, run_container, Act.run_bind, hget, hrun, hobjects,
          Fault.outcome, g]

/-! ## Computation graphs -/

/-- A live endpoint refuses an order that is not valid, and forwards its
command otherwise. -/
theorem run_order {f : Fleet} {e : EndpointId} {c : ControlId}
    (h : (f.endpoint e).control = some c) (order : Order) :
    ∃ message, Act.run (order.perform e) f =
      match order.command with
      | .error fault => (.error fault, f)
      | .ok command =>
        match f.objection? c command with
        | none => (.ok (), f.granted message c command)
        | some fault => (.error fault, f.asked message c) := by
  cases order with
  | addNode node =>
    obtain ⟨message, hrun⟩ := Fleet.run_addNode h node
    refine ⟨message, hrun.trans ?_⟩
    simp only [Order.command]
    split
    · rfl
    · rfl
  | removeNode tag => exact Fleet.run_removeNode h tag
  | addParameter name value type =>
    obtain ⟨message, hrun⟩ := Fleet.run_addParameter h name value type
    refine ⟨message, hrun.trans ?_⟩
    simp only [Order.command]
    split
    · cases Parameter.typed name value type with
      | error misfit => rfl
      | ok parameter => rfl
    · rfl
  | removeParameter name => exact Fleet.run_removeParameter h name

theorem performs_graph (hs : s.Sound) (container : Text) (order : Order) :
    s.PerformsLocally (.graph container order) := by
  cases hget : s.containers.get? container with
  | none =>
    have hfault : s.fault? (.graph container order) =
        some (.noContainer container) := by
      simp [fault?, hget]
    refine ⟨.error (.noContainer container), s, ?_, .refused hfault,
      .refused hfault⟩
    simp [Ask.perform, run_container, Act.run_bind, hget]
  | some e =>
    obtain ⟨c, hcontrol, hcontrol'⟩ := hs.exists_control hget
    obtain ⟨message, hrun⟩ := run_order hcontrol' order
    cases hcommand : order.command with
    | error fault =>
      rw [hcommand] at hrun
      have hfault : s.fault? (.graph container order) = some fault := by
        simp [fault?, hget, hcommand]
      refine ⟨.error fault, s, ?_, .refused hfault, .refused hfault⟩
      simp [Ask.perform, Order.carryOut, run_container, Act.run_bind, hget,
        hrun]
    | ok command =>
      have hfault : s.fault? (.graph container order) = none := by
        simp [fault?, hget, hcommand]
      have hprotest : s.protest? (.graph container order) =
          s.fleet.objection? c command := by
        simp only [protest?, hcontrol, hcommand]
      cases hobjection : s.fleet.objection? c command with
      | none =>
        rw [hcommand] at hrun
        simp only [hobjection] at hrun
        have hcontinues :
            s.Continues { s with fleet := s.fleet.granted message c command }
            [(c, command)] :=
          continues_of_fleet (Fleet.continues_granted message hobjection) _ _ _
        have horders : s.orders (.graph container order) = [(c, command)] := by
          simp only [orders, hcontrol, hcommand]
        refine ⟨.ok [], { s with fleet := s.fleet.granted message c command },
          ?_, .forwarded hfault hcommand hcontrol hcontinues rfl,
          .done hfault (hprotest.trans hobjection) (horders ▸ hcontinues) rfl⟩
        simp [Ask.perform, Order.carryOut, run_container, Act.run_bind, hget,
          hrun]
      | some fault =>
        rw [hcommand] at hrun
        simp only [hobjection] at hrun
        have hcontinues :
            s.Continues { s with fleet := s.fleet.asked message c } [] :=
          continues_of_fleet (Fleet.continues_asked s.fleet message c) _ _ _
        refine ⟨.error fault, { s with fleet := s.fleet.asked message c }, ?_,
          .declined rfl hfault ?_ hcontinues rfl,
          .protested hfault (hprotest.trans hobjection) hcontinues rfl⟩
        · simp [Ask.perform, Order.carryOut, run_container, Act.run_bind, hget,
            hrun]
        · intro hwilling
          obtain ⟨c', capabilities, hc, hnature, -⟩ := hwilling.container
          cases hcontrol.symm.trans hc
          simp [Fleet.objection?_eq_none hnature command] at hobjection

/-! ## Interfaces -/

/-- A container of a sound session with a free address takes an interface. -/
theorem Sound.run_newInterface_register (hs : s.Sound) {container : Text}
    {e : EndpointId}
    (hget : s.containers.get? container = some e) (tag : Text) {address : Text}
    (hfree : s.fleet.isReserved e address = false) :
    ∃ c middle g, s.containerControl = some c ∧
      Act.run (Fleet.newInterface e tag (.address address)) s.fleet =
        (.ok s.fleet.interfaces.next, middle) ∧
      Act.run (Fleet.register e s.fleet.interfaces.next) middle = (.ok (), g) ∧
      Fleet.Continues s.fleet g [] ∧
      ({ s with
        interfaces := s.interfaces.insert tag s.fleet.interfaces.next
        fleet := g } : Session).holdings =
        s.holdings.withInterface tag e address c := by
  have he := hs.holdings.container hget
  obtain ⟨c, hdelegate, hcontrol⟩ := hs.exists_control hget
  have hnew := Fleet.run_newInterface hcontrol tag address
  rw [hfree, if_neg (by simp)] at hnew
  let middle : Fleet := { s.fleet.modifyEndpoint e fun endpoint =>
      { endpoint with addresses := address :: endpoint.addresses } with
    interfaces :=
      s.fleet.interfaces.insert ⟨tag, e, none, false, .address address⟩ }
  have hendpoint : middle.endpoint e =
      { s.fleet.endpoint e with addresses := address ::
        (s.fleet.endpoint e).addresses } :=
    Fleet.endpoint_modifyEndpoint_self he.live _
  have hinterface : middle.interface s.fleet.interfaces.next =
      ⟨tag, e, none, false, .address address⟩ := by
    have hfound : middle.interfaces.get? s.fleet.interfaces.next =
        some ⟨tag, e, none, false, .address address⟩ :=
      Store.get?_insert_next hs.holdings.interfaces_fresh _
    rw [Fleet.interface, hfound]
    rfl
  have hnot : s.fleet.interfaces.next ∉ (middle.endpoint e).registered := by
    rw [hendpoint]
    intro hmem
    exact hs.holdings.ne_next_of_isOn ((he.mem_registered _).mp hmem) rfl
  have hregister :=
    Fleet.run_register (f := middle) (c := c)
      (by rw [hendpoint]; exact hcontrol) hnot (by rw [hinterface])
  refine ⟨c, middle, _, hdelegate, hnew, hregister,
    Fleet.continues_of_eq rfl rfl rfl, ?_⟩
  have hmodify :
      (s.fleet.interfaces.insert ⟨tag, e, none, false, .address address⟩).modify
      s.fleet.interfaces.next (fun interface =>
        { interface with control := some c }) =
      s.fleet.interfaces.insert ⟨tag, e, some c, false, .address address⟩ :=
    Store.Fresh.modify_insert_next hs.holdings.interfaces_fresh _ _
  simp only [Holdings.withInterface, middle, Fleet.modifyEndpoint,
    Fleet.modifyInterface, Store.modify_modify, hmodify]
  rfl

theorem run_registerOrDrop {e : EndpointId} {i : InterfaceId} {g : Fleet}
    (h : Act.run (Fleet.register e i) s.fleet = (.ok (), g)) (address : Text) :
    Act.run (registerOrDrop e i address) s =
      (.ok (), { s with fleet := g }) := by
  rw [registerOrDrop, Act.run_tryCatch, run_onFleet, h]

theorem performs_addInterface (hs : s.Sound) (container tag address : Text) :
    s.PerformsLocally (.addInterface container tag address) := by
  cases hcontains : s.interfaces.contains tag with
  | true =>
    have hfault : s.fault? (.addInterface container tag address) =
        some (.interfaceExists tag) := by
      simp [fault?, hcontains]
    refine ⟨.error (.interfaceExists tag), s, ?_, .refused hfault,
      .refused hfault⟩
    simp [Ask.perform, addInterface, Act.run_bind, run_ensureActive hs.active,
      hcontains]
  | false =>
    cases hget : s.containers.get? container with
    | none =>
      have hfault : s.fault? (.addInterface container tag address) =
          some (.noContainer container) := by
        simp [fault?, hcontains, hget]
      refine ⟨.error (.noContainer container), s, ?_, .refused hfault,
        .refused hfault⟩
      simp [Ask.perform, addInterface, run_container, Act.run_bind,
        run_ensureActive hs.active, hcontains, hget]
    | some e =>
      cases hreserved : s.fleet.isReserved e address with
      | true =>
        obtain ⟨c, -, hcontrol⟩ := hs.exists_control hget
        have hnew := Fleet.run_newInterface hcontrol tag address
        rw [hreserved, if_pos rfl] at hnew
        have hfault : s.fault? (.addInterface container tag address) =
            some (.addressInUse address) := by
          simp [fault?, hcontains, hget, hreserved]
        refine ⟨.error (.addressInUse address), s, ?_, .refused hfault,
          .refused hfault⟩
        simp [Ask.perform, addInterface, run_container, Act.run_bind,
          run_ensureActive hs.active, hcontains, hget, hnew]
      | false =>
        obtain ⟨c, middle, g, hdelegate, hnew, hregister, hcontinues,
          hholdings⟩ :=
          hs.run_newInterface_register hget tag hreserved
        have hfault :
            s.fault? (.addInterface container tag address) = none := by
          simp [fault?, hcontains, hget, hreserved]
        let t : Session := { s with
          interfaces := s.interfaces.insert tag s.fleet.interfaces.next
          fleet := g }
        have ht : s.Continues t [] := continues_of_fleet hcontinues _ _ _
        have hregistered :=
          run_registerOrDrop (s := { s with fleet := middle }) hregister address
        have hcarried : t.holdings =
            s.holdings.carried s.containerControl
              (.addInterface container tag address) := by
          have hget' : s.holdings.containers.get? container = some e := hget
          simp only [Holdings.carried, hget', hdelegate]
          exact hholdings
        refine ⟨.ok [], t.logged .info
          (t.remark (text "added interface " ++ tag.quoted ++ text " on " ++
            address.quoted ++ text " to container " ++ container.quoted)), ?_,
          .interfaceAdded hfault hget
            (ht.trans_right (continues_logged t _ _)) hholdings,
          .done hfault rfl (ht.trans_right (continues_logged t _ _)) hcarried⟩
        simp [Ask.perform, addInterface, run_container, Act.run_bind,
          run_ensureActive hs.active, hcontains, hget, hnew, hregistered, t]

theorem performs_removeInterface (hs : s.Sound) (tag : Text) :
    s.PerformsLocally (.removeInterface tag) := by
  cases hget : s.interfaces.get? tag with
  | none =>
    have hfault : s.fault? (.removeInterface tag) =
        some (.noInterface tag) := by
      simp [fault?, Dict.contains, hget]
    refine ⟨.error (.noInterface tag), s, ?_, .refused hfault, .refused hfault⟩
    simp [Ask.perform, removeInterface, interface, Act.run_bind,
      run_ensureActive hs.active, hget]
  | some i =>
    have hi := hs.holdings.interface hget
    obtain ⟨container, hcontainer⟩ := hi.home
    obtain ⟨address, haddress⟩ := hi.address
    have he := hs.holdings.container hcontainer
    have hreserved :
        address ∈ (s.fleet.endpoint (s.fleet.interface i).endpoint).addresses :=
      (he.mem_addresses address).mpr ⟨i, ⟨⟨tag, hget⟩, rfl⟩, haddress⟩
    have hlive : (s.fleet.interface i).deleted = false := hi.live
    have hdestroy : Act.run (Fleet.destroyInterface i) s.fleet =
        (.ok (), (s.fleet.releaseOwned i).close i) :=
      Fleet.teardown_of_address hlive haddress
    have hend :=
      Fleet.dropInterface_close_releaseOwned hs.holdings.endpoints_fresh
        hlive haddress rfl he.live hreserved
    let t : Session := { s with
      interfaces := s.interfaces.erase tag
      fleet := ((s.fleet.releaseOwned i).close i).dropInterface i }
    have ht : s.Continues t [] := by
      apply continues_of_fleet
      rw [hend]
      exact Fleet.continues_of_eq rfl rfl rfl
    have hholdings : t.holdings =
        s.holdings.withoutInterface tag i
          (s.fleet.interface i).endpoint address := by
      simp only [holdings, t, hend]
      rfl
    have hcarried : t.holdings =
        s.holdings.carried s.containerControl (.removeInterface tag) := by
      have hget' : s.holdings.interfaces.get? tag = some i := hget
      simp only [hholdings, Holdings.carried, hget',
        Holdings.interface_holdings]
      rw [show (s.fleet.interface i).behaviour = .address address from haddress]
      rfl
    have hfault : s.fault? (.removeInterface tag) = none := by
      simp [fault?, Dict.contains, hget]
    refine ⟨.ok [], t.logged .info
      (t.remark (text "removed interface " ++ tag.quoted)), ?_,
      .interfaceRemoved hget hcontainer haddress
        (ht.trans_right (continues_logged t _ _)) hholdings,
      .done hfault rfl (ht.trans_right (continues_logged t _ _)) hcarried⟩
    simp [Ask.perform, removeInterface, interface, Act.run_bind,
      run_ensureActive hs.active, hget, hlive, hdestroy, t]

/-- What is asked about one container comes to a step that the state of a sound
session decides. -/
theorem Sound.performsLocally (hs : s.Sound) {ask : Ask}
    (hlocal : ask.isLocal = true) :
    s.PerformsLocally ask := by
  cases ask with
  | setConnected tag connected => exact performs_setConnected hs tag connected
  | graph container order => exact performs_graph hs container order
  | addInterface container tag address =>
    exact performs_addInterface hs container tag address
  | removeInterface tag => exact performs_removeInterface hs tag
  | _ => cases hlocal

theorem PerformsLocally.performs {ask : Ask} (h : s.PerformsLocally ask) :
    s.Performs ask := by
  obtain ⟨result, t, hrun, hstep, -⟩ := h
  exact ⟨result, t, hrun, hstep⟩

/-- Whatever is asked of a sound session comes to a step. -/
theorem Sound.performs (hs : s.Sound) (ask : Ask) : s.Performs ask := by
  cases ask with
  | addRobot id commId => exact performs_addRobot hs id commId
  | removeRobot id => exact performs_removeRobot hs id
  | addContainer tag commId => exact performs_addContainer hs tag commId
  | removeContainer tag => exact performs_removeContainer hs tag
  | setConnected tag connected =>
    exact (performs_setConnected hs tag connected).performs
  | graph container order => exact (performs_graph hs container order).performs
  | addInterface container tag address =>
    exact (performs_addInterface hs container tag address).performs
  | removeInterface tag => exact (performs_removeInterface hs tag).performs

end Session
end FleetControl

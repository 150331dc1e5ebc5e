import Mathlib.Data.List.Nodup
import FleetControl.Proofs.Sweep
import FleetControl.Proofs.Fleet.Dismantling
import FleetControl.Proofs.Fleet.Teardown

/-!
# The end of any endpoint

Interfaces may fail, and may tear down other interfaces of any endpoint.
Whatever they do, an endpoint whose end is accepted calls each interface that
was registered when its end began, reports each fault and comes to its end:
`Fleet.Cascade` lists the calls.  No delegate is called meanwhile, and other
endpoints lose no more than registrations and reservations.
-/

namespace FleetControl
namespace Fleet

/-- The entry on an interface that could not be torn down. -/
def interfaceReport (uid tag : Text) (fault : Fault) : Log.Entry :=
  ⟨.error, text "[EndpointProxy] Error destroying interface " ++ tag.quoted
    ++ text " of endpoint " ++ uid.quoted ++ text ": " ++ fault.message⟩

theorem run_reportInterface (uid : Text) (i : InterfaceId) (fault : Fault)
    (f : Fleet) :
    Act.run (reportInterface uid i fault) f =
      (.ok (), f.record
        (.logged (interfaceReport uid (f.interface i).tag fault))) :=
  rfl

theorem reports_reportInterface (uid : Text) :
    Act.Reports (reportInterface uid) :=
  fun _ _ _ => rfl

/-- The calls with which an endpoint tears down its interfaces, from the first
fleet to the last: each registered interface is called in its turn, each fault
is reported, and the endpoints are loosened without a command. -/
structure Cascade (f : Fleet) (e : EndpointId)
    (calls : List (Act.Call InterfaceId)) (g : Fleet) : Prop where
  /-- Each call tears its interface down, starting from what the calls and
  reports before it have left. -/
  swept : Act.Swept (fun i => Act.of fun fleet => fleet.teardown i)
    (reportInterface (f.endpoint e).uid) f calls g
  /-- The interfaces that are called are those that were registered at first. -/
  targets_eq : calls.map Act.Call.target = (f.endpoint e).registered
  /-- What is reported are the faults of the calls, each under the name of
  its interface. -/
  reports : ∃ added, g.entries = f.entries ++ added ∧
    added.filter (Log.Entry.opensWith "[EndpointProxy] ") =
      calls.filterMap fun call =>
        call.fault?.map (interfaceReport (f.endpoint e).uid
          (f.interface call.target).tag)
  continues : Continues f g []
  loosened : ∀ other, (f.endpoint other).Loosened (g.endpoint other)

variable {f g : Fleet} {e : EndpointId} {calls : List (Act.Call InterfaceId)}

theorem opensWith_unreserved (address : Text) :
    (Log.Entry.unreserved address).opensWith "[EndpointProxy] " = false ∧
      (Log.Entry.unreserved address).opensWith "[User] " = false := by
  simp only [Log.Entry.opensWith, Log.Entry.unreserved, List.append_assoc]
  constructor
  · rw [Text.isPrefixOf_append (by decide)]
    decide
  · rw [Text.isPrefixOf_append (by decide)]
    decide

theorem opensWith_interfaceReport (uid tag : Text) (fault : Fault) :
    (interfaceReport uid tag fault).opensWith "[EndpointProxy] " = true ∧
      (interfaceReport uid tag fault).opensWith "[User] " = false := by
  simp only [Log.Entry.opensWith, interfaceReport, List.append_assoc]
  constructor
  · rw [Text.isPrefixOf_append (by decide)]
    decide
  · rw [Text.isPrefixOf_append (by decide)]
    decide

theorem loosens_destroyInterface (f : Fleet) (i : InterfaceId) :
    Loosens f (Act.run (destroyInterface i) f).2 := by
  obtain ⟨closed, hdescends⟩ := descends_teardown f i
  exact hdescends.loosens

theorem tag_destroyInterface (f : Fleet) (i j : InterfaceId) :
    ((Act.run (destroyInterface i) f).2.interface j).tag =
      (f.interface j).tag := by
  obtain ⟨closed, hdescends⟩ := descends_teardown f i
  exact hdescends.tag_eq j

theorem cascade_of_swept
    (hswept : Act.Swept destroyInterface
      (reportInterface (f.endpoint e).uid) f calls g)
    (htargets : calls.map Act.Call.target = (f.endpoint e).registered) :
    f.Cascade e calls g := by
  have hkept : Continues f g [] ∧
      ∀ other, (f.endpoint other).Loosened (g.endpoint other) := by
    refine hswept.keeps (P := fun h =>
      Continues f h [] ∧ ∀ other,
        (f.endpoint other).Loosened (h.endpoint other)) ?_ ?_
      ⟨.refl f, fun _ => .refl _⟩
    · intro i h hh
      have hloosens := loosens_destroyInterface h i
      exact ⟨hh.1.trans_left hloosens.continues,
        fun other => (hh.2 other).trans (hloosens.endpoint other)⟩
    · intro i fault h hh
      exact ⟨hh.1.trans_left (continues_log h _ _), hh.2⟩
  refine ⟨hswept, htargets, ?_, hkept.1, hkept.2⟩
  refine hswept.filter_entries
    (fun i => interfaceReport (f.endpoint e).uid (f.interface i).tag)
    (P := fun h => ∀ j, (h.interface j).tag = (f.interface j).tag) ?_ ?_
    (fun _ => rfl)
  · intro i h htags
    refine ⟨fun j => (tag_destroyInterface h i j).trans (htags j), ?_⟩
    obtain ⟨added, hadded, hkind⟩ := (loosens_destroyInterface h i).writes
    refine ⟨added, hadded, List.filter_eq_nil_iff.mpr ?_⟩
    intro entry hentry
    obtain ⟨address, rfl⟩ := hkind entry hentry
    simp [(opensWith_unreserved address).1]
  · intro i fault h htags
    refine ⟨htags, ?_, (opensWith_interfaceReport _ _ fault).1⟩
    rw [run_reportInterface, htags i]
    exact entries_log h _ _

/-- An endpoint comes to its end whatever its interfaces do, and raises the
first fault of them that shows a mismatch of registrations. -/
theorem run_dismantle_cascade (f : Fleet) (e : EndpointId) :
    ∃ calls g, f.Cascade e calls g ∧
      Act.run (dismantle e) f =
        (Fault.outcome ((Act.faults calls).find? Fault.isStructural),
          g.retireEndpoint e) := by
  obtain ⟨calls, g, hrun, hswept, htargets⟩ :=
    Act.run_sweep (reports_reportInterface (f.endpoint e).uid)
      (f.endpoint e).registered f
  refine ⟨calls, g, cascade_of_swept hswept htargets, ?_⟩
  simp only [dismantle, Act.run_bind, Act.run_get, hrun, Act.run_modify,
    Act.run_raiseStructural]

/-! ## An accepted end -/

/-- The fleet in which an endpoint starts to be dismantled: if it has a
farewell, its delegate has accepted it. -/
def departed (f : Fleet) (e : EndpointId) : Fleet :=
  match (f.endpoint e).farewell?, (f.endpoint e).control with
  | some (message, command), some c => f.granted message c command
  | _, _ => f

theorem sameThings_departed (f : Fleet) (e : EndpointId) :
    SameThings f (f.departed e) := by
  unfold departed
  split
  · exact ⟨rfl, rfl⟩
  · exact .refl f

/-- The endpoint that is left has no delegate, no owner and no interface. -/
theorem endpoint_retireEndpoint (f : Fleet) (e : EndpointId) :
    ((f.retireEndpoint e).endpoint e).control = none ∧
      ((f.retireEndpoint e).endpoint e).owned = false ∧
      ((f.retireEndpoint e).endpoint e).registered = [] := by
  simp only [retireEndpoint, endpoint, modifyEndpoint, Store.get?_modify_self]
  cases f.endpoints.get? e with
  | none => exact ⟨rfl, rfl, rfl⟩
  | some endpoint => exact ⟨rfl, rfl, rfl⟩

theorem uid_retireEndpoint (f : Fleet) (e : EndpointId) :
    ((f.retireEndpoint e).endpoint e).uid = (f.endpoint e).uid := by
  rcases endpoint_modifyEndpoint f e e _ with hsame | hchanged
  · exact congrArg Endpoint.uid hsame
  · exact (congrArg Endpoint.uid hchanged).trans rfl

theorem run_destroyEndpoint_of_accepted {c : ControlId}
    (hlive : (f.endpoint e).control = some c)
    (haccepts : ∀ message command,
      (f.endpoint e).farewell? = some (message, command) →
      f.objection? c command = none) :
    Act.run (destroyEndpoint e) f = Act.run (dismantle e) (f.departed e) := by
  rw [run_destroyEndpoint_of_control hlive, departed, hlive]
  cases hfarewell : (f.endpoint e).farewell? with
  | none => rfl
  | some farewell =>
    obtain ⟨message, command⟩ := farewell
    simp only [haccepts message command hfarewell]

theorem run_destroyEndpoint_of_refused {c : ControlId} {message : Text}
    {command : Command}
    {fault : Fault} (hlive : (f.endpoint e).control = some c)
    (hfarewell : (f.endpoint e).farewell? = some (message, command))
    (hrefuses : f.objection? c command = some fault) :
    Act.run (destroyEndpoint e) f = (.error fault, f.asked message c) := by
  rw [run_destroyEndpoint_of_control hlive, hfarewell]
  simp only [hrefuses]

/-- A live endpoint whose end is accepted comes to its end, whatever its
interfaces do.  Each interface that was registered is called once, each fault is
reported once, the endpoint is left without interfaces, owner and delegate, and
the first fault that shows a mismatch of registrations is raised afterwards.
Every call comes to its end because the interfaces that it closes are live. -/
theorem total_end_of_endpoint {c : ControlId}
    (hlive : (f.endpoint e).control = some c)
    (haccepts : ∀ message command,
      (f.endpoint e).farewell? = some (message, command) →
      f.objection? c command = none) :
    ∃ calls g, (f.departed e).Cascade e calls g ∧
      Act.run (destroyEndpoint e) f =
        (Fault.outcome ((Act.faults calls).find? Fault.isStructural),
          g.retireEndpoint e) ∧
      ((f.endpoint e).registered.Nodup →
        ∀ i, (calls.map Act.Call.target).count i =
          if i ∈ (f.endpoint e).registered then 1 else 0) ∧
      ((g.retireEndpoint e).endpoint e).isDeleted = true ∧
      ((g.retireEndpoint e).endpoint e).owned = false ∧
      ((g.retireEndpoint e).endpoint e).registered = [] ∧
      ∀ (h : Fleet) (i : InterfaceId),
        ∃ closed, Descends h i closed (h.teardown i).1 (h.teardown i).2 ∧
          (h.teardown i).2.liveInterfaces + closed.length ≤
            h.liveInterfaces := by
  obtain ⟨calls, g, hcascade, hrun⟩ := run_dismantle_cascade (f.departed e) e
  have hendpoint := (sameThings_departed f e).endpoint_eq e
  obtain ⟨hcontrol, howned, hregistered⟩ := endpoint_retireEndpoint g e
  refine ⟨calls, g, hcascade, ?_, ?_, ?_, howned, hregistered, ?_⟩
  · rw [run_destroyEndpoint_of_accepted hlive haccepts, hrun]
  · intro hset i
    rw [hcascade.targets_eq, hendpoint]
    exact hset.count
  · rw [Endpoint.isDeleted, hcontrol]
    rfl
  · intro h i
    obtain ⟨closed, hdescends⟩ := descends_teardown h i
    exact ⟨closed, hdescends, hdescends.length_closed⟩

/-- A robot with four interfaces: the first two tear each other down in a
circle, the third one always fails, and the last one does nothing. -/
def ring : Fleet where
  controls := ⟨[(0, ⟨[.robot], fun _ _ => none, 0⟩)], 1⟩
  endpoints :=
    ⟨[(0, ⟨.robot, text "r1", text "c1", some 0, true, [0, 1, 2, 3], []⟩)], 1⟩
  interfaces :=
    ⟨[(0, ⟨text "there", 0, some 0, false, .chain 1⟩),
      (1, ⟨text "back", 0, some 0, false, .chain 0⟩),
      (2, ⟨text "stuck", 0, some 0, false, .stuck .notRegistered⟩),
      (3, ⟨text "last", 0, some 0, false, .plain⟩)], 4⟩
  listener := ⟨none, false, fun _ _ _ => none, 0⟩
  history := []

theorem total_end_of_ring :
    (ring.endpoint 0).control = some 0 ∧
      ∃ calls g, (ring.departed 0).Cascade 0 calls g ∧
        Act.run (destroyEndpoint 0) ring =
          (Fault.outcome ((Act.faults calls).find? Fault.isStructural),
            g.retireEndpoint 0) ∧
        ∀ i, (calls.map Act.Call.target).count i =
          if i ∈ [0, 1, 2, 3] then 1 else 0 := by
  have haccepts : ∀ message command,
      (ring.endpoint 0).farewell? = some (message, command) →
        ring.objection? 0 command = none := fun _ _ _ => rfl
  obtain ⟨calls, g, hcascade, hrun, hcount, -⟩ :=
    total_end_of_endpoint (c := 0) rfl haccepts
  exact ⟨rfl, calls, g, hcascade, hrun, hcount (by decide)⟩

example :
    (Act.run (destroyEndpoint 0) ring).1 =
      .error (.interfaceDeleted (text "there")) := by
  cbv

/-! ## What an end writes -/

/-- The entry does not begin as the entries of a session do. -/
def IsNotOfUser (entry : Log.Entry) : Prop :=
  entry.opensWith "[User] " = false

theorem Cascade.writes (h : f.Cascade e calls g) : Writes IsNotOfUser f g := by
  refine h.swept.keeps (P := fun h => Writes IsNotOfUser f h) ?_ ?_
    (writes_of_eq rfl)
  · intro i h hh
    refine hh.trans ((loosens_destroyInterface h i).writes.mono ?_)
    rintro entry ⟨address, rfl⟩
    exact (opensWith_unreserved address).2
  · intro i fault h hh
    exact hh.trans
      (writes_one (entries_log h _ _) (opensWith_interfaceReport _ _ fault).2)

theorem writes_dismantle (f : Fleet) (e : EndpointId) :
    Writes IsNotOfUser f (Act.run (dismantle e) f).2 := by
  obtain ⟨calls, g, hcascade, hrun⟩ := run_dismantle_cascade f e
  rw [hrun]
  exact hcascade.writes.trans (writes_of_eq rfl)

theorem isNotOfUser_farewell {endpoint : Endpoint} {message : Text}
    {command : Command} (h : endpoint.farewell? = some (message, command)) :
    IsNotOfUser ⟨.info, message⟩ := by
  unfold Endpoint.farewell? at h
  unfold IsNotOfUser Log.Entry.opensWith
  split at h
  · cases h
  · cases h
  · cases h
    rw [Text.isPrefixOf_append (by decide)]
    decide
  · cases h
    rw [List.append_assoc, Text.isPrefixOf_append (by decide)]
    decide

theorem run_active_of_isDeleted (h : (f.endpoint e).isDeleted = true) :
    Act.run (active e) f =
      (.error (.endpointDeleted (f.endpoint e).uid), f) := by
  have hcontrol : (f.endpoint e).control = none := by
    simpa [Endpoint.isDeleted] using h
  simp [active, Act.run_bind, hcontrol]

/-- The end of an endpoint has come already, or is refused by the delegate, or
is gone through with after the delegate has accepted it. -/
theorem run_destroyEndpoint_cases (f : Fleet) (e : EndpointId) :
    ((f.endpoint e).isDeleted = true ∧
      Act.run (destroyEndpoint e) f =
        (.error (.endpointDeleted (f.endpoint e).uid), f)) ∨
    (∃ fault c message command,
      (f.endpoint e).farewell? = some (message, command) ∧
      Act.run (destroyEndpoint e) f = (.error fault, f.asked message c)) ∨
    Act.run (destroyEndpoint e) f = Act.run (dismantle e) (f.departed e) := by
  cases hdeleted : (f.endpoint e).isDeleted with
  | true =>
    refine .inl ⟨rfl, ?_⟩
    rw [destroyEndpoint, Act.run_bind, run_active_of_isDeleted hdeleted]
  | false =>
    obtain ⟨c, hlive⟩ := exists_control hdeleted
    by_cases haccepts : ∀ message command,
      (f.endpoint e).farewell? = some (message, command) →
        f.objection? c command = none
    · exact .inr (.inr (run_destroyEndpoint_of_accepted hlive haccepts))
    · push Not at haccepts
      obtain ⟨message, command, hfarewell, hobjects⟩ := haccepts
      obtain ⟨fault, hrefuses⟩ := Option.ne_none_iff_exists'.mp hobjects
      exact .inr (.inl ⟨fault, c, message, command, hfarewell,
        run_destroyEndpoint_of_refused hlive hfarewell hrefuses⟩)

/-- An endpoint whose end has failed and that is still live has been refused its
end: it and all other things are as they were. -/
theorem sameThings_of_error {fault : Fault}
    (hrun : Act.run (destroyEndpoint e) f = (.error fault, g))
    (hlive : (g.endpoint e).isDeleted = false) : SameThings f g := by
  rcases run_destroyEndpoint_cases f e with
      ⟨-, hcase⟩ | ⟨_, c, message, -, -, hcase⟩ | hcase
  · cases hcase.symm.trans hrun
    exact .refl f
  · cases hcase.symm.trans hrun
    exact sameThings_asked f message c
  · obtain ⟨calls, h, -, hend⟩ := run_dismantle_cascade (f.departed e) e
    have hg : g = h.retireEndpoint e :=
      congrArg Prod.snd (hrun.symm.trans (hcase.trans hend))
    rw [hg, Endpoint.isDeleted, (endpoint_retireEndpoint h e).1] at hlive
    cases hlive

theorem writes_departed (f : Fleet) (e : EndpointId) :
    Writes IsNotOfUser f (f.departed e) := by
  unfold departed
  split
  · next message command c hfarewell hcontrol =>
    exact writes_one (entries_granted f message c command)
      (isNotOfUser_farewell hfarewell)
  · exact writes_of_eq rfl

/-- The end of an endpoint writes no entry that begins as those of a session do,
whether it is accepted, refused or long past. -/
theorem writes_destroyEndpoint (f : Fleet) (e : EndpointId) :
    Writes IsNotOfUser f (Act.run (destroyEndpoint e) f).2 := by
  rcases run_destroyEndpoint_cases f e with
    ⟨-, hrun⟩ | ⟨fault, c, message, command, hfarewell, hrun⟩ | hrun
  · rw [hrun]
    exact writes_of_eq rfl
  · rw [hrun]
    exact writes_one (entries_asked f message c)
      (isNotOfUser_farewell hfarewell)
  · rw [hrun]
    exact (writes_departed f e).trans (writes_dismantle _ e)

end Fleet
end FleetControl

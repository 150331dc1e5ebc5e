import FleetControl.Proofs.Fleet.Cascade
import FleetControl.Proofs.Request.Handle

/-!
# The end of any session

A session that is destroyed ends each of its containers and then each of its
robots once, whatever these ends raise, and is over afterwards: nothing is left
in its tables, every request to it is refused, and no delegate is called any
more.  `Session.EndsBy` lists the calls and what is logged of them.  It is the
same end whether somebody asks for it or nobody has done so before the session
is closed; only the fault that is raised in the one case is logged in the other.
-/

namespace FleetControl

/-- The entry is one on a robot or container that could not be torn down with
its session. -/
def Log.Entry.isEndReport (entry : Log.Entry) : Bool :=
  decide (entry.level = .error) && entry.opensWith "[User] Error destroying "

namespace Session

variable {s t u : Session}

/-! ## Sessions that are over -/

/-- The session has been destroyed and holds nothing. -/
structure Over (s : Session) : Prop where
  destroyed : s.destroyed = true
  robots : s.robots = []
  containers : s.containers = []
  interfaces : s.interfaces = []

namespace Over

theorem logged (h : s.Over) (level : Log.Level) (message : Text) :
    (s.logged level message).Over :=
  ⟨h.destroyed, h.robots, h.containers, h.interfaces⟩

theorem run_ensureActive (h : s.Over) :
    Act.run ensureActive s = (.error (.sessionDestroyed s.userId), s) := by
  simp [ensureActive, Act.run_bind, h.destroyed]

theorem run_destroy (h : s.Over) :
    Act.run destroy s = (.error (.sessionDestroyed s.userId), s) := by
  rw [destroy, Act.run_bind, h.run_ensureActive]

theorem close_eq (h : s.Over) : s.close = s := by
  rw [close, if_pos h.destroyed]

/-- Whatever is asked of a session that is over fails and leaves it. -/
theorem run_ask (h : s.Over) (ask : Ask) :
    ∃ fault, Act.run ask.perform s = (.error fault, s) := by
  have hactive := h.run_ensureActive
  have hcontainer : ∀ tag,
      Act.run (container tag) s = (.error (.noContainer tag), s) := by
    intro tag
    rw [run_container, h.containers]
    rfl
  cases ask with
  | addRobot id commId =>
    exact ⟨.sessionDestroyed s.userId, by
      simp [Ask.perform, addRobot, Act.run_bind, hactive]⟩
  | removeRobot id =>
    exact ⟨.sessionDestroyed s.userId, by
      simp [Ask.perform, removeRobot, Act.run_bind, hactive]⟩
  | addContainer tag commId =>
    exact ⟨.sessionDestroyed s.userId, by
      simp [Ask.perform, addContainer, Act.run_bind, hactive]⟩
  | removeContainer tag =>
    exact ⟨.sessionDestroyed s.userId,
      by simp [Ask.perform, removeContainer, Act.run_bind, hactive]⟩
  | setConnected tag connected =>
    exact ⟨.noContainer tag, by rw [Ask.perform, Act.run_bind, hcontainer]⟩
  | graph tag order =>
    exact ⟨.noContainer tag, by rw [Ask.perform, Act.run_bind, hcontainer]⟩
  | addInterface tag name address =>
    exact ⟨.sessionDestroyed s.userId, by
      simp [Ask.perform, addInterface, Act.run_bind, hactive]⟩
  | removeInterface tag =>
    exact ⟨.sessionDestroyed s.userId,
      by simp [Ask.perform, removeInterface, Act.run_bind, hactive]⟩

/-- A request to a session that is over is refused, and at most logged. -/
theorem handle (h : s.Over) (request : Json) :
    (Session.handle request s).1.status? = some (text "error") ∧
      ((Session.handle request s).2 = s ∨
        ∃ message, (Session.handle request s).2 = s.logged .error message) := by
  cases hask : request.ask? with
  | none =>
    obtain ⟨message, t, hhandle, ht⟩ := handle_of_ask?_eq_none hask s
    rw [hhandle]
    exact ⟨Request.status?_refusal _ _, ht⟩
  | some ask =>
    obtain ⟨fault, hrun⟩ := h.run_ask ask
    rw [handle_of_ask?_eq_some hask, hrun]
    exact ⟨Request.status?_refusal _ _, Or.inr ⟨_, rfl⟩⟩

/-- All requests to a session that is over are refused, no delegate is called,
and the session is still over. -/
theorem handleEach (h : s.Over) (requests : List Json) :
    (∀ answer ∈ (Session.handleEach requests s).1,
      answer.status? = some (text "error")) ∧
      (Session.handleEach requests s).2.Over ∧
      (Session.handleEach requests s).2.fleet.controls = s.fleet.controls ∧
      (Session.handleEach requests s).2.fleet.commands = s.fleet.commands := by
  induction requests generalizing s with
  | nil => exact ⟨nofun, h, rfl, rfl⟩
  | cons request rest ih =>
    obtain ⟨hstatus, hnext⟩ := h.handle request
    have hover : (Session.handle request s).2.Over ∧
        (Session.handle request s).2.fleet.controls = s.fleet.controls ∧
        (Session.handle request s).2.fleet.commands = s.fleet.commands := by
      rcases hnext with heq | ⟨message, heq⟩
      · rw [heq]
        exact ⟨h, rfl, rfl⟩
      · rw [heq]
        exact ⟨h.logged .error message, rfl, Fleet.commands_log _ _ _⟩
    obtain ⟨hrest, hlast, hcontrols, hcommands⟩ := ih hover.1
    rw [handleEach_cons]
    refine ⟨?_, hlast, hcontrols.trans hover.2.1, hcommands.trans hover.2.2⟩
    intro answer hanswer
    rcases List.mem_cons.mp hanswer with rfl | hanswer
    · exact hstatus
    · exact hrest answer hanswer

end Over

/-- Nothing comes of a session any more: every request is refused and calls no
delegate, and everything else that can be asked of it fails and leaves it. -/
structure Silent (s : Session) : Prop where
  requests : ∀ requests,
    (∀ answer ∈ (Session.handleEach requests s).1,
      answer.status? = some (text "error")) ∧
      (Session.handleEach requests s).2.fleet.controls = s.fleet.controls ∧
      (Session.handleEach requests s).2.fleet.commands = s.fleet.commands
  asks : ∀ ask : Ask, ∃ fault, Act.run ask.perform s = (.error fault, s)
  destroy : Act.run Session.destroy s = (.error (.sessionDestroyed s.userId), s)
  close : s.close = s

theorem Over.silent (h : s.Over) : s.Silent where
  requests := by
    intro requests
    obtain ⟨hanswers, -, hcontrols, hcommands⟩ := h.handleEach requests
    exact ⟨hanswers, hcontrols, hcommands⟩
  asks := h.run_ask
  destroy := h.run_destroy
  close := h.close_eq

/-! ## The calls -/

/-- The entry on a robot or container that could not be torn down. -/
def endReport (what : String) (entry : Text × EndpointId) (fault : Fault) :
    Log.Entry :=
  ⟨.error, text "[User] Error destroying " ++ text what ++ text " "
    ++ entry.1.quoted ++ text ": " ++ fault.message⟩

theorem isEndReport_endReport (what : String) (entry : Text × EndpointId)
    (fault : Fault) :
    (endReport what entry fault).isEndReport = true := by
  simp only [Log.Entry.isEndReport, Log.Entry.opensWith, endReport,
    List.append_assoc, Bool.and_eq_true]
  refine ⟨rfl, ?_⟩
  rw [Text.isPrefixOf_append (by decide)]
  decide

/-- What does not begin as the entries of a session do is no entry
on its end. -/
theorem isEndReport_of_isNotOfUser {entry : Log.Entry}
    (h : Fleet.IsNotOfUser entry) :
    entry.isEndReport = false := by
  cases hopens : entry.opensWith "[User] Error destroying " with
  | false => rw [Log.Entry.isEndReport, hopens, Bool.and_false]
  | true =>
    have hwords : text "[User] " <+: text "[User] Error destroying " :=
      List.isPrefixOf_iff_prefix.mp (by decide)
    have huser : entry.opensWith "[User] " = true :=
      List.isPrefixOf_iff_prefix.mpr (hwords.trans
        (List.isPrefixOf_iff_prefix.mp hopens))
    rw [h] at huser
    cases huser

/-- The log entries of the session, oldest first. -/
def entries (s : Session) : List Log.Entry :=
  s.fleet.entries

theorem reports_reportEntry (what : String) : Act.Reports (reportEntry what) :=
  fun _ _ _ => rfl

variable {what : String} {calls : List (Act.Call (Text × EndpointId))}

/-- A sweep of ends leaves all of a session but its fleet. -/
theorem eq_of_swept (h : Act.Swept destroyEntry (reportEntry what) s calls t) :
    t = { s with fleet := t.fleet } :=
  h.keeps (P := fun t => t = { s with fleet := t.fleet })
    (fun entry u hu => by rw [hu]; rfl)
    (fun entry fault u hu => by rw [hu]; rfl) rfl

/-- Of the entries on ends, a sweep of ends writes one for each end that
has failed. -/
theorem endReports_of_swept
    (h : Act.Swept destroyEntry (reportEntry what) s calls t) :
    ∃ added, t.entries = s.entries ++ added ∧
      added.filter Log.Entry.isEndReport =
        calls.filterMap fun call =>
          call.fault?.map (endReport what call.target) := by
  refine h.filter_entries (endReport what) (P := fun _ => True) ?_ ?_ trivial
  · intro entry u _
    refine ⟨trivial, ?_⟩
    obtain ⟨added, hadded, hkind⟩ :=
      Fleet.writes_destroyEndpoint u.fleet entry.2
    refine ⟨added, hadded, List.filter_eq_nil_iff.mpr ?_⟩
    intro found hfound
    simp [isEndReport_of_isNotOfUser (hkind found hfound)]
  · intro entry fault u _
    exact ⟨trivial, Fleet.entries_log u.fleet _ _,
      isEndReport_endReport what entry fault⟩

/-! ## The whole end -/

theorem history_foldl {ι : Type} {change : Fleet → ι → Fleet}
    (hchange : ∀ f i, (change f i).history = f.history) (is : List ι)
    (f : Fleet) :
    (is.foldl change f).history = f.history := by
  induction is generalizing f with
  | nil => rfl
  | cons i rest ih => exact (ih (change f i)).trans (hchange f i)

/-- What is left in the tables goes without an entry. -/
theorem entries_emptied (s : Session) : s.emptied.entries = s.entries := by
  have hdrop : ∀ (f : Fleet) (entry : Text × InterfaceId),
      (f.dropInterface entry.2).history = f.history := by
    intro f entry
    simp only [Fleet.dropInterface]
    split <;> rfl
  have hend : ∀ (f : Fleet) (entry : Text × EndpointId),
      (f.dropEndpoint entry.2).history = f.history := fun _ _ => rfl
  have hhistory : s.emptied.fleet.history = s.fleet.history :=
    (history_foldl hend s.robots _).trans
      ((history_foldl hend s.containers _).trans
        (history_foldl hdrop s.interfaces _))
  rw [entries, Fleet.entries, hhistory, entries, Fleet.entries]

/-- How a session ends: each container and then each robot is called once, and
each fault is reported; the session is over afterwards. -/
structure EndsBy (s : Session)
    (containerCalls robotCalls : List (Act.Call (Text × EndpointId)))
    (t : Session) : Prop where
  /-- The robots are called after the containers.  Each call tears its endpoint
  down, starting from what the calls and reports before it have left; then the
  session is emptied. -/
  swept : ∃ u v,
    Act.Swept (fun entry => onFleet (Fleet.destroyEndpoint entry.2))
      (reportEntry "container") s containerCalls u ∧
    Act.Swept (fun entry => onFleet (Fleet.destroyEndpoint entry.2))
      (reportEntry "robot") u robotCalls v ∧
    t = v.emptied.logged .info (s.remark (text "session destroyed"))
  containers_eq : containerCalls.map Act.Call.target = s.containers
  robots_eq : robotCalls.map Act.Call.target = s.robots
  /-- Each end that has failed is reported once, and no other one is. -/
  reports : ∃ added, t.entries = s.entries ++ added ∧
    added.filter Log.Entry.isEndReport =
      (containerCalls.filterMap fun call =>
          call.fault?.map (endReport "container" call.target)) ++
        robotCalls.filterMap fun call =>
          call.fault?.map (endReport "robot" call.target)
  isOver : t.Over

/-- The first fault of the calls that shows a mismatch of registrations. -/
def firstStructural
    (containerCalls robotCalls : List (Act.Call (Text × EndpointId))) :
    Option Fault :=
  (Act.faults containerCalls ++ Act.faults robotCalls).find? Fault.isStructural

/-- A session that is destroyed comes to its end, and raises the first fault
that shows a mismatch of registrations when all is done. -/
theorem run_destroy_endsBy (hactive : s.destroyed = false) :
    ∃ containerCalls robotCalls t, EndsBy s containerCalls robotCalls t ∧
      Act.run destroy s =
        (Fault.outcome (firstStructural containerCalls robotCalls), t) := by
  obtain ⟨containerCalls, u, hcontainers, hswept, htargets⟩ :=
    Act.run_sweep (reports_reportEntry "container") s.containers s
  have hu := eq_of_swept hswept
  obtain ⟨robotCalls, v, hrobots, hswept', htargets'⟩ :=
    Act.run_sweep (reports_reportEntry "robot") u.robots u
  have hv := eq_of_swept hswept'
  refine ⟨containerCalls, robotCalls,
    v.emptied.logged .info (s.remark (text "session destroyed")), ?_, ?_⟩
  · refine ⟨⟨u, v, hswept, hswept', rfl⟩, htargets, ?_, ?_,
      ⟨rfl, rfl, rfl, rfl⟩⟩
    · rw [htargets', hu]
    · obtain ⟨first, hfirst, hfilter⟩ := endReports_of_swept hswept
      obtain ⟨later, hlater, hfilter'⟩ := endReports_of_swept hswept'
      let last : Log.Entry := ⟨.info, s.remark (text "session destroyed")⟩
      refine ⟨first ++ later ++ [last], ?_, ?_⟩
      · calc
          _ = v.emptied.entries ++ [last] :=
            Fleet.entries_log v.emptied.fleet .info _
          _ = s.entries ++ (first ++ later ++ [last]) := by
            rw [entries_emptied, hlater, hfirst]
            simp
      · rw [List.filter_append, List.filter_append, hfilter, hfilter']
        simp [last, Log.Entry.isEndReport]
  · have hremark : v.emptied.remark (text "session destroyed") =
        s.remark (text "session destroyed") := by
      rw [hv, hu]
      rfl
    simp [destroy, Act.run_bind, run_ensureActive hactive, hcontainers, hrobots,
      Act.run_raiseStructural, hremark, firstStructural]

/-- The session that is left when its end has come to what it raises; a fault
is logged. -/
def closing (t : Session) : Option Fault → Session
  | none => t
  | some fault =>
    t.logged .error
      (t.remark (text "error during session teardown: " ++ fault.message))

/-- The end of a session is total, whatever its delegates and interfaces raise:
containers and then robots are called once each, in the order of their names,
each fault is logged once, and the first one that shows a mismatch of
registrations is raised after all is done, or logged if nobody has asked for the
end.  Nothing comes of the session afterwards. -/
theorem total_end_of_session (hactive : s.destroyed = false)
    (hcontainers : s.containers.Sorted) (hrobots : s.robots.Sorted) :
    ∃ containerCalls robotCalls t, EndsBy s containerCalls robotCalls t ∧
      (containerCalls.map fun call => call.target.1).Pairwise (· < ·) ∧
      (robotCalls.map fun call => call.target.1).Pairwise (· < ·) ∧
      Act.run destroy s =
        (Fault.outcome (firstStructural containerCalls robotCalls), t) ∧
      s.close = t.closing (firstStructural containerCalls robotCalls) ∧
      t.Silent ∧ s.close.Silent := by
  obtain ⟨containerCalls, robotCalls, t, hends, hrun⟩ :=
    run_destroy_endsBy hactive
  have hsorted :
      ∀ {calls : List (Act.Call (Text × EndpointId))} {d : Dict EndpointId},
      calls.map Act.Call.target = d → d.Sorted →
      (calls.map fun call => call.target.1).Pairwise (· < ·) := by
    intro calls d htargets hd
    have hnames : (calls.map fun call => call.target.1) = d.map (·.1) := by
      rw [← htargets, List.map_map]
      rfl
    rw [hnames]
    exact List.pairwise_map.mpr hd
  have hclose :
      s.close = t.closing (firstStructural containerCalls robotCalls) := by
    rw [close, hactive, hrun]
    cases firstStructural containerCalls robotCalls with
    | none => rfl
    | some fault => rfl
  have hover : s.close.Over := by
    rw [hclose]
    cases firstStructural containerCalls robotCalls with
    | none => exact hends.isOver
    | some fault => exact hends.isOver.logged .error _
  exact ⟨containerCalls, robotCalls, t, hends,
    hsorted hends.containers_eq hcontainers, hsorted hends.robots_eq hrobots,
    hrun, hclose, hends.isOver.silent, hover.silent⟩

/-- A session with a container whose end is refused and a robot with an
interface that always fails. -/
def troubled : Session where
  userId := text "user"
  robotControl := some 0
  containerControl := some 0
  limits := .default
  destroyed := false
  robots := [(text "r1", 1)]
  containers := [(text "c1", 0)]
  interfaces := []
  entropy := ⟨fun _ => 0, fun _ => false, 0, 0, []⟩
  fleet :=
    { controls := ⟨[(0, ⟨[.robot, .container, .node, .parameter],
        fun n _ => if n = 0 then some (.foreign .runtime (text "busy") [])
          else none, 0⟩)], 1⟩
      endpoints :=
        ⟨[(0, ⟨.container true, text "c1", text "m1", some 0, true, [], []⟩),
          (1, ⟨.robot, text "r1", text "m2", some 0, true, [0], []⟩)], 2⟩
      interfaces :=
        ⟨[(0, ⟨text "i1", 1, some 0, false, .stuck .notRegistered⟩)], 1⟩
      listener := ⟨none, false, fun _ _ _ => none, 0⟩
      history := [] }

theorem total_end_of_troubled :
    troubled.destroyed = false ∧ troubled.containers.Sorted ∧
      troubled.robots.Sorted ∧
      ∃ containerCalls robotCalls t,
        EndsBy troubled containerCalls robotCalls t ∧
        Act.run destroy troubled =
          (Fault.outcome (firstStructural containerCalls robotCalls), t) ∧
        troubled.close = t.closing (firstStructural containerCalls robotCalls) ∧
        t.Silent := by
  have hcontainers : troubled.containers.Sorted := List.pairwise_singleton _ _
  have hrobots : troubled.robots.Sorted := List.pairwise_singleton _ _
  obtain ⟨containerCalls, robotCalls, t, hends, -, -, hrun, hclose, hsilent,
    -⟩ :=
    total_end_of_session (s := troubled) rfl hcontainers hrobots
  exact ⟨rfl, hcontainers, hrobots, containerCalls, robotCalls, t, hends, hrun,
    hclose, hsilent⟩

example : (Act.run destroy troubled).1 = .error .notRegistered := by
  cbv

end Session
end FleetControl

import FleetControl.Proofs.Session.Ending
import FleetControl.Proofs.Session.Journaled

/-!
# The end of a session run by a journal

Destroying a session ends its containers and then its robots, each of them once.
A journal accepts all these ends, so none of them raises a fault, and what is
left in the tables afterwards is dropped without a word.
-/

namespace FleetControl

namespace Fleet

theorem continues_dropInterface (f : Fleet) (i : InterfaceId) :
    Continues f (f.dropInterface i) [] := by
  simp only [dropInterface]
  split
  · exact continues_of_eq rfl rfl rfl
  · exact continues_of_eq rfl rfl rfl

theorem continues_dropEndpoint (f : Fleet) (e : EndpointId) :
    Continues f (f.dropEndpoint e) [] :=
  continues_of_eq rfl rfl rfl

/-- Changes without a command, one after the other, come to no command. -/
theorem continues_foldl {ι : Type} {change : Fleet → ι → Fleet}
    (hchange : ∀ f i, Continues f (change f i) []) (is : List ι) (f : Fleet) :
    Continues f (is.foldl change f) [] := by
  induction is generalizing f with
  | nil => exact Continues.refl f
  | cons i rest ih => exact (hchange f i).trans_left (ih (change f i))

end Fleet

namespace Session

variable {s : Session}

theorem continues_emptied (s : Session) :
    Fleet.Continues s.fleet s.emptied.fleet [] := by
  have hinterfaces := Fleet.continues_foldl
    (fun f (entry : Text × InterfaceId) =>
      Fleet.continues_dropInterface f entry.2)
    s.interfaces s.fleet
  have hendpoints := Fleet.continues_foldl
    (fun f (entry : Text × EndpointId) =>
      Fleet.continues_dropEndpoint f entry.2)
  exact (hinterfaces.trans_left (hendpoints s.containers _)).trans_left
    (hendpoints s.robots _)

/-- Whatever is in a table is ready for its end. -/
theorem Sound.ready (hs : s.Sound) (hj : s.Journaled) {group : Group}
    {name : Text}
    {e : EndpointId} (hget : (s.holdings.table group).get? name = some e) :
    ∃ message, s.fleet.Ready e 0 message (group.removal name) := by
  cases group with
  | robots =>
    obtain ⟨c, message, hcontrol, hready⟩ := hs.ready_robot hget
    cases hcontrol.symm.trans hj.robotControl_eq
    exact ⟨message, hready⟩
  | containers =>
    obtain ⟨c, message, hcontrol, hready⟩ := hs.ready_container hget
    cases hcontrol.symm.trans hj.containerControl_eq
    exact ⟨message, hready⟩

/-- The commands that end the things of a table, in the order of their names. -/
def removals (group : Group) (d : Dict EndpointId) :
    List (ControlId × Command) :=
  d.map fun entry => (0, group.removal entry.1)

/-- Things that are ready for their ends, which can be written, end one after
the other without a fault, and everything else stays ready. -/
theorem run_sweep_destroyEntry (what : String) (group : Group)
    {entries : Dict EndpointId}
    {s : Session} (hnature : s.fleet.nature = Journal.nature)
    (hnodup : (entries.map (·.2)).Nodup)
    (hends : ∀ entry ∈ entries, (group.removal entry.1).line?.isSome = true ∧
      ∃ message, s.fleet.Ready entry.2 0 message (group.removal entry.1)) :
    ∃ g, Act.run (Act.sweep destroyEntry (reportEntry what) entries) s =
        (.ok [], { s with fleet := g }) ∧
      Fleet.Continues s.fleet g (removals group entries) ∧
      ∀ e c message command, e ∉ entries.map (·.2) →
      s.fleet.Ready e c message command → g.Ready e c message command := by
  induction entries generalizing s with
  | nil =>
    exact ⟨s.fleet, rfl, Fleet.Continues.refl s.fleet, fun _ _ _ _ _ h => h⟩
  | cons entry rest ih =>
    obtain ⟨hnot, hrest⟩ := List.nodup_cons.mp hnodup
    obtain ⟨hline, message, hready⟩ := hends entry List.mem_cons_self
    rcases Fleet.run_destroyEndpoint hready with
      ⟨fault, hobjects, -⟩ | ⟨f, haccepts, hrun, hchanges⟩
    · rw [Fleet.objection?_of_line? hnature hline] at hobjects
      cases hobjects
    · have hfirst : Fleet.Continues s.fleet f [(0, group.removal entry.1)] :=
        (Fleet.continues_granted message haccepts).trans_right
          hchanges.continues
      have hends' : ∀ other ∈ rest,
        (group.removal other.1).line?.isSome = true ∧
          ∃ message, f.Ready other.2 0 message (group.removal other.1) := by
        intro other hother
        obtain ⟨hline', message', hready'⟩ :=
          hends other (List.mem_cons_of_mem _ hother)
        have hne : other.2 ≠ entry.2 := by
          intro heq
          exact hnot (List.mem_map.mpr ⟨other, hother, heq⟩)
        exact ⟨hline', message', hready.of_changesOnly hchanges hne hready'⟩
      obtain ⟨g, hrun', hlater, hothers⟩ :=
        ih (s := { s with fleet := f })
          (hfirst.nature_eq.trans hnature) hrest hends'
      refine ⟨g, ?_, hfirst.trans hlater, ?_⟩
      · have hentry : Act.run (destroyEntry entry) s =
            (.ok (), { s with fleet := f }) := by
          rw [destroyEntry, run_onFleet, hrun]
        simp [Act.sweep, Act.run_bind, Act.run_attempt, hentry, hrun']
      · intro e c message' command hmem hready'
        have hne : e ≠ entry.2 := fun heq => hmem (heq ▸ List.mem_cons_self)
        have hstill := hready.of_changesOnly hchanges hne hready'
        exact hothers e c message' command
          (fun hlast => hmem (List.mem_cons_of_mem _ hlast)) hstill

theorem Sound.ends (hs : s.Sound) (hj : s.Journaled) (group : Group)
    {entry : Text × EndpointId} (hsorted : (s.holdings.table group).Sorted)
    (hentry : entry ∈ s.holdings.table group) :
    (group.removal entry.1).line?.isSome = true ∧
      ∃ message, s.fleet.Ready entry.2 0 message (group.removal entry.1) := by
  have hget := hsorted.get?_of_mem hentry
  have hthere := Dict.contains_eq_true_iff.mpr ⟨entry.2, hget⟩
  exact ⟨Command.line?_removal group (hj.wellFormed group entry.1 hthere),
    hs.ready hj hget⟩

/-- A journal ends the containers and then the robots of a session
without a fault. -/
theorem Sound.run_sweeps (hs : s.Sound) (hj : s.Journaled) :
    ∃ f g,
      Act.run (Act.sweep destroyEntry (reportEntry "container") s.containers)
          s = (.ok [], { s with fleet := f }) ∧
      Act.run (Act.sweep destroyEntry (reportEntry "robot") s.robots)
          { s with fleet := f } = (.ok [], { s with fleet := g }) ∧
      Fleet.Continues s.fleet g
        (removals .containers s.containers ++ removals .robots s.robots) := by
  have hrobots : s.robots.Sorted := hs.holdings.robots_sorted
  have hcontainers : s.containers.Sorted := hs.holdings.containers_sorted
  obtain ⟨f, hrun, hfirst, hothers⟩ :=
    run_sweep_destroyEntry "container" .containers
      hj.nature_eq (hcontainers.nodup_values fun h h' =>
        hs.holdings.container_unique h h')
      (fun entry hentry => hs.ends hj .containers hcontainers hentry)
  have hends : ∀ entry ∈ s.robots,
    (Group.removal .robots entry.1).line?.isSome = true ∧
      ∃ message, f.Ready entry.2 0 message (Group.removal .robots entry.1) := by
    intro entry hentry
    obtain ⟨hline, message, hready⟩ := hs.ends hj .robots hrobots hentry
    refine ⟨hline, message, hothers entry.2 0 message _ ?_ hready⟩
    intro hmem
    obtain ⟨container, hcontainer, heq⟩ := List.mem_map.mp hmem
    exact hs.holdings.robot_ne_container (hrobots.get?_of_mem hentry)
      (hcontainers.get?_of_mem hcontainer) heq.symm
  obtain ⟨g, hrun', hlater, -⟩ := run_sweep_destroyEntry "robot" .robots
    (s := { s with fleet := f }) (hfirst.nature_eq.trans hj.nature_eq)
    (hrobots.nodup_values fun h h' => hs.holdings.robot_unique h h') hends
  exact ⟨f, g, hrun, hrun', hfirst.trans hlater⟩

/-- A journal ends a session without a fault: it writes the end of each
container and then the end of each robot. -/
theorem Sound.run_destroy (hs : s.Sound) (hj : s.Journaled) :
    ∃ t, Act.run destroy s = (.ok (), t) ∧ t.destroyed = true ∧ t.robots = [] ∧
      t.containers = [] ∧ t.interfaces = [] ∧
      Fleet.Continues s.fleet t.fleet
        (removals .containers s.containers ++ removals .robots s.robots) := by
  obtain ⟨f, g, hrun, hrun', hcontinues⟩ := hs.run_sweeps hj
  let t : Session := { s with fleet := g }
  have hemptied := hcontinues.trans_right (continues_emptied t)
  refine ⟨t.emptied.logged .info (t.emptied.remark (text "session destroyed")),
    ?_, rfl, rfl, rfl, rfl, hemptied.trans_right (Fleet.continues_log _ _ _)⟩
  simp [destroy, Act.run_bind, run_ensureActive hs.active, hrun, hrun',
    Act.raiseStructural]
  rfl

/-- No call at the end of a session raises a fault when a journal runs it. -/
theorem Sound.faults_eq_nil (hs : s.Sound) (hj : s.Journaled) {t : Session}
    {containerCalls robotCalls : List (Act.Call (Text × EndpointId))}
    (h : EndsBy s containerCalls robotCalls t) :
    Act.faults containerCalls = [] ∧ Act.faults robotCalls = [] := by
  obtain ⟨f, g, hrun, hrun', -⟩ := hs.run_sweeps hj
  obtain ⟨u, v, hcontainers, hrobots, -⟩ := h.swept
  have hfirst := hcontainers.run_sweep (reports_reportEntry "container")
  rw [h.containers_eq] at hfirst
  obtain ⟨hnone, rfl⟩ := Prod.mk.inj (hrun.symm.trans hfirst)
  have hlater := hrobots.run_sweep (reports_reportEntry "robot")
  rw [h.robots_eq] at hlater
  obtain ⟨hnone', -⟩ := Prod.mk.inj (hrun'.symm.trans hlater)
  exact ⟨(Except.ok.inj hnone).symm, (Except.ok.inj hnone').symm⟩

end Session
end FleetControl

import FleetControl.Proofs.Journal
import FleetControl.Proofs.Request.Handle

/-!
# Sessions run by a journal

A journal refuses only what it cannot write.  The names of a session have been
written once, when the things were begun, so their ends are never refused: no
robot or container is lost, and what a step writes about a thing tells exactly
how the step has changed the tables.
-/

namespace FleetControl

/-- The things of a group under their names. -/
def Holdings.table (h : Holdings) : Group → Dict EndpointId
  | .robots => h.robots
  | .containers => h.containers

namespace Session

variable {s t : Session}

/-- A single journal runs all robots and containers of the session, and it can
write their names. -/
structure Journaled (s : Session) : Prop where
  robotControl_eq : s.robotControl = some 0
  containerControl_eq : s.containerControl = some 0
  nature_eq : s.fleet.nature = Journal.nature
  wellFormed : ∀ group name, (s.holdings.table group).contains name = true →
    Utf8.isWellFormed name = true

/-- The end of what is in a table is never refused. -/
theorem Journaled.objection?_removal (hj : s.Journaled) (group : Group)
    {name : Text} (h : (s.holdings.table group).contains name = true) :
    s.fleet.objection? 0 (group.removal name) = none := by
  have hline := Command.line?_removal group (hj.wellFormed group name h)
  exact Fleet.objection?_of_line? hj.nature_eq hline

/-! ## What a step writes about one thing -/

variable {h h' : Holdings}

theorem lines_of_table_eq (hsame : ∀ group, h'.table group = h.table group)
    {group : Group} {name : Text} {entries : List (Text × Text)}
    (hnone : group.lines name entries = []) :
    group.lines name entries =
      group.turn name ((h.table group).contains name)
        ((h'.table group).contains name) := by
  rw [hsame, Group.turn_self, hnone]

/-- A change of one thing in one table is a turn of that thing and
of no other. -/
theorem lines_of_change (group : Group) {name : Text} {entry : Text × Text}
    (hlines : ∀ other name', Group.lines other name' [entry] =
      if group = other ∧ name = name' then [entry] else [])
    (hturn : group.turn name ((h.table group).contains name)
      ((h'.table group).contains name) =
      [entry])
    (hsame : ∀ name', name' ≠ name →
      (h'.table group).contains name' = (h.table group).contains name')
    (hother : ∀ other, other ≠ group → h'.table other = h.table other)
    (other : Group) (name' : Text) :
    other.lines name' [entry] =
      other.turn name' ((h.table other).contains name')
        ((h'.table other).contains name') := by
  rw [hlines]
  by_cases heq : group = other ∧ name = name'
  · obtain ⟨rfl, rfl⟩ := heq
    rw [if_pos ⟨rfl, rfl⟩, hturn]
  · have hstays : (h'.table other).contains name' =
        (h.table other).contains name' := by
      by_cases hgroup : other = group
      · subst hgroup
        exact hsame name' fun hname => heq ⟨rfl, hname.symm⟩
      · rw [hother other hgroup]
    rw [if_neg heq, hstays, Group.turn_self]

theorem lines_of_insert (group : Group) {name : Text} {e : EndpointId}
    (hnew : (h.table group).contains name = false)
    (hinsert : h'.table group = (h.table group).insert name e)
    (hother : ∀ other, other ≠ group → h'.table other = h.table other)
    (other : Group) (name' : Text) :
    other.lines name' [group.beginning name] =
      other.turn name' ((h.table other).contains name')
        ((h'.table other).contains name') := by
  have hthere : (h'.table group).contains name = true := by
    rw [hinsert, Dict.contains, Dict.get?_insert_self]
    rfl
  refine lines_of_change group
    (fun other name' => Group.lines_beginning group other name name')
    ?_ ?_ hother other name'
  · rw [hnew, hthere]
    rfl
  · intro name' hname
    rw [hinsert, Dict.contains, Dict.get?_insert_of_ne hname, Dict.contains]

theorem lines_of_erase (group : Group) {name : Text}
    (hthere : (h.table group).contains name = true)
    (herase : h'.table group = (h.table group).erase name)
    (hother : ∀ other, other ≠ group → h'.table other = h.table other)
    (other : Group) (name' : Text) :
    other.lines name' [group.ending name] =
      other.turn name' ((h.table other).contains name')
        ((h'.table other).contains name') := by
  have hgone : (h'.table group).contains name = false := by
    rw [herase, Dict.contains, Dict.get?_erase_self]
    rfl
  refine lines_of_change group
    (fun other name' => Group.lines_ending group other name name')
    ?_ ?_ hother other name'
  · rw [hthere, hgone]
    rfl
  · intro name' hname
    rw [herase, Dict.contains, Dict.get?_erase_of_ne hname, Dict.contains]

/-- No request has the name of a beginning or an end. -/
theorem name_ne_creation (operation : Operation) (group : Group) :
    operation.name ≠ group.creation ∧ operation.name ≠ group.destruction := by
  cases group <;> cases operation <;> decide

/-- What an order comes to neither begins nor ends anything. -/
theorem lines_order (group : Group) (name : Text) (order : Order) :
    group.lines name [order.entry] = [] := by
  have hname : order.entry.1 = order.operation.name := by
    cases order <;> rfl
  obtain ⟨hcreation, hdestruction⟩ := name_ne_creation order.operation group
  rw [← hname] at hcreation hdestruction
  have hbeginning : order.entry ≠ group.beginning name :=
    fun heq => hcreation (congrArg Prod.fst heq)
  have hending : order.entry ≠ group.ending name :=
    fun heq => hdestruction (congrArg Prod.fst heq)
  simp [Group.lines, hbeginning, hending]

/-- What a step writes about a thing is one turn, from whether the thing was
there to whether it is there now. -/
theorem Step.lines (hj : s.Journaled) {ask : Ask}
    {result : Except Fault (List (Text × Json))}
    (hstep : Step s ask result t) (group : Group) (name : Text) :
    group.lines name (entriesOf ask result) =
      group.turn name ((s.holdings.table group).contains name)
        ((t.holdings.table group).contains name) := by
  cases hstep with
  | refused hfault => exact lines_of_table_eq (fun _ => rfl) rfl
  | declined hconsent hfault hworld hcontinues hholdings =>
    rw [hholdings]
    exact lines_of_table_eq (fun _ => rfl) rfl
  | robotAdded hfault hcontrol hcontinues hholdings =>
    obtain ⟨hnew, -⟩ := fault?_addRobot_eq_none_iff.mp hfault
    rw [hholdings]
    refine lines_of_insert .robots hnew rfl ?_ group name
    intro other hother
    cases other with
    | robots => exact absurd rfl hother
    | containers => rfl
  | robotRemoved hget hcontrol hcontinues hholdings =>
    rename_i id e c
    have hthere : s.robots.contains id = true :=
      Dict.contains_eq_true_iff.mpr ⟨e, hget⟩
    rw [hholdings]
    refine lines_of_erase .robots hthere rfl ?_ group name
    intro other hother
    cases other with
    | robots => exact absurd rfl hother
    | containers => rfl
  | robotLost hget hcontrol hobjects hcontinues hholdings hhistory =>
    rename_i id e c fault message
    have hthere : s.robots.contains id = true :=
      Dict.contains_eq_true_iff.mpr ⟨e, hget⟩
    have haccepts := hj.objection?_removal .robots hthere
    cases hcontrol.symm.trans hj.robotControl_eq
    cases hobjects.symm.trans haccepts
  | containerAdded hfault hcontrol hcontinues hholdings =>
    obtain ⟨hnew, -⟩ := fault?_addContainer_eq_none_iff.mp hfault
    rw [hholdings]
    refine lines_of_insert .containers hnew rfl ?_ group name
    intro other hother
    cases other with
    | robots => rfl
    | containers => exact absurd rfl hother
  | containerRemoved hget hcontrol hcontinues hholdings =>
    rename_i tag e c
    have hthere : s.containers.contains tag = true :=
      Dict.contains_eq_true_iff.mpr ⟨e, hget⟩
    rw [hholdings]
    refine lines_of_erase .containers hthere rfl ?_ group name
    intro other hother
    cases other with
    | robots => rfl
    | containers => exact absurd rfl hother
  | containerLost hget hcontrol hobjects hcontinues hholdings hhistory =>
    rename_i tag e c fault message
    have hthere : s.containers.contains tag = true :=
      Dict.contains_eq_true_iff.mpr ⟨e, hget⟩
    have haccepts := hj.objection?_removal .containers hthere
    cases hcontrol.symm.trans hj.containerControl_eq
    cases hobjects.symm.trans haccepts
  | flagSet hfault hget hcontinues hholdings =>
    rw [hholdings]
    exact lines_of_table_eq (fun group => by cases group <;> rfl) rfl
  | flagUnheard hfault hget hobjects hcontinues hholdings =>
    rw [hholdings]
    exact lines_of_table_eq (fun group => by cases group <;> rfl) rfl
  | forwarded hfault hcommand hcontrol hcontinues hholdings =>
    rw [hholdings]
    exact lines_of_table_eq (fun _ => rfl) (lines_order group name _)
  | interfaceAdded hfault hget hcontinues hholdings =>
    rw [hholdings]
    exact lines_of_table_eq (fun group => by cases group <;> rfl) rfl
  | interfaceRemoved hget hcontainer haddress hcontinues hholdings =>
    rw [hholdings]
    exact lines_of_table_eq (fun group => by cases group <;> rfl) rfl

/-! ## The invariant -/

theorem Journaled.logged (hj : s.Journaled) (level : Log.Level)
    (message : Text) :
    (s.logged level message).Journaled :=
  ⟨hj.robotControl_eq, hj.containerControl_eq, hj.nature_eq, hj.wellFormed⟩

/-- After a step the journal still can write all names: those that are new have
just been written. -/
theorem Journaled.step (hj : s.Journaled) {ask : Ask}
    {result : Except Fault (List (Text × Json))} (hstep : Step s ask result t) :
    t.Journaled := by
  obtain ⟨commands, hcontinues, hentries⟩ := hstep.exists_continues
  constructor
  · exact hcontinues.robotControl_eq.trans hj.robotControl_eq
  · exact hcontinues.containerControl_eq.trans hj.containerControl_eq
  · exact hcontinues.fleet.nature_eq.trans hj.nature_eq
  · intro group name hthere
    by_cases hbefore : (s.holdings.table group).contains name = true
    · exact hj.wellFormed group name hbefore
    · have hlines : group.lines name (entriesOf ask result) =
          [group.beginning name] := by
        rw [hstep.lines hj, hthere, eq_false_of_ne_true hbefore]
        rfl
      have hmem : group.beginning name ∈ commands.map fun p => p.2.entry := by
        rw [hentries]
        apply List.mem_of_mem_filter
        rw [← Group.lines, hlines]
        exact List.mem_singleton_self _
      obtain ⟨p, hp, hentry⟩ := List.mem_map.mp hmem
      have hsubject : p.2.subject = name := congrArg Prod.snd hentry
      have haccepts :=
        Fleet.line?_of_accepts hj.nature_eq (hcontinues.fleet.accepted p hp)
      rw [← hsubject]
      exact Command.isWellFormed_subject haccepts.2

/-- What a request writes about a thing is one turn, and the journal can write
all names afterwards. -/
theorem Journaled.handle (hs : s.Sound) (hj : s.Journaled) (request : Json) :
    (handle request s).2.Journaled ∧
      ∀ group name, Group.lines group name
        (request.entries (Session.handle request s).1) =
        group.turn name ((s.holdings.table group).contains name)
          (((Session.handle request s).2.holdings.table group).contains
            name) := by
  rcases hs.handle_cases request with
    ⟨message, t, -, hhandle, ht⟩ | ⟨ask, result, t, hask, hstep, hhandle⟩
  · rw [hhandle, Request.entries_refusal]
    rcases ht with rfl | ⟨entry, rfl⟩
    · exact ⟨hj, fun _ _ => lines_of_table_eq (fun _ => rfl) rfl⟩
    · exact ⟨hj.logged .error entry, fun _ _ =>
        lines_of_table_eq (fun _ => rfl) rfl⟩
  · rw [hhandle, entries_conclude hask]
    rcases conclude_cases ask.operation result t with heq | ⟨message, heq⟩
    · rw [heq]
      exact ⟨hj.step hstep, hstep.lines hj⟩
    · rw [heq]
      exact ⟨(hj.step hstep).logged .error message, hstep.lines hj⟩

/-- Along requests, what has been written about a thing alternates, as it
did before. -/
theorem Journaled.handleEach (hs : s.Sound) (hj : s.Journaled)
    (requests : List Json) :
    (handleEach requests s).2.Journaled ∧
      ∀ group name earlier,
        Group.Alternates group name
          ((s.holdings.table group).contains name) earlier →
        group.Alternates name
          (((Session.handleEach requests s).2.holdings.table group).contains
            name)
          (earlier ++ (List.zipWith Json.entries requests
            (Session.handleEach requests s).1).flatten) := by
  induction requests generalizing s with
  | nil =>
    refine ⟨hj, ?_⟩
    intro group name earlier halternates
    simpa [Session.handleEach] using halternates
  | cons request rest ih =>
    obtain ⟨hj', hlines⟩ := hj.handle hs request
    obtain ⟨hjournaled, hrest⟩ := ih (hs.handle request) hj'
    rw [handleEach_cons]
    refine ⟨hjournaled, ?_⟩
    intro group name earlier halternates
    have hfirst := halternates.append (hlines group name)
    have hall := hrest group name _ hfirst
    rwa [List.append_assoc] at hall

end Session
end FleetControl

import FleetControl.Proofs.Session.Destruction
import FleetControl.Proofs.Session.Invariant

/-!
# The journal of a session

The journal of a session is the trace of the requests that have been carried
out, and of the destruction of what was left in the end.  Seen from one robot or
container, its beginnings and ends alternate, and the last one is an end.
-/

namespace FleetControl

/-- The same from outside, but for a single journal that runs all robots
and containers. -/
def Outside.journaled (outside : Outside) : Outside :=
  { outside with
    robotControl := some 0
    containerControl := some 0
    controls := Store.empty.insert .journal }

namespace Session

variable {s t : Session}

/-- The lines that have been written for the session, oldest first. -/
def journal (s : Session) : List Json :=
  s.fleet.commands.map fun p => p.2.toJson

/-- The journal entries that the destruction of the session comes to: the end of
each container and then the end of each robot, in the order of their names. -/
def farewells (s : Session) : List (Text × Text) :=
  s.containers.map (fun entry => Group.containers.ending entry.1)
    ++ s.robots.map fun entry => Group.robots.ending entry.1

/-! ## Lines -/

theorem lineEntry_journal (commands : List (ControlId × Command)) :
    (commands.map fun p => p.2.toJson).map Json.lineEntry =
      commands.map fun p => p.2.entry := by
  rw [List.map_map]
  apply List.map_congr_left
  intro p _
  exact p.2.lineEntry_toJson

theorem journal_of_continues {commands : List (ControlId × Command)}
    (h : Fleet.Continues s.fleet t.fleet commands) :
    t.journal = s.journal ++ commands.map fun p => p.2.toJson := by
  rw [journal, h.commands_eq, List.map_append]
  rfl

theorem lines_endings_of_ne {group other : Group} (hne : group ≠ other)
    (name : Text) (d : Dict EndpointId) :
    other.lines name (d.map fun entry => group.ending entry.1) = [] := by
  induction d with
  | nil => rfl
  | cons entry rest ih =>
    rw [List.map_cons, ← List.singleton_append, Group.lines_append, ih,
      Group.lines_ending, if_neg (fun h => hne h.1)]
    rfl

/-- Ending all things of a table is a turn for each of them and for
nothing else. -/
theorem lines_endings (group : Group) {d : Dict EndpointId} (hsorted : d.Sorted)
    (name : Text) :
    group.lines name (d.map fun entry => group.ending entry.1) =
      group.turn name (d.contains name) false := by
  induction d with
  | nil => rfl
  | cons entry rest ih =>
    obtain ⟨hfirst, hrest⟩ := List.pairwise_cons.mp hsorted
    rw [List.map_cons, ← List.singleton_append, Group.lines_append,
      Group.lines_ending, ih hrest]
    by_cases hname : entry.1 = name
    · have hnot : Dict.contains name rest = false := by
        apply eq_false_of_ne_true
        intro hthere
        obtain ⟨e, hget⟩ := Dict.contains_eq_true_iff.mp hthere
        have hlt := hfirst _ (Dict.mem_of_get? hget)
        exact List.lt_irrefl _ (hname ▸ hlt)
      have hthere : Dict.contains name (entry :: rest) = true := by
        simp [Dict.contains, Dict.get?, hname]
      rw [if_pos ⟨rfl, hname⟩, hnot, hthere, hname]
      rfl
    · have hsame : Dict.contains name (entry :: rest) =
          Dict.contains name rest := by
        simp [Dict.contains, Dict.get?, hname]
      rw [if_neg (fun h => hname h.2), hsame]
      rfl

/-- The destruction of a session is one turn of everything that is left. -/
theorem Sound.lines_farewells (hs : s.Sound) (group : Group) (name : Text) :
    group.lines name s.farewells =
      group.turn name ((s.holdings.table group).contains name) false := by
  have hrobots : s.robots.Sorted := hs.holdings.robots_sorted
  have hcontainers : s.containers.Sorted := hs.holdings.containers_sorted
  rw [farewells, Group.lines_append]
  cases group with
  | robots =>
    rw [lines_endings_of_ne (by decide), lines_endings .robots hrobots]
    rfl
  | containers =>
    rw [lines_endings .containers hcontainers, lines_endings_of_ne (by decide),
      List.append_nil]
    rfl

/-! ## The trace -/

/-- A new session with a journal has written nothing, and can write all names,
as there are none. -/
theorem journaled_newSession (outside : Outside) :
    outside.journaled.newSession.Journaled where
  robotControl_eq := rfl
  containerControl_eq := rfl
  nature_eq := by
    funext c
    simp only [Journal.nature]
    split
    · next hc =>
      subst hc
      rfl
    · next hc =>
      have hget : (Store.empty.insert Control.journal).get? c = none := by
        rw [Store.get?_insert_of_ne _ hc, Store.get?_empty]
      exact congrArg (Option.map _) hget
  wellFormed := by
    intro group name hthere
    cases group <;> cases hthere

/-- A request adds the lines of its answer, and none if it is refused. -/
theorem Sound.journal_handle (hs : s.Sound) (request : Json) :
    (Session.handle request s).2.journal.map Json.lineEntry =
        s.journal.map Json.lineEntry
          ++ request.entries (Session.handle request s).1 ∧
      ((Session.handle request s).1.status? ≠ some (text "ok") →
        (Session.handle request s).2.journal = s.journal) := by
  obtain ⟨commands, hcontinues, hentries⟩ := hs.handle_continues request
  have hjournal := journal_of_continues hcontinues.fleet
  constructor
  · rw [hjournal, List.map_append, lineEntry_journal, hentries]
  · intro hrefused
    have hnone : commands.map (fun p => p.2.entry) = [] := by
      rw [hentries, Json.entries, if_neg hrefused]
    rw [hjournal, List.map_eq_nil_iff.mp hnone, List.map_nil, List.append_nil]

/-- What has been written in the name of a session can be written once more. -/
theorem run_write_journal {t : Session}
    (hlines : ∀ p ∈ t.fleet.commands, p.2.line?.isSome = true)
    (journal : Journal) :
    Act.run ((t.fleet.commands.map (·.2)).forM Journal.write) journal =
      (.ok (),
        { written := journal.written ++ t.journal.flatMap fun line =>
          line.render ++ [Text.newline]
          count := journal.count + t.journal.length }) := by
  rw [Journal.run_write]
  · simp [Session.journal, List.flatMap_map]
  · intro command hcommand
    obtain ⟨p, hp, rfl⟩ := List.mem_map.mp hcommand
    exact hlines p hp

/-- The journal of a session that a single journal runs is the trace of the
accepted requests, whatever the requests are, and whichever random bytes and
listeners fail: each request adds the lines of its answer, and one that is
refused adds none.  The destruction of the session succeeds and adds the end of
each container and each robot that is left, in the order of their names.  All
lines can be written, and those about one robot or container are beginnings and
ends in turn, as many of one as of the other. -/
theorem journal_eq_trace (outside : Outside) (requests : List Json) :
    let answers := (handleEach requests outside.journaled.newSession).1
    let s := outside.journaled.sessionAfter requests
    let trace := (List.zipWith Json.entries requests answers).flatten
    s.journal.map Json.lineEntry = trace ∧
    (∀ request, let (answer, t) := handle request s
      t.journal.map Json.lineEntry = trace ++ request.entries answer ∧
        (answer.status? ≠ some (text "ok") → t.journal = s.journal)) ∧
    ∃ t, Act.run destroy s = (.ok (), t) ∧ t.destroyed = true ∧
      s.containers.Sorted ∧ s.robots.Sorted ∧
      t.journal.map Json.lineEntry = trace ++ s.farewells ∧
      (∀ p ∈ t.fleet.commands, p.1 = 0) ∧
      (∀ journal : Journal,
        Act.run ((t.fleet.commands.map (·.2)).forM Journal.write) journal =
          (.ok (),
            { written :=
                journal.written ++ t.journal.flatMap fun line =>
                  line.render ++ [Text.newline]
              count := journal.count + t.journal.length })) ∧
      ∀ group name, ∃ n, Group.lines group name (trace ++ s.farewells) =
        (List.replicate n
          [group.beginning name, group.ending name]).flatten := by
  intro answers s trace
  let new := outside.journaled.newSession
  have hnew : new.Sound := sound_newSession outside.journaled
  have hjnew : new.Journaled := journaled_newSession outside
  have hs : s.Sound := sound_sessionAfter outside.journaled requests
  obtain ⟨hj, halternates⟩ := hjnew.handleEach hnew requests
  obtain ⟨earlier, hearlier, hentries⟩ := hnew.handleEach_continues requests
  have hjournal : s.journal.map Json.lineEntry = trace := by
    have hwritten :
        s.journal = new.journal ++ earlier.map fun p => p.2.toJson :=
      journal_of_continues hearlier.fleet
    rw [hwritten, List.map_append, lineEntry_journal, hentries]
    rfl
  obtain ⟨t, hrun, hdestroyed, -, -, -, hlater⟩ := hs.run_destroy hj
  have hall : Fleet.Continues new.fleet t.fleet _ := hearlier.fleet.trans hlater
  have haccepted : ∀ p ∈ t.fleet.commands, p.1 = 0 ∧
      p.2.line?.isSome = true := by
    intro p hp
    rw [hall.commands_eq] at hp
    exact Fleet.line?_of_accepts hjnew.nature_eq (hall.accepted p hp)
  refine ⟨hjournal, ?_, t, hrun, hdestroyed, hs.holdings.containers_sorted,
    hs.holdings.robots_sorted, ?_, fun p hp => (haccepted p hp).1,
    run_write_journal fun p hp => (haccepted p hp).2, ?_⟩
  · intro request
    rw [← hjournal]
    exact hs.journal_handle request
  · rw [journal_of_continues hlater, List.map_append, hjournal,
      lineEntry_journal]
    simp [removals, farewells, Function.comp_def]
  · intro group name
    have hempty :
        group.Alternates name
          ((new.holdings.table group).contains name) [] := by
      cases group <;> exact ⟨0, rfl⟩
    obtain ⟨n, hn⟩ :=
      (halternates group name [] hempty).append (hs.lines_farewells group name)
    refine ⟨n, ?_⟩
    rwa [Group.turn_self, List.append_nil] at hn

/-- A robot that cannot be named is refused, and the others are ended in the
order of their names. -/
example :
    let outside : Outside :=
      { userId := text "user"
        robotControl := none
        containerControl := none
        limits := .default
        entropy := ⟨fun _ => 0, fun _ => false, 0, 0, []⟩
        controls := .empty
        listener := ⟨none, false, fun _ _ _ => none, 0⟩ }
    let adding (id : Text) := Json.ofEntries
      [(text "op", .str "add_robot"), (text "robot_id", .string id),
        (text "comm_id", .str "r")]
    let s :=
      outside.journaled.sessionAfter [adding (text "b"), adding [0xff],
        adding (text "a")]
    s.journal.map Json.lineEntry =
        [(text "create_robot", text "b"), (text "create_robot", text "a")] ∧
      s.farewells =
        [(text "destroy_robot", text "a"),
          (text "destroy_robot", text "b")] := by
  decide +kernel

end Session
end FleetControl

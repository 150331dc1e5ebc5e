import FleetControl.Proofs.Fleet.Lifetime

/-!
# The connected flag and what its owner hears

The flag of a container is set before its owner hears of it, and the owner
may object after it has heard.  `Fleet.Told` is the invariant that holds all
the same: the flag of a live container is the last one that has been heard of
it, and no connection has been heard directly after another one.  Only
setting the flag adds to what has been heard, and nothing does once the
container has been torn down.
-/

namespace FleetControl
namespace Fleet

variable {f g : Fleet} {e : EndpointId} {uid : Text}
    {begun : List (Text × Bool)} {flags : List Bool}

/-! ## Updates -/

/-- The flag that has been told last; a container begins unconnected. -/
def lastFlag (flags : List Bool) : Bool :=
  flags.getLast?.getD false

@[simp]
theorem lastFlag_append (flags : List Bool) (flag : Bool) :
    lastFlag (flags ++ [flag]) = flag := by
  simp [lastFlag]

/-- No connection follows directly on another one if the new flag is not a
second one. -/
theorem not_twice_append {flag : Bool} (h : ¬ [true, true] <:+: flags)
    (hflag : ¬ (flag = true ∧ lastFlag flags = true)) :
    ¬ [true, true] <:+: flags ++ [flag] := by
  rw [List.infix_concat_iff, List.suffix_concat_iff]
  rintro ((hnil | ⟨first, heq, hsuffix⟩) | hinfix)
  · cases hnil
  · have hsplit : [true] ++ [true] = first ++ [flag] := heq
    obtain ⟨rfl, hlast⟩ := List.append_inj' hsplit rfl
    obtain ⟨before, hbefore⟩ := hsuffix
    apply hflag
    rw [← hbefore, lastFlag_append]
    exact ⟨(List.singleton_inj.mp hlast).symm, rfl⟩
  · exact h hinfix

theorem updates_update (hhears : f.listener.hears = true) (tag : Text)
    (connected : Bool) :
    ((f.announced tag connected).heard tag connected).updates =
      f.updates ++ [(tag, connected)] := by
  have hannounced : (f.announced tag connected).updates = f.updates ∧
      (f.announced tag connected).listener = f.listener := by
    unfold announced
    split
    · exact ⟨rfl, rfl⟩
    · exact ⟨updates_log f _ _, rfl⟩
  rw [heard, hannounced.2, if_pos hhears, ← hannounced.1]
  exact updates_record_notified _ tag connected

/-! ## After the end -/

/-- Once an endpoint has been torn down, every move is quiet. -/
theorem quiet_after_of_isDeleted {group : Group}
    (h : (f.endpoint e).isDeleted = true)
    (move : Move group) : Quiet f (move.after e f) := by
  cases hquiet : move.isQuiet with
  | true => exact quiet_after f e hquiet
  | false =>
    obtain ⟨handling, rfl, -⟩ := Move.exists_own hquiet
    rw [Move.after, run_handling_of_isDeleted h]
    exact .refl f

theorem quiet_moves_of_isDeleted {group : Group}
    (h : (f.endpoint e).isDeleted = true)
    (moves : List (Move group)) : Quiet f (moves.foldl (Move.after e) f) := by
  induction moves generalizing f with
  | nil => exact .refl f
  | cons move rest ih =>
    have hfirst := quiet_after_of_isDeleted h move
    refine hfirst.trans (ih ?_)
    rw [Endpoint.isDeleted_of_core_eq (hfirst.core_eq e), h]

/-! ## The flag of a container -/

/-- Since the given updates, the flags of one container have been heard, the
last of them is its flag while it is live, and no connection has been heard
directly after another one. -/
structure Told (e : EndpointId) (uid : Text) (begun : List (Text × Bool))
    (flags : List Bool) (f : Fleet) : Prop where
  hears : f.listener.hears = true
  updates_eq : f.updates = begun ++ flags.map fun flag => (uid, flag)
  not_twice : ¬ [true, true] <:+: flags
  live : (f.endpoint e).isDeleted = false → (f.endpoint e).uid = uid ∧
    (f.endpoint e).owned = true ∧
    (f.endpoint e).role = .container (lastFlag flags)

namespace Told

theorem of_core_eq (h : Told e uid begun flags f)
    (hhears : g.listener.hears = f.listener.hears)
    (hupdates : g.updates = f.updates)
    (hcore : (g.endpoint e).core = (f.endpoint e).core) :
    Told e uid begun flags g := by
  refine ⟨hhears.trans h.hears, hupdates.trans h.updates_eq, h.not_twice, ?_⟩
  rw [Endpoint.isDeleted_of_core_eq hcore]
  intro hlive
  obtain ⟨hrole, huid, -, howned⟩ := Endpoint.eq_of_core_eq hcore
  rw [hrole, huid, howned]
  exact h.live hlive

theorem of_quiet (h : Told e uid begun flags f) (hquiet : Quiet f g) :
    Told e uid begun flags g :=
  h.of_core_eq hquiet.continues.hears_eq hquiet.updates_eq (hquiet.core_eq e)

theorem asked (h : Told e uid begun flags f) (message : Text) (c : ControlId) :
    Told e uid begun flags (f.asked message c) :=
  h.of_core_eq rfl (updates_asked f message c) rfl

theorem granted (h : Told e uid begun flags f) (message : Text) (c : ControlId)
    (command : Command) :
    Told e uid begun flags (f.granted message c command) :=
  h.of_core_eq rfl (updates_granted f message c command) rfl

theorem departed (h : Told e uid begun flags f) (other : EndpointId) :
    Told e uid begun flags (f.departed other) := by
  unfold Fleet.departed
  split
  · exact h.granted _ _ _
  · exact h

/-- The end of a container tells its owner nothing, whether it is accepted
or refused. -/
theorem destroy (h : Told e uid begun flags f) :
    Told e uid begun flags (Act.run (destroyEndpoint e) f).2 := by
  rcases run_destroyEndpoint_cases f e with
      ⟨-, hrun⟩ | ⟨fault, c, message, command, -, hrun⟩ | hrun
  · rw [hrun]
    exact h
  · rw [hrun]
    exact h.asked message c
  · obtain ⟨calls, g, hcascade, hdismantle⟩ :=
      run_dismantle_cascade (f.departed e) e
    rw [hrun, hdismantle]
    have hg := (h.departed e).of_quiet hcascade.quiet
    refine ⟨hg.hears, hg.updates_eq, hg.not_twice, ?_⟩
    intro hstill
    rw [Endpoint.isDeleted, (endpoint_retireEndpoint g e).1] at hstill
    cases hstill

theorem graph (h : Told e uid begun flags f)
    (hlive : (f.endpoint e).isDeleted = false)
    (order : Order) :
    Told e uid begun flags (Act.run (order.perform e) f).2 := by
  obtain ⟨c, hcontrol⟩ := exists_control hlive
  obtain ⟨message, hrun⟩ := Session.run_order hcontrol order
  rw [hrun]
  cases order.command with
  | error fault => exact h
  | ok command =>
    dsimp only
    cases f.objection? c command with
    | none => exact h.granted message c command
    | some fault => exact h.asked message c

/-- Every move but setting the flag tells the owner nothing. -/
theorem move_of_ne (h : Told e uid begun flags f) {move : Move .containers}
    (hmove : ∀ flag, move ≠ .own (.setConnected flag)) :
    Told e uid begun flags (move.after e f) := by
  cases hdeleted : (f.endpoint e).isDeleted with
  | true => exact h.of_quiet (quiet_after_of_isDeleted hdeleted move)
  | false =>
    cases hquiet : move.isQuiet with
    | true => exact h.of_quiet (quiet_after f e hquiet)
    | false =>
      obtain ⟨handling, rfl, hloud⟩ := Move.exists_own hquiet
      cases handling with
      | register i => cases hloud
      | unregister i => cases hloud
      | reserve address => cases hloud
      | free address => cases hloud
      | destroy => exact h.destroy
      | graph order => exact h.graph hdeleted order
      | setConnected flag => exact absurd rfl (hmove flag)

theorem connected?_eq (h : Told e uid begun flags f)
    (hlive : (f.endpoint e).isDeleted = false) :
    (f.endpoint e).connected? = some (lastFlag flags) := by
  rw [Endpoint.connected?, (h.live hlive).2.2]

/-- A second connection is refused and changes nothing. -/
theorem run_setConnected_of_twice (h : Told e uid begun flags f)
    (hlive : (f.endpoint e).isDeleted = false) (hlast : lastFlag flags = true) :
    Act.run (setConnected e true) f = (.error (.alreadyConnected uid), f) := by
  obtain ⟨c, hcontrol⟩ := exists_control hlive
  obtain ⟨huid, howned, -⟩ := h.live hlive
  rw [run_setConnected hcontrol howned, h.connected?_eq hlive, hlast,
    if_pos ⟨rfl, rfl⟩, huid]

/-- Any other flag is set and told once, and the answer is what the owner
says to it. -/
theorem run_setConnected_of_not_twice (h : Told e uid begun flags f)
    (hlive : (f.endpoint e).isDeleted = false) {flag : Bool}
    (hflag : ¬ (flag = true ∧ lastFlag flags = true)) :
    ∃ g, Act.run (setConnected e flag) f =
        (Fault.outcome (f.listener.objection f.listener.calls uid flag), g) ∧
      Told e uid begun (flags ++ [flag]) g ∧
      (g.endpoint e).isDeleted = false := by
  obtain ⟨c, hcontrol⟩ := exists_control hlive
  obtain ⟨huid, howned, -⟩ := h.live hlive
  let told := ((f.withFlag e flag).announced uid flag).heard uid flag
  have hrun : Act.run (setConnected e flag) f =
      (Fault.outcome (f.listener.objection f.listener.calls uid flag),
        told) := by
    have hagain : ¬ (flag = true ∧ (f.endpoint e).connected? = some true) := by
      rw [h.connected?_eq hlive]
      simpa using hflag
    rw [run_setConnected hcontrol howned, if_neg hagain, huid, Listener.objects,
      if_pos h.hears]
  have hendpoint :
      told.endpoint e = { f.endpoint e with role := .container flag } := by
    have hsame := sameThings_update (f.withFlag e flag) uid flag
    rw [hsame.endpoint_eq, withFlag, endpoint_modifyEndpoint_self hlive]
  have hstill : (told.endpoint e).isDeleted = false := by
    rw [hendpoint]
    exact hlive
  refine ⟨told, hrun, ⟨?_, ?_, not_twice_append h.not_twice hflag, ?_⟩, hstill⟩
  · exact (continues_update (f.withFlag e flag) uid flag).hears_eq.trans h.hears
  · have hupdates : (f.withFlag e flag).updates = f.updates := rfl
    have hhears : (f.withFlag e flag).listener.hears = true := h.hears
    rw [updates_update hhears, hupdates, h.updates_eq]
    simp
  · intro _
    rw [hendpoint, lastFlag_append]
    exact ⟨huid, howned, rfl⟩

theorem move (h : Told e uid begun flags f) (move : Move .containers) :
    ∃ more, Told e uid begun (flags ++ more) (move.after e f) := by
  by_cases hmove : ∀ flag, move ≠ .own (.setConnected flag)
  · exact ⟨[], by rw [List.append_nil]; exact h.move_of_ne hmove⟩
  · push Not at hmove
    obtain ⟨flag, rfl⟩ := hmove
    cases hdeleted : (f.endpoint e).isDeleted with
    | true =>
      refine ⟨[], ?_⟩
      rw [List.append_nil]
      exact h.of_quiet (quiet_after_of_isDeleted hdeleted _)
    | false =>
      rw [Move.after, Handling.perform]
      by_cases htwice : flag = true ∧ lastFlag flags = true
      · obtain ⟨rfl, hlast⟩ := htwice
        refine ⟨[], ?_⟩
        rw [h.run_setConnected_of_twice hdeleted hlast, List.append_nil]
        exact h
      · obtain ⟨g, hrun, htold, -⟩ :=
          h.run_setConnected_of_not_twice hdeleted htwice
        rw [hrun]
        exact ⟨[flag], htold⟩

theorem moves (h : Told e uid begun flags f) (moves : List (Move .containers)) :
    ∃ more, Told e uid begun (flags ++ more)
      (moves.foldl (Move.after e) f) := by
  induction moves generalizing f flags with
  | nil => exact ⟨[], by rw [List.append_nil]; exact h⟩
  | cons move rest ih =>
    obtain ⟨first, hfirst⟩ := h.move move
    obtain ⟨later, hlater⟩ := ih hfirst
    exact ⟨first ++ later, by rw [← List.append_assoc]; exact hlater⟩

end Told

/-! ## All containers -/

/-- A container begins without an update, and so does one that does
not begin. -/
theorem updates_newContainer (owned : Bool) (uid commId : Text)
    (control : Option ControlId) (f : Fleet) :
    (Act.run (newContainer owned uid commId control) f).2.updates =
      f.updates := by
  let P : Fleet → Prop := fun g => g.updates = f.updates
  have hcontrol :
      Act.Keeps P (requireControl [.node, .parameter, .container] control) := by
    apply Act.keeps_of_run
    intro g hg
    rcases run_requireControl [.node, .parameter, .container] control g with
      ⟨c, -, -, hrun⟩ | ⟨fault, -, hrun⟩
    · rw [hrun]
      exact hg
    · rw [hrun]
      exact hg
  have hnote : ∀ message, Act.Keeps P (note .info message) :=
    fun message => Act.upholds_modify fun g hg =>
      (updates_log g .info message).trans hg
  have hissue : ∀ c command, Act.Keeps P (issue c command) := by
    intro c command
    apply Act.keeps_of_run
    intro g hg
    rw [run_issue]
    cases g.objection? c command with
    | none => exact (updates_record_commanded (g.called c) c command).trans hg
    | some fault => exact hg
  have hnew : Act.Keeps P (newContainer owned uid commId control) := by
    refine .bind hcontrol fun c _ => .bind (hnote _) fun _ _ =>
      .bind (hissue c _) fun _ _ => ?_
    refine .bind Act.upholds_get fun g hg => ?_
    exact .bind (Act.upholds_set hg) fun _ _ => Act.upholds_pure trivial
  exact (hnew f rfl).1

/-- How a container and its owner stand at some point of the container's life,
which began after the given updates. -/
structure InStep (e : EndpointId) (uid : Text) (begun : List (Text × Bool))
    (f : Fleet) : Prop where
  /-- No connection has been heard directly after another one, and the flag of a
  live container is the last one that has been heard. -/
  updates : ∃ flags, f.updates = begun ++ flags.map (fun flag => (uid, flag)) ∧
    ¬ [true, true] <:+: flags ∧
    ((f.endpoint e).isDeleted = false →
      (f.endpoint e).connected? = some (lastFlag flags))
  /-- A flag is refused as not valid, without any change, exactly if it is a
  second connection. -/
  refused : (f.endpoint e).isDeleted = false → ∀ flag,
    (∃ fault, fault.kind = .invalid ∧
        Act.run (setConnected e flag) f = (.error fault, f)) ↔
      flag = true ∧ (f.endpoint e).connected? = some true
  /-- Any other flag is set and heard once, and the answer is what the owner
  says to it. -/
  told : (f.endpoint e).isDeleted = false → ∀ flag,
    ¬ (flag = true ∧ (f.endpoint e).connected? = some true) →
      ∃ g, Act.run (setConnected e flag) f =
          (Fault.outcome (f.listener.objection f.listener.calls uid flag), g) ∧
        g.updates = f.updates ++ [(uid, flag)] ∧
        (g.endpoint e).connected? = some flag
  /-- Nothing but setting the flag is heard. -/
  silent : ∀ move : Move .containers,
    (∀ flag, move ≠ .own (.setConnected flag)) →
    (move.after e f).updates = f.updates
  /-- Nothing is heard after the end of the container. -/
  past : (f.endpoint e).isDeleted = true → ∀ later : List (Move .containers),
    (later.foldl (Move.after e) f).updates = f.updates

theorem Told.inStep (h : Told e uid begun flags f) : InStep e uid begun f := by
  have htold : (f.endpoint e).isDeleted = false → ∀ flag,
      ¬ (flag = true ∧ (f.endpoint e).connected? = some true) →
        ∃ g, Act.run (setConnected e flag) f =
            (Fault.outcome (f.listener.objection f.listener.calls uid flag),
              g) ∧
          g.updates = f.updates ++ [(uid, flag)] ∧
            (g.endpoint e).connected? = some flag := by
    intro hlive flag hflag
    rw [h.connected?_eq hlive, Option.some_inj] at hflag
    obtain ⟨g, hrun, hg, hstill⟩ := h.run_setConnected_of_not_twice hlive hflag
    refine ⟨g, hrun, ?_, ?_⟩
    · rw [hg.updates_eq, h.updates_eq]
      simp
    · rw [hg.connected?_eq hstill, lastFlag_append]
  refine ⟨⟨flags, h.updates_eq, h.not_twice, h.connected?_eq⟩, ?_, htold, ?_,
    ?_⟩
  · intro hlive flag
    constructor
    · rintro ⟨fault, -, hrun⟩
      -- Had the flag been set, one more update would have been heard.
      by_contra hflag
      obtain ⟨g, hrun', hupdates, -⟩ := htold hlive flag hflag
      rw [hrun, Prod.mk.injEq] at hrun'
      rw [← hrun'.2] at hupdates
      simp at hupdates
    · rintro ⟨rfl, hlast⟩
      rw [h.connected?_eq hlive, Option.some_inj] at hlast
      exact ⟨.alreadyConnected uid, rfl,
        h.run_setConnected_of_twice hlive hlast⟩
  · intro move hmove
    exact (h.move_of_ne hmove).updates_eq.trans h.updates_eq.symm
  · intro hdeleted later
    exact (quiet_moves_of_isDeleted hdeleted later).updates_eq

/-- The flag of a container and the updates that its owner hears stay in
step, whatever is done with the container, in any order and number, and
whichever updates the owner objects to.  A container begins if its delegate
is obliging. -/
theorem inStep_of_newContainer (hfresh : f.endpoints.Fresh)
    (hhears : f.listener.hears = true) (uid commId : Text)
    (control : Option ControlId) :
    (∃ fault g, ¬ f.Obliging control [.node, .parameter, .container] ∧
      Act.run (newContainer true uid commId control) f = (.error fault, g) ∧
      g.updates = f.updates) ∨
    ∃ e g, Act.run (newContainer true uid commId control) f = (.ok e, g) ∧
      ∀ moves : List (Move .containers),
        InStep e uid f.updates (moves.foldl (Move.after e) g) := by
  have hupdates := updates_newContainer true uid commId control f
  rcases run_newContainer true uid commId control f with
    ⟨c, g, -, -, hrun, hcontinues, -, hendpoints⟩ | ⟨fault, g, hnot, hrun, -, -⟩
  · rw [hrun] at hupdates
    refine Or.inr ⟨f.endpoints.next, g, hrun, ?_⟩
    intro moves
    have hendpoint : g.endpoint f.endpoints.next =
        ⟨.container false, uid, commId, some c, true, [], []⟩ := by
      rw [endpoint, hendpoints, Store.get?_insert_next hfresh]
      rfl
    have hbegun : Told f.endpoints.next uid f.updates [] g := by
      refine ⟨hcontinues.hears_eq.trans hhears, by simpa using hupdates,
        by simp, ?_⟩
      intro _
      rw [hendpoint]
      exact ⟨rfl, rfl, rfl⟩
    obtain ⟨more, htold⟩ := hbegun.moves moves
    exact htold.inStep
  · rw [hrun] at hupdates
    exact Or.inl ⟨fault, g, hnot, hrun, hupdates⟩

/-- A fleet whose listener objects to the first update. -/
def contrary : Fleet where
  controls := ⟨[(0, ⟨[.container, .node, .parameter], fun _ _ => none, 0⟩)], 1⟩
  endpoints := .empty
  interfaces := .empty
  listener :=
    ⟨none, true, fun n _ _ => if n = 0 then
      some (.foreign .runtime (text "busy") []) else none, 0⟩
  history := []

theorem inStep_of_newContainer_contrary :
    contrary.endpoints.Fresh ∧ contrary.listener.hears = true ∧
      ∃ e g,
        Act.run (newContainer true (text "c1") (text "m1") (some 0)) contrary =
          (.ok e, g) ∧
        ∀ moves : List (Move .containers),
          InStep e (text "c1") [] (moves.foldl (Move.after e) g) := by
  refine ⟨Store.fresh_empty, rfl, ?_⟩
  rcases inStep_of_newContainer (f := contrary) Store.fresh_empty rfl
    (text "c1") (text "m1") (some 0) with ⟨fault, g, -, hrun, -⟩ | hbegun
  · cases hrun
  · exact hbegun

/-- The update that the listener objects to counts, the second connection does
not, and nothing is heard after the end. -/
example :
    let begun :=
      (Act.run (newContainer true (text "c1") (text "m1") (some 0)) contrary).2
    let set := fun flag => Move.own (Handling.setConnected flag)
    ([set true, set true, set false, .own .destroy, set true].foldl
      (Move.after 0) begun).updates =
      [(text "c1", true), (text "c1", false)] := by
  cbv

end Fleet
end FleetControl

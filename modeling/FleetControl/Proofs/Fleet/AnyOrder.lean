import FleetControl.Proofs.Fleet.Cascade
import FleetControl.Proofs.Fleet.Rearranged

/-!
# The end of an endpoint in any order

The order in which an endpoint tears down its interfaces does not matter.
`Fleet.drain` is the same work as a list of interfaces that are still to be
torn down: an interface that is shut puts the one that it tears down afterwards
in front of those that wait.  Every step either raises a fault of its interface
or shuts it, and no step changes what the steps of other interfaces do; so any
two lists of the same interfaces raise the same faults and leave the same
fleet, up to order.

A chain of interfaces reaches a live one through the first of its predecessors
that comes, and any later one meets it again: which of the calls fails depends
on the order, what the faults are does not.
-/

namespace FleetControl

open scoped List

namespace Fleet

/-- The fault that tearing an interface down raises at once, before
anything changes. -/
def fault? (fleet : Fleet) (i : InterfaceId) : Option Fault :=
  match (fleet.interface i).behaviour with
  | .stuck fault => some fault
  | _ =>
    if (fleet.interface i).deleted then
      some (.interfaceDeleted (fleet.interface i).tag) else none

/-- What an interface tears down after itself. -/
def later (fleet : Fleet) (i : InterfaceId) : List InterfaceId :=
  match (fleet.interface i).behaviour with
  | .chain next => [next]
  | _ => []

theorem deleted_of_fault?_eq_none {f : Fleet} {i : InterfaceId}
    (h : f.fault? i = none) :
    (f.interface i).deleted = false := by
  unfold fault? at h
  cases hdeleted : (f.interface i).deleted with
  | false => rfl
  | true =>
    rw [hdeleted] at h
    split at h
    · cases h
    · cases h

theorem length_later (f : Fleet) (i : InterfaceId) :
    (f.later i).length ≤ 1 := by
  unfold later
  split
  · exact Nat.le_refl 1
  · exact Nat.zero_le 1

/-- How many steps interfaces that wait to be torn down may still take. -/
def remaining (fleet : Fleet) (waiting : List InterfaceId) : Nat :=
  fleet.liveInterfaces + waiting.length

theorem remaining_shut_lt {f : Fleet} {i : InterfaceId} (h : f.fault? i = none)
    (waiting : List InterfaceId) :
    (f.shut i).remaining (f.later i ++ waiting) <
      f.remaining (i :: waiting) := by
  have hlt := liveInterfaces_shut_lt (deleted_of_fault?_eq_none h)
  have hlater := length_later f i
  simp only [remaining, List.length_append, List.length_cons]
  omega

/-- The faults of all the interfaces that wait to be torn down, and the fleet
that they leave. -/
def drain (fleet : Fleet) : List InterfaceId → List Fault × Fleet
  | [] => ([], fleet)
  | i :: waiting =>
    match _h : fleet.fault? i with
    | some fault => (fault :: (drain fleet waiting).1, (drain fleet waiting).2)
    | none => drain (fleet.shut i) (fleet.later i ++ waiting)
termination_by waiting => fleet.remaining waiting
decreasing_by
  · simp only [remaining, List.length_cons]
    omega
  · exact remaining_shut_lt _h waiting

variable {f g : Fleet} {extra : List Event} {i j : InterfaceId} {fault : Fault}

@[simp]
theorem drain_nil (f : Fleet) : f.drain [] = ([], f) := by
  simp only [drain]

theorem drain_of_fault (h : f.fault? i = some fault)
    (waiting : List InterfaceId) :
    f.drain (i :: waiting) =
      (fault :: (f.drain waiting).1, (f.drain waiting).2) := by
  simp only [drain]
  split
  · next fault' h' =>
    rw [h, Option.some.injEq] at h'
    rw [h']
  · next h' => simp [h] at h'

theorem drain_of_shut (h : f.fault? i = none) (waiting : List InterfaceId) :
    f.drain (i :: waiting) = (f.shut i).drain (f.later i ++ waiting) := by
  simp only [drain]
  split
  · next fault' h' => simp [h] at h'
  · rfl

theorem fault?_shut_of_ne (f : Fleet) (hji : j ≠ i) :
    (f.shut i).fault? j = f.fault? j := by
  rw [fault?, interface_shut_of_ne f hji, fault?]

theorem later_shut_of_ne (f : Fleet) (hji : j ≠ i) :
    (f.shut i).later j = f.later j := by
  rw [later, interface_shut_of_ne f hji, later]

theorem remaining_shut_shut_lt (hij : i ≠ j) (hi : f.fault? i = none)
    (hj : f.fault? j = none) (waiting : List InterfaceId) :
    ((f.shut i).shut j).remaining (f.later j ++ (f.later i ++ waiting)) + 1 <
      f.remaining (i :: j :: waiting) := by
  have hj' : (f.shut i).fault? j = none := by
    rw [fault?_shut_of_ne f hij.symm, hj]
  have hfirst := remaining_shut_lt hi (j :: waiting)
  have hsecond := remaining_shut_lt hj' (f.later i ++ waiting)
  rw [later_shut_of_ne f hij.symm] at hsecond
  simp only [remaining, List.length_append, List.length_cons]
    at hfirst hsecond ⊢
  omega

theorem Rearranged.fault?_eq (h : Rearranged extra f g) (i : InterfaceId) :
    g.fault? i = f.fault? i := by
  rw [fault?, h.interface_eq, fault?]

theorem Rearranged.later_eq (h : Rearranged extra f g) (i : InterfaceId) :
    g.later i = f.later i := by
  rw [later, h.interface_eq, later]

/-! ## The order of what waits -/

/-- The two lists of faults are the same up to order, and so are the fleets, but
for some extra events of the second one. -/
def Matches (extra : List Event) (first second : List Fault × Fleet) : Prop :=
  second.1 ~ first.1 ∧ Rearranged extra first.2 second.2

namespace Matches

variable {a b c : List Fault × Fleet} {more : List Event}

theorem trans (hab : Matches extra a b) (hbc : Matches more b c) :
    Matches (more ++ extra) a c :=
  ⟨hbc.1.trans hab.1, hab.2.trans hbc.2⟩

theorem symm (hab : Matches [] a b) : Matches [] b a :=
  ⟨hab.1.symm, hab.2.symm⟩

theorem cons (hab : Matches extra a b) (fault : Fault) :
    Matches extra (fault :: a.1, a.2) (fault :: b.1, b.2) :=
  ⟨hab.1.cons fault, hab.2⟩

end Matches

/-- For less than so many steps, the order of what waits does not matter. -/
def OrderFree (steps : Nat) : Prop :=
  ∀ {f g : Fleet} {extra : List Event} {waiting other : List InterfaceId},
    f.remaining waiting < steps → waiting ~ other → Rearranged extra f g →
      Matches extra (f.drain waiting) (g.drain other)

namespace OrderFree

variable {steps : Nat} {waiting other : List InterfaceId}

/-- The first interface takes the same step in both fleets. -/
theorem cons (h : OrderFree steps)
    (hsteps : f.remaining (i :: waiting) < steps + 1)
    (hperm : waiting ~ other) (hfg : Rearranged extra f g) :
    Matches extra (f.drain (i :: waiting)) (g.drain (i :: other)) := by
  have hsame := hfg.fault?_eq i
  cases hfault : f.fault? i with
  | some fault =>
    rw [hfault] at hsame
    rw [drain_of_fault hfault, drain_of_fault hsame]
    have hrest : f.remaining waiting < steps := by
      simp only [remaining, List.length_cons] at hsteps ⊢
      omega
    exact (h hrest hperm hfg).cons fault
  | none =>
    rw [hfault] at hsame
    rw [drain_of_shut hfault, drain_of_shut hsame, hfg.later_eq]
    have hlt := remaining_shut_lt hfault waiting
    exact h (by omega) (hperm.append_left _) (hfg.shut i)

/-- An interface that is shut first leaves the one behind it in front. -/
theorem shut_then_front (h : OrderFree steps) (hi : f.fault? i = none)
    (hsteps : f.remaining (i :: j :: waiting) < steps + 1) :
    Matches [] (f.drain (i :: j :: waiting))
      ((f.shut i).drain (j :: (f.later i ++ waiting))) := by
  rw [drain_of_shut hi]
  have hlt := remaining_shut_lt hi (j :: waiting)
  exact h (by omega) List.perm_middle (.refl _)

/-- A fault is raised as well when another interface has been torn
down before. -/
theorem swap_of_fault (h : OrderFree steps) (hij : i ≠ j)
    (hi : f.fault? i = some fault)
    (hsteps : f.remaining (i :: j :: waiting) < steps + 1) :
    Matches [] (f.drain (i :: j :: waiting)) (f.drain (j :: i :: waiting)) := by
  rw [drain_of_fault hi]
  cases hj : f.fault? j with
  | some fault' =>
    rw [drain_of_fault hj, drain_of_fault hj, drain_of_fault hi]
    exact ⟨List.Perm.swap _ _ _, .refl _⟩
  | none =>
    have hfront : Matches [] (f.drain (j :: i :: waiting))
        ((f.shut j).drain (i :: (f.later j ++ waiting))) :=
      h.shut_then_front hj hsteps
    have hi' : (f.shut j).fault? i = some fault := by
      rw [fault?_shut_of_ne f hij, hi]
    rw [drain_of_fault hi', ← drain_of_shut hj] at hfront
    exact hfront.symm

/-- Two interfaces that do not fail at once are both shut before those that they
tear down. -/
theorem shut_both (h : OrderFree steps) (hij : i ≠ j) (hi : f.fault? i = none)
    (hj : f.fault? j = none)
    (hsteps : f.remaining (i :: j :: waiting) < steps + 1) :
    Matches [] (f.drain (i :: j :: waiting))
      (((f.shut i).shut j).drain (f.later j ++ (f.later i ++ waiting))) := by
  have hfront := h.shut_then_front hi hsteps
  have hj' : (f.shut i).fault? j = none := by
    rw [fault?_shut_of_ne f hij.symm, hj]
  rwa [drain_of_shut hj', later_shut_of_ne f hij.symm] at hfront

/-- The first two interfaces may be swapped. -/
theorem swap (h : OrderFree steps)
    (hsteps : f.remaining (i :: j :: waiting) < steps + 1) :
    Matches [] (f.drain (i :: j :: waiting)) (f.drain (j :: i :: waiting)) := by
  by_cases hij : i = j
  · rw [hij]
    exact ⟨.refl _, .refl _⟩
  · have hsteps' : f.remaining (j :: i :: waiting) < steps + 1 := hsteps
    cases hi : f.fault? i with
    | some fault => exact h.swap_of_fault hij hi hsteps
    | none =>
      cases hj : f.fault? j with
      | some fault => exact (h.swap_of_fault (Ne.symm hij) hj hsteps').symm
      | none =>
        have hfirst := h.shut_both hij hi hj hsteps
        have hsecond := h.shut_both (Ne.symm hij) hj hi hsteps'
        have hless := remaining_shut_shut_lt hij hi hj waiting
        have hlists : f.later j ++ (f.later i ++ waiting) ~
            f.later i ++ (f.later j ++ waiting) := by
          rw [← List.append_assoc, ← List.append_assoc]
          exact List.perm_append_comm.append_right _
        have hmiddle := h (by omega) hlists (rearranged_shut_shut f hij)
        exact (hfirst.trans hmiddle).trans (hsecond.symm)

/-- One step more is order-free as well. -/
theorem succ (h : OrderFree steps) : OrderFree (steps + 1) := by
  intro f g extra waiting other hsteps hperm hfg
  induction hperm generalizing f g extra with
  | nil => exact ⟨by simp, by simpa using hfg⟩
  | cons i hperm ih => exact h.cons hsteps hperm hfg
  | swap i j rest =>
    have hswap := h.swap hsteps
    have hsame :
        Matches extra (f.drain (i :: j :: rest)) (g.drain (i :: j :: rest)) :=
      h.cons hsteps (.refl _) hfg
    simpa using hswap.trans hsame
  | trans hfirst hsecond ih₁ ih₂ =>
    have hsteps' := hsteps
    rw [remaining, hfirst.length_eq] at hsteps'
    simpa using (ih₁ hsteps (.refl f)).trans (ih₂ hsteps' hfg)

end OrderFree

theorem orderFree (steps : Nat) : OrderFree steps := by
  induction steps with
  | zero => exact fun hsteps => absurd hsteps (Nat.not_lt_zero _)
  | succ steps ih => exact ih.succ

/-- Interfaces that wait in another order raise the same faults, and leave the
same fleet up to the order of things. -/
theorem matches_drain {waiting other : List InterfaceId}
    (hperm : waiting ~ other) (hfg : Rearranged extra f g) :
    Matches extra (f.drain waiting) (g.drain other) :=
  orderFree _ (Nat.lt_succ_self _) hperm hfg

/-! ## The calls of a cascade -/

/-- What is drained when one more interface has been torn down before. -/
def after (answer : Except Fault Unit) (rest : List Fault × Fleet) :
    List Fault × Fleet :=
  match answer with
  | .ok _ => rest
  | .error fault => (fault :: rest.1, rest.2)

/-- An interface that is torn down is drained together with all that it
tears down. -/
theorem Descends.drain_cons {closed : List InterfaceId}
    {answer : Except Fault Unit}
    (h : Descends f i closed answer g) (waiting : List InterfaceId) :
    f.drain (i :: waiting) = after answer (g.drain waiting) := by
  induction h with
  | stuck hbehaviour =>
    rw [drain_of_fault (by rw [fault?, hbehaviour])]
    rfl
  | @again f i hdeleted hbehaviour =>
    have hfault :
        f.fault? i = some (.interfaceDeleted (f.interface i).tag) := by
      unfold fault?
      split
      · next fault hstuck => exact absurd hstuck (hbehaviour fault)
      · rw [if_pos hdeleted]
    rw [drain_of_fault hfault]
    rfl
  | @last f i hlive hbehaviour =>
    have hfault : f.fault? i = none := by
      rcases hbehaviour with hplain | ⟨address, haddress⟩
      · simp [fault?, hplain, hlive]
      · simp [fault?, haddress, hlive]
    have hlater : f.later i = [] := by
      rcases hbehaviour with hplain | ⟨address, haddress⟩
      · simp [later, hplain]
      · simp [later, haddress]
    rw [drain_of_shut hfault, hlater]
    rfl
  | @onward f i next closed answer g hlive hbehaviour hlater ih =>
    have hfault : f.fault? i = none := by simp [fault?, hbehaviour, hlive]
    have hshut : f.shut i = f.close i := by
      simp [shut, releaseOwned, hbehaviour, Behaviour.address?]
    rw [drain_of_shut hfault, hshut, later, hbehaviour]
    exact ih

/-- The log entries on the faults of the calls, where the interfaces have the
given tags. -/
def faultReports (uid : Text) (tag : InterfaceId → Text)
    (calls : List (Act.Call InterfaceId)) :
    List Event :=
  calls.filterMap fun call =>
    call.fault?.map fun fault =>
      .logged (interfaceReport uid (tag call.target) fault)

/-- The calls of a cascade drain what they call, and add the reports of
their faults. -/
theorem matches_of_swept {uid : Text} {tag : InterfaceId → Text}
    {calls : List (Act.Call InterfaceId)}
    (htag : ∀ j, (f.interface j).tag = tag j)
    (h : Act.Swept destroyInterface (reportInterface uid) f calls g) :
    ∃ extra, extra ~ faultReports uid tag calls ∧
      Matches extra (f.drain (calls.map Act.Call.target))
        (Act.faults calls, g) := by
  induction h with
  | done f =>
    exact ⟨[], .refl _, by simp [Matches, Act.faults, Rearranged.refl]⟩
  | @call i answer f t calls g hrun hlater ih =>
    obtain ⟨closed, hdescends⟩ := descends_teardown f i
    have hteardown : f.teardown i = (answer, t) := hrun
    rw [hteardown] at hdescends
    have htag' : ∀ j, (t.interface j).tag = tag j :=
      fun j => (hdescends.tag_eq j).trans (htag j)
    rw [List.map_cons, hdescends.drain_cons]
    cases answer with
    | ok done => exact ih htag'
    | error fault =>
      let report : Event :=
        .logged (interfaceReport uid (t.interface i).tag fault)
      have hreported : Rearranged [report] t (t.record report) :=
        (Rearranged.refl t).record report
      obtain ⟨extra, hextra, hmatches⟩ := ih htag'
      refine ⟨extra ++ [report], ?_, ?_⟩
      · have hreports : faultReports uid tag (⟨i, .error fault⟩ :: calls) =
            report :: faultReports uid tag calls := by
          simp [faultReports, report, htag', Act.Call.fault?]
        rw [hreports]
        exact (List.perm_append_singleton _ _).trans (hextra.cons _)
      · exact ((matches_drain (.refl _) hreported).trans hmatches).cons fault

/-! ## The end of an endpoint -/

/-- The fleet with the registered interfaces of an endpoint in the
given order. -/
def inOrder (fleet : Fleet) (e : EndpointId) (order : List InterfaceId) :
    Fleet :=
  fleet.modifyEndpoint e fun endpoint => { endpoint with registered := order }

variable {e : EndpointId} {order : List InterfaceId}

theorem endpoint_inOrder (hlive : (f.endpoint e).isDeleted = false) :
    (f.inOrder e order).endpoint e =
      { f.endpoint e with registered := order } :=
  endpoint_modifyEndpoint_self hlive _

theorem rearranged_inOrder (hlive : (f.endpoint e).isDeleted = false)
    (horder : order ~ (f.endpoint e).registered) :
    Rearranged [] f (f.inOrder e order) := by
  refine ⟨rfl, rfl, rfl, ?_, .refl _⟩
  intro other
  by_cases hother : other = e
  · rw [hother, endpoint_inOrder hlive]
    exact ⟨horder, rfl⟩
  · simp only [inOrder, endpoint, modifyEndpoint,
      Store.get?_modify_of_ne _ hother]
    exact .refl _

theorem departed_inOrder (hlive : (f.endpoint e).isDeleted = false) :
    (f.inOrder e order).departed e = (f.departed e).inOrder e order := by
  rw [departed, endpoint_inOrder hlive, departed]
  have hfarewell :
      ({ f.endpoint e with registered := order } : Endpoint).farewell? =
      (f.endpoint e).farewell? := rfl
  simp only [hfarewell]
  split
  · rfl
  · rfl

/-- Two fleets are the same up to the order of things, apart from the reports
among the events of each. -/
structure SameButReports (first second : List Event) (f g : Fleet) : Prop where
  controls_eq : g.controls = f.controls
  listener_eq : g.listener = f.listener
  /-- Every interface has the same delegate, and has been torn down in both
  fleets or in neither. -/
  interfaces_eq : g.interfaces = f.interfaces
  /-- Every endpoint has the same registered interfaces, and the same
  reserved addresses. -/
  endpoint : ∀ e, (f.endpoint e).Reordered (g.endpoint e)
  history : ∃ common, f.history ~ first ++ common ∧ g.history ~ second ++ common

theorem Rearranged.sameButReports {first second : List Event} {h : Fleet}
    (hf : Rearranged first h f) (hg : Rearranged second h g) :
    SameButReports first second f g where
  controls_eq := hg.controls_eq.trans hf.controls_eq.symm
  listener_eq := hg.listener_eq.trans hf.listener_eq.symm
  interfaces_eq := hg.interfaces_eq.trans hf.interfaces_eq.symm
  endpoint := fun e => (hf.endpoint e).symm.trans (hg.endpoint e)
  history := ⟨h.history, hf.history_perm, hg.history_perm⟩

theorem Rearranged.of_perm {more : List Event} (hfg : Rearranged extra f g)
    (h : extra ~ more) :
    Rearranged more f g :=
  ⟨hfg.controls_eq, hfg.listener_eq, hfg.interfaces_eq, hfg.endpoint,
    hfg.history_perm.trans (h.append_right _)⟩

theorem Rearranged.retireEndpoint (hfg : Rearranged extra f g)
    (e : EndpointId) :
    Rearranged extra (f.retireEndpoint e) (g.retireEndpoint e) := by
  refine ⟨hfg.controls_eq, hfg.listener_eq, hfg.interfaces_eq, ?_,
    hfg.history_perm⟩
  intro other
  simp only [Fleet.retireEndpoint]
  rw [endpoint_modifyEndpoint_of_gone f e other rfl,
    endpoint_modifyEndpoint_of_gone g e other rfl]
  split
  · rw [(hfg.endpoint other).others_eq]
    exact .refl _
  · exact hfg.endpoint other

theorem raises_structural_iff (found : List Fault) :
    (∃ fault, Fault.outcome (found.find? Fault.isStructural) = .error fault ∧
        fault.isStructural = true) ↔
      ∃ fault ∈ found, fault.isStructural = true := by
  cases hfind : found.find? Fault.isStructural with
  | none =>
    rw [List.find?_eq_none] at hfind
    constructor
    · rintro ⟨fault, hfault, -⟩
      cases hfault
    · rintro ⟨fault, hmem, hfault⟩
      exact absurd hfault (hfind fault hmem)
  | some fault =>
    have hfault := List.find?_some hfind
    have hmem := List.mem_of_find?_eq_some hfind
    exact ⟨fun _ => ⟨fault, hmem, hfault⟩, fun _ => ⟨fault, rfl, hfault⟩⟩

/-- Two cascades over the same interfaces raise the same faults, and leave the
same fleet up to their reports. -/
theorem Cascade.matches {calls calls' : List (Act.Call InterfaceId)}
    {f' g' : Fleet} (h : f.Cascade e calls g) (h' : f'.Cascade e calls' g')
    (hff : Rearranged [] f f') :
    Act.faults calls' ~ Act.faults calls ∧
      SameButReports (faultReports (f.endpoint e).uid
        (fun i => (f.interface i).tag) calls)
        (faultReports (f.endpoint e).uid (fun i => (f.interface i).tag) calls')
        (g.retireEndpoint e) (g'.retireEndpoint e) := by
  have huid : (f'.endpoint e).uid = (f.endpoint e).uid := by
    rw [(hff.endpoint e).others_eq]
  have htag : ∀ i, (f'.interface i).tag = (f.interface i).tag :=
    fun i => by rw [hff.interface_eq]
  have horder : calls.map Act.Call.target ~ calls'.map Act.Call.target := by
    rw [h.targets_eq, h'.targets_eq]
    exact (hff.endpoint e).registered_perm.symm
  obtain ⟨extra, hextra, hmatches⟩ := matches_of_swept (fun _ => rfl) h.swept
  have hswept' := h'.swept
  rw [huid] at hswept'
  obtain ⟨extra', hextra', hmatches'⟩ := matches_of_swept htag hswept'
  have hmatches'' := (matches_drain horder hff).trans hmatches'
  rw [List.append_nil] at hmatches''
  have hfirst := (hmatches.2.of_perm hextra).retireEndpoint e
  have hsecond := (hmatches''.2.of_perm hextra').retireEndpoint e
  exact ⟨hmatches''.1.trans hmatches.1.symm, hfirst.sameButReports hsecond⟩

/-- A live endpoint comes to the same end in whatever order it tears down its
interfaces.  If its end is accepted, every order raises the same faults, one
that shows a mismatch of registrations is raised afterwards in every order or in
none, and the fleet is left with the same interfaces, registrations and
reservations.  The log entries are in another order, and may complain of other
interfaces.  If the end is refused, no order begins. -/
theorem same_end_in_any_order {c : ControlId}
    (hlive : (f.endpoint e).control = some c)
    (horder : order ~ (f.endpoint e).registered) :
    ((∀ message command, (f.endpoint e).farewell? = some (message, command) →
        f.objection? c command = none) →
      ∃ calls calls' g g',
        (f.departed e).Cascade e calls g ∧
        ((f.inOrder e order).departed e).Cascade e calls' g' ∧
        Act.run (destroyEndpoint e) f =
          (Fault.outcome ((Act.faults calls).find? Fault.isStructural),
            g.retireEndpoint e) ∧
        Act.run (destroyEndpoint e) (f.inOrder e order) =
          (Fault.outcome ((Act.faults calls').find? Fault.isStructural),
            g'.retireEndpoint e) ∧
        calls.map Act.Call.target = (f.endpoint e).registered ∧
        calls'.map Act.Call.target = order ∧
        Act.faults calls' ~ Act.faults calls ∧
        ((∃ fault, (Act.run (destroyEndpoint e) (f.inOrder e order)).1 =
              .error fault ∧ fault.isStructural = true) ↔
          ∃ fault, (Act.run (destroyEndpoint e) f).1 = .error fault ∧
            fault.isStructural = true) ∧
        SameButReports
          (faultReports (f.endpoint e).uid (fun i => (f.interface i).tag) calls)
          (faultReports (f.endpoint e).uid
            (fun i => (f.interface i).tag) calls')
          (g.retireEndpoint e) (g'.retireEndpoint e)) ∧
    ∀ message command fault,
      (f.endpoint e).farewell? = some (message, command) →
      f.objection? c command = some fault →
        Act.run (destroyEndpoint e) f = (.error fault, f.asked message c) ∧
        Act.run (destroyEndpoint e) (f.inOrder e order) =
          (.error fault, (f.asked message c).inOrder e order) := by
  have hdeleted : (f.endpoint e).isDeleted = false := by
    rw [Endpoint.isDeleted, hlive]; rfl
  have hendpoint : (f.inOrder e order).endpoint e =
      { f.endpoint e with registered := order } :=
    endpoint_inOrder hdeleted
  have hlive' : ((f.inOrder e order).endpoint e).control = some c := by
    rw [hendpoint, hlive]
  have hfarewell : ((f.inOrder e order).endpoint e).farewell? =
      (f.endpoint e).farewell? := by
    rw [hendpoint]
    rfl
  constructor
  · intro haccepts
    have haccepts' : ∀ message command,
        ((f.inOrder e order).endpoint e).farewell? = some (message, command) →
          (f.inOrder e order).objection? c command = none := by
      rw [hfarewell]
      exact haccepts
    have hsame := (sameThings_departed f e).endpoint_eq e
    have hdeparted :
        Rearranged [] (f.departed e) ((f.inOrder e order).departed e) := by
      rw [departed_inOrder hdeleted]
      exact rearranged_inOrder (by rw [hsame, hdeleted]) (by rwa [hsame])
    obtain ⟨calls, g, hcascade, hrun⟩ := run_dismantle_cascade (f.departed e) e
    obtain ⟨calls', g', hcascade', hrun'⟩ :=
      run_dismantle_cascade ((f.inOrder e order).departed e) e
    rw [← run_destroyEndpoint_of_accepted hlive haccepts] at hrun
    rw [← run_destroyEndpoint_of_accepted hlive' haccepts'] at hrun'
    obtain ⟨hfaults, hleft⟩ := hcascade.matches hcascade' hdeparted
    have htags : (fun i => ((f.departed e).interface i).tag) = fun i =>
        (f.interface i).tag := by
      funext i
      rw [(sameThings_departed f e).interface_eq i]
    rw [hsame, htags] at hleft
    refine ⟨calls, calls', g, g', hcascade, hcascade', hrun, hrun', ?_, ?_,
      hfaults, ?_, hleft⟩
    · rw [hcascade.targets_eq, hsame]
    · rw [hcascade'.targets_eq, (sameThings_departed _ e).endpoint_eq e,
        hendpoint]
    · rw [hrun, hrun']
      rw [raises_structural_iff, raises_structural_iff]
      simp only [hfaults.mem_iff]
  · intro message command fault hsome hobjects
    refine ⟨run_destroyEndpoint_of_refused hlive hsome hobjects, ?_⟩
    exact run_destroyEndpoint_of_refused hlive' (hfarewell.trans hsome) hobjects

/-- The interfaces that tear each other down fail in either order, and the one
that always fails does so as well. -/
theorem same_end_of_ring_in_reverse :
    (ring.endpoint 0).control = some 0 ∧
      [3, 2, 1, 0] ~ (ring.endpoint 0).registered ∧ ∃ calls calls' g g',
        (ring.departed 0).Cascade 0 calls g ∧
        ((ring.inOrder 0 [3, 2, 1, 0]).departed 0).Cascade 0 calls' g' ∧
        calls'.map Act.Call.target = [3, 2, 1, 0] ∧
        Act.faults calls' ~ Act.faults calls ∧
        (g'.retireEndpoint 0).interfaces = (g.retireEndpoint 0).interfaces := by
  have horder : [3, 2, 1, 0] ~ (ring.endpoint 0).registered := by decide
  obtain ⟨hany, -⟩ :=
    same_end_in_any_order (f := ring) (e := 0) (c := 0) rfl horder
  obtain ⟨calls, calls', g, g', hcascade, hcascade', -, -, -, htargets, hfaults,
    -, hleft⟩ :=
    hany fun _ _ _ => rfl
  exact ⟨rfl, horder, calls, calls', g, g', hcascade, hcascade', htargets,
    hfaults, hleft.interfaces_eq⟩

example :
    (Act.run (destroyEndpoint 0) (ring.inOrder 0 [3, 2, 1, 0])).1 =
      .error .notRegistered := by
  cbv

end Fleet
end FleetControl

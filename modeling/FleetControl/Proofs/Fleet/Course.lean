import FleetControl.Proofs.Fleet.Leaving
import FleetControl.Proofs.Fleet.Lifetime

/-!
# Courses of a fleet

A course starts from a fleet without endpoints and interfaces.  Endpoints and
interfaces are made, interfaces are registered with their own endpoints, taken
from them, torn down and dropped, addresses are reserved and freed, and
endpoints are used and torn down, in any order and number, while delegates,
listeners and interfaces may fail at any time.

What `Fleet.Tidy` says of registrations and addresses holds at every point
of every course.  It is read off the invariant `Fleet.Consistent`, which
each deed keeps.
-/

namespace FleetControl

/-- What may be done to a fleet. -/
inductive Deed where
  | newBare (owned : Bool) (uid commId : Text) (control : Option ControlId)
  | newRobot (owned : Bool) (uid commId key : Text) (control : Option ControlId)
  | newEnvironment (owned : Bool) (uid commId : Text)
      (control : Option ControlId)
  | newContainer (owned : Bool) (uid commId : Text) (control : Option ControlId)
  | handle (e : EndpointId) {group : Group} (handling : Handling group)
  | newInterface (home : EndpointId) (tag : Text) (behaviour : Behaviour)
  | registerControl (i : InterfaceId) (control : Option ControlId)
  | destroyInterface (i : InterfaceId)
  | dropInterface (i : InterfaceId)

/-- The addresses held by hand after an operation of an endpoint
has succeeded. -/
def Handling.held {group : Group} (e : EndpointId) (held : Fleet.Held) :
    Handling group → Fleet.Held
  | .reserve address => (e, address) :: held
  | .free address => held.filter fun entry => entry ≠ (e, address)
  | _ => held

namespace Deed

/-- The fleet after a deed, which may have failed. -/
def after (f : Fleet) : Deed → Fleet
  | .newBare owned uid commId control =>
    (Act.run (Fleet.newBare owned uid commId control) f).2
  | .newRobot owned uid commId key control =>
    (Act.run (Fleet.newRobot owned uid commId key control) f).2
  | .newEnvironment owned uid commId control =>
    (Act.run (Fleet.newEnvironment owned uid commId control) f).2
  | .newContainer owned uid commId control =>
    (Act.run (Fleet.newContainer owned uid commId control) f).2
  | .handle e handling => (Act.run (handling.perform e) f).2
  | .newInterface home tag behaviour =>
    (Act.run (Fleet.newInterface home tag behaviour) f).2
  | .registerControl i control =>
    (Act.run (Fleet.registerControl i control) f).2
  | .destroyInterface i => (Act.run (Fleet.destroyInterface i) f).2
  | .dropInterface i => f.dropInterface i

/-- The addresses held by hand after a deed. -/
def held (f : Fleet) (held : Fleet.Held) : Deed → Fleet.Held
  | .handle e handling =>
    match (Act.run (handling.perform e) f).1 with
    | .ok _ => handling.held e held
    | .error _ => held
  | _ => held

/-- An interface is registered with its own endpoint only, and nobody frees the
address of a live interface but the interface itself. -/
def Allowed (f : Fleet) : Deed → Prop
  | .handle e (.register i) => (f.interface i).endpoint = e
  | .handle e (.free address) => ∀ i, ¬ (f.interface i).Owns e address
  | _ => True

end Deed

namespace Fleet

variable {f : Fleet} {held : Held} {e : EndpointId} {i : InterfaceId}
    {c : ControlId}

/-- What callers can have made of a fleet without endpoints and interfaces, and
the addresses that they hold by hand. -/
inductive Course : Held → Fleet → Prop where
  | start {f : Fleet} (hendpoints : f.endpoints = .empty)
      (hinterfaces : f.interfaces = .empty) :
      Course [] f
  | deed {held : Held} {f : Fleet} (h : Course held f) (deed : Deed)
      (hallowed : deed.Allowed f) :
      Course (deed.held f held) (deed.after f)

/-! ## Deeds keep a fleet consistent -/

namespace Consistent

variable (h : f.Consistent held)
include h

/-- A live endpoint has other interfaces registered, and its addresses
are the same. -/
theorem modifyRegistered (he : (f.endpoint e).isDeleted = false)
    {change : Endpoint → Endpoint}
    (hlive : (change (f.endpoint e)).isDeleted = false)
    (haddresses : (change (f.endpoint e)).addresses = (f.endpoint e).addresses)
    (hregistered : ∀ i ∈ (change (f.endpoint e)).registered,
      (f.interface i).IsOn e)
    (hnodup : (change (f.endpoint e)).registered.Nodup) :
    (f.modifyEndpoint e change).Consistent held := by
  have hkeeps := h.keeps e
  apply h.modifyEndpoint he hlive hregistered hnodup
  · rw [haddresses]
    exact hkeeps.addresses_nodup
  · rw [haddresses]
    exact hkeeps.addresses he
  · exact hkeeps.held_unowned he
  · exact fun _ _ _ => Iff.rfl

theorem register (he : (f.endpoint e).control = some c)
    (hhome : (f.interface i).endpoint = e) :
    (Act.run (register e i) f).2.Consistent held := by
  have hlive := isDeleted_of_control he
  by_cases hmem : i ∈ (f.endpoint e).registered
  · rw [run_register_of_mem he hmem]
    exact h
  · cases hdeleted : (f.interface i).deleted with
    | true =>
      rw [run_register_of_deleted he hmem hdeleted]
      exact h
    | false =>
      rw [run_register he hmem hdeleted]
      have hcontrol := h.modifyControl hdeleted (some c)
      apply hcontrol.modifyRegistered hlive
      · exact hlive
      · rfl
      · intro j hj
        rcases Holdings.mem_insertInOrder.mp hj with rfl | hj
        · rw [interface_modifyInterface_self hdeleted]
          exact ⟨hdeleted, hhome⟩
        · exact (hcontrol.keeps e).registered j hj
      · exact Holdings.nodup_insertInOrder hmem (h.keeps e).registered_nodup

theorem unregister (he : (f.endpoint e).control = some c) (i : InterfaceId) :
    (Act.run (unregister e i) f).2.Consistent held := by
  have hlive := isDeleted_of_control he
  have hkeeps := h.keeps e
  rw [run_unregister he]
  split
  · apply h.modifyRegistered hlive
    · exact hlive
    · rfl
    · exact fun j hj => hkeeps.registered j (List.mem_of_mem_erase hj)
    · exact hkeeps.registered_nodup.erase i
  · exact h

theorem setConnected (he : (f.endpoint e).control = some c) (connected : Bool) :
    (Act.run (setConnected e connected) f).2.Consistent held := by
  have hlive := isDeleted_of_control he
  rcases setConnected_cases he connected with hsame | hflag
  · rw [hsame]
    exact h
  · refine of_sameThings (h.modifyRegistered hlive ?_ ?_ ?_ ?_) hflag
    · exact hlive
    · rfl
    · exact (h.keeps e).registered
    · exact (h.keeps e).registered_nodup

/-- A live endpoint has another address reserved, which is held by hand
from then on. -/
theorem addAddress (he : (f.endpoint e).isDeleted = false) {address : Text}
    (hnew : address ∉ (f.endpoint e).addresses) :
    (f.modifyEndpoint e fun endpoint =>
      { endpoint with addresses := address :: endpoint.addresses }).Consistent
        ((e, address) :: held) := by
  have hkeeps := h.keeps e
  apply h.modifyEndpoint he
  · exact he
  · exact hkeeps.registered
  · exact hkeeps.registered_nodup
  · exact List.nodup_cons.mpr ⟨hnew, hkeeps.addresses_nodup⟩
  · intro a
    rw [List.mem_cons, List.mem_cons, hkeeps.addresses he, or_assoc,
      Prod.mk.injEq, eq_self_iff_true, true_and]
  · intro i a hmem howns
    rcases List.mem_cons.mp hmem with heq | hmem
    · obtain ⟨-, rfl⟩ := Prod.mk.inj heq
      exact hnew ((hkeeps.addresses he a).mpr (Or.inr ⟨i, howns⟩))
    · exact hkeeps.held_unowned he i a hmem howns
  · intro other a hother
    rw [List.mem_cons, Prod.mk.injEq, or_iff_right fun heq => hother heq.1]

/-- An address is refused, or it has not been held before and is held by hand
from then on. -/
theorem reserve_cases (e : EndpointId) (address : Text) :
    (∃ fault, Act.run (reserve e address) f = (.error fault, f)) ∨
      (e, address) ∉ held ∧ ∃ g, Act.run (reserve e address) f = (.ok (), g) ∧
        g.Consistent ((e, address) :: held) := by
  cases hdeleted : (f.endpoint e).isDeleted with
  | true =>
    exact Or.inl ⟨_, run_handling_of_isDeleted hdeleted (.reserve address)⟩
  | false =>
    obtain ⟨c, hcontrol⟩ := exists_control hdeleted
    rw [run_reserve hcontrol]
    cases hreserved : f.isReserved e address with
    | true => exact Or.inl ⟨_, rfl⟩
    | false =>
      have hnew : address ∉ (f.endpoint e).addresses := by
        simpa [isReserved] using hreserved
      refine Or.inr ⟨?_, _, rfl, h.addAddress hdeleted hnew⟩
      exact fun hmem =>
        hnew (((h.keeps e).addresses hdeleted address).mpr (Or.inl hmem))

/-- An address that no live interface owns is freed, and is not held by hand
from then on. -/
theorem release (he : (f.endpoint e).isDeleted = false) {address : Text}
    (hunowned : ∀ i, ¬ (f.interface i).Owns e address) :
    (f.release e address).Consistent
      (held.filter fun entry => entry ≠ (e, address)) := by
  have hkeeps := h.keeps e
  have hfilter (other : EndpointId) (a : Text) :
      (other, a) ∈ held.filter (fun entry => entry ≠ (e, address)) ↔
        (other, a) ∈ held ∧ ¬ (other = e ∧ a = address) := by
    rw [List.mem_filter, decide_eq_true_eq, ne_eq, Prod.mk.injEq]
  unfold Fleet.release
  split
  · apply h.modifyEndpoint he
    · exact he
    · exact hkeeps.registered
    · exact hkeeps.registered_nodup
    · exact hkeeps.addresses_nodup.erase address
    · intro a
      rw [hkeeps.addresses_nodup.mem_erase_iff, hkeeps.addresses he, hfilter]
      constructor
      · rintro ⟨hne, hmem | howned⟩
        · exact Or.inl ⟨hmem, fun heq => hne heq.2⟩
        · exact Or.inr howned
      · rintro (⟨hmem, hne⟩ | ⟨i, howns⟩)
        · exact ⟨fun heq => hne ⟨rfl, heq⟩, Or.inl hmem⟩
        · exact ⟨fun heq => hunowned i (heq ▸ howns), Or.inr ⟨i, howns⟩⟩
    · exact fun i a hmem => hkeeps.held_unowned he i a ((hfilter e a).mp hmem).1
    · intro other a hother
      rw [hfilter, and_iff_left fun heq => hother heq.1]
  · next hunreserved =>
    have hnot : address ∉ (f.endpoint e).addresses := by
      simpa [isReserved] using hunreserved
    have hunheld : (e, address) ∉ held :=
      fun hmem => hnot ((hkeeps.addresses he address).mpr (Or.inl hmem))
    have hheld : held.filter (fun entry => entry ≠ (e, address)) = held := by
      rw [List.filter_eq_self]
      intro entry hentry
      rw [decide_eq_true_eq]
      rintro rfl
      exact hunheld hentry
    rw [hheld]
    exact h.of_sameThings ⟨rfl, rfl⟩

theorem registerControl (i : InterfaceId) (control : Option ControlId) :
    (Act.run (registerControl i control) f).2.Consistent held := by
  rw [run_registerControl]
  split
  · exact h
  · next hlive => exact h.modifyControl (by simpa using hlive) control

/-- An interface that owns an address reserves it by hand, and takes it
over at once. -/
theorem newInterface (home : EndpointId) (tag : Text) (behaviour : Behaviour) :
    (Act.run (newInterface home tag behaviour) f).2.Consistent held := by
  unfold Fleet.newInterface
  cases haddress : behaviour.address? with
  | none =>
    have hunowned (other : EndpointId) (a : Text) :
        ¬ (⟨tag, home, none, false, behaviour⟩ : Interface).Owns other a := by
      intro howns
      cases haddress.symm.trans howns.address
    apply h.joined rfl
    · exact fun other a howns => absurd howns (hunowned other a)
    · exact fun other a => (and_iff_left (hunowned other a)).symm
  | some address =>
    have howns (other : EndpointId) (a : Text) :
        (⟨tag, home, none, false, behaviour⟩ : Interface).Owns other a ↔
          (other, a) = (home, address) := by
      rw [Prod.mk.injEq]
      constructor
      · exact fun howns =>
          ⟨howns.home.symm, Option.some.inj (howns.address.symm.trans haddress)⟩
      · rintro ⟨rfl, rfl⟩
        exact ⟨⟨rfl, rfl⟩, haddress⟩
    rw [Act.run_bind]
    rcases h.reserve_cases home address with
        ⟨fault, hrun⟩ | ⟨hunheld, g, hrun, hg⟩
    · rw [hrun]
      exact h
    · rw [hrun]
      apply hg.joined rfl
      · intro other a hother
        rw [(howns other a).mp hother]
        exact List.mem_cons_self
      · intro other a
        rw [howns, List.mem_cons]
        constructor
        · exact fun hmem => ⟨Or.inr hmem, fun heq => hunheld (heq ▸ hmem)⟩
        · exact fun hmem => hmem.1.resolve_left hmem.2

/-- An endpoint is new if its delegate is fit for it. -/
theorem addEndpoint (needs : List Capability) (control : Option ControlId)
    (role : Role) (owned : Bool) (uid commId : Text) :
    (Act.run (do
      let c ← requireControl needs control
      addEndpoint role owned uid commId c) f).2.Consistent held := by
  rw [Act.run_bind]
  rcases run_requireControl needs control f with
      ⟨c, -, -, hrun⟩ | ⟨fault, -, hrun⟩
  · rw [hrun]
    exact h.insertEndpoint rfl rfl rfl rfl rfl
  · rw [hrun]
    exact h

/-- An endpoint that announces itself is new if its delegate is fit for it and
accepts it. -/
theorem announce (needs : List Capability) (control : Option ControlId)
    (message : Text)
    (command : Command) (role : Role) (owned : Bool) (uid commId : Text) :
    (Act.run (do
      let c ← requireControl needs control
      note .info message
      issue c command
      Fleet.addEndpoint role owned uid commId c) f).2.Consistent held := by
  rcases run_announce needs control message command role owned uid commId f with
    ⟨c, g, -, -, hrun, -, hinterfaces, hendpoints⟩ |
      ⟨fault, g, -, hrun, -, hsame⟩
  · rw [hrun]
    exact h.insertEndpoint hendpoints hinterfaces rfl rfl rfl
  · rw [hrun]
    exact h.of_sameThings hsame

/-- An order changes no endpoint and no interface, whether or not the delegate
accepts it. -/
theorem graph (he : (f.endpoint e).control = some c) (order : Order) :
    (Act.run (order.perform e) f).2.Consistent held := by
  obtain ⟨message, hrun⟩ := Session.run_order he order
  rw [hrun]
  cases order.command with
  | error fault => exact h
  | ok command =>
    dsimp only
    cases f.objection? c command with
    | none => exact h.of_sameThings ⟨rfl, rfl⟩
    | some fault => exact h.of_sameThings ⟨rfl, rfl⟩

/-- What an operation of an endpoint leaves, and what is held by hand then. -/
theorem handle (e : EndpointId) {group : Group} (handling : Handling group)
    (hallowed : (Deed.handle e handling).Allowed f) :
    ((Deed.handle e handling).after f).Consistent
      ((Deed.handle e handling).held f held) := by
  cases hdeleted : (f.endpoint e).isDeleted with
  | true =>
    simp only [Deed.after, Deed.held, run_handling_of_isDeleted hdeleted]
    exact h
  | false =>
    obtain ⟨c, hcontrol⟩ := exists_control hdeleted
    have hkept (h : handling.held e held = held) :
        (Deed.handle e handling).held f held = held := by
      simp only [Deed.held, h]
      split
      · rfl
      · rfl
    cases handling with
    | register i =>
      rw [hkept rfl]
      exact h.register hcontrol hallowed
    | unregister i =>
      rw [hkept rfl]
      exact h.unregister hcontrol i
    | destroy =>
      rw [hkept rfl]
      exact h.destroyEndpoint e
    | graph order =>
      rw [hkept rfl]
      exact h.graph hcontrol order
    | setConnected connected =>
      rw [hkept rfl]
      exact h.setConnected hcontrol connected
    | reserve address =>
      simp only [Deed.after, Deed.held, Handling.perform]
      rcases h.reserve_cases e address with ⟨fault, hrun⟩ | ⟨-, g, hrun, hg⟩
      · rw [hrun]
        exact h
      · rw [hrun]
        exact hg
    | free address =>
      simp only [Deed.after, Deed.held, Handling.perform, run_free hcontrol]
      exact h.release hdeleted hallowed

theorem deed (deed : Deed) (hallowed : deed.Allowed f) :
    (deed.after f).Consistent (deed.held f held) := by
  cases deed with
  | newBare owned uid commId control =>
    exact h.addEndpoint [] control .bare owned uid commId
  | newRobot owned uid commId key control =>
    exact h.announce [.robot] control _ (.createRobot uid key) .robot
      owned uid commId
  | newEnvironment owned uid commId control =>
    exact h.addEndpoint [.node, .parameter] control .environment
      owned uid commId
  | newContainer owned uid commId control =>
    exact h.announce [.node, .parameter, .container] control _
      (.createContainer uid commId) (.container false) owned uid commId
  | handle e handling => exact h.handle e handling hallowed
  | newInterface home tag behaviour => exact h.newInterface home tag behaviour
  | registerControl i control => exact h.registerControl i control
  | destroyInterface i => exact h.destroyInterface i
  | dropInterface i => exact h.dropInterface i

end Consistent

/-- A fleet is consistent at every point of a course. -/
theorem Course.consistent (h : Course held f) : f.Consistent held := by
  induction h with
  | start hendpoints hinterfaces => exact .of_empty hendpoints hinterfaces
  | deed _ deed hallowed ih => exact ih.deed deed hallowed

/-! ## What holds throughout -/

/-- The registrations and addresses of a fleet are in order, where the given
addresses are held by hand. -/
structure Tidy (held : Held) (f : Fleet) : Prop where
  /-- What a live endpoint has registered is an interface of its own, which is
  there and has not been torn down. -/
  registered : ∀ e, (f.endpoint e).isDeleted = false →
    ∀ i ∈ (f.endpoint e).registered,
      ∃ interface, f.interfaces.get? i = some interface ∧
        interface.endpoint = e ∧ interface.deleted = false
  /-- An endpoint that has been torn down has no interface and no owner. -/
  retired : ∀ e, (f.endpoint e).isDeleted = true →
    (f.endpoint e).registered = [] ∧ (f.endpoint e).owned = false
  /-- An interface that has been torn down has no delegate and is
  registered nowhere. -/
  closed : ∀ i, (f.interface i).deleted = true →
    (f.interface i).control = none ∧ ∀ e, i ∉ (f.endpoint e).registered
  /-- It cannot be registered again: the attempt is refused and
  changes nothing. -/
  refused : ∀ i, (f.interface i).deleted = true →
    ∀ e, ∃ fault : Fault, fault.kind = .deleted ∧
      Act.run (register e i) f = (.error fault, f)
  /-- A live endpoint has reserved exactly the addresses that are held by hand
  and those of its live interfaces, each of them once. -/
  addresses : ∀ e, (f.endpoint e).isDeleted = false →
    (f.endpoint e).addresses.Nodup ∧
      ∀ a, a ∈ (f.endpoint e).addresses ↔
        (e, a) ∈ held ∨ ∃ i, (f.interface i).Owns e a
  /-- An address has one owner at most, and none while it is held by hand. -/
  exclusive : ∀ e, (f.endpoint e).isDeleted = false →
    ∀ i a, (f.interface i).Owns e a →
      (e, a) ∉ held ∧ ∀ j, (f.interface j).Owns e a → j = i

theorem Consistent.not_registered (h : f.Consistent held)
    (hdeleted : (f.interface i).deleted = true) (e : EndpointId) :
    i ∉ (f.endpoint e).registered := by
  intro hmem
  have hlive := ((h.keeps e).registered i hmem).live
  rw [hdeleted] at hlive
  cases hlive

theorem Consistent.tidy (h : f.Consistent held) : f.Tidy held where
  registered := by
    intro e _ i hi
    have hon := (h.keeps e).registered i hi
    obtain ⟨interface, hget⟩ := exists_of_deleted_eq_false hon.live
    have hinterface : f.interface i = interface := by
      rw [Fleet.interface, hget]
      rfl
    exact ⟨interface, hget, hinterface ▸ hon.home, hinterface ▸ hon.live⟩
  retired := fun e => (h.keeps e).retired
  closed := fun i hdeleted => ⟨h.closed i hdeleted, h.not_registered hdeleted⟩
  refused := by
    intro i hdeleted e
    cases hendpoint : (f.endpoint e).isDeleted with
    | true =>
      refine ⟨.endpointDeleted (f.endpoint e).uid, rfl, ?_⟩
      exact run_handling_of_isDeleted hendpoint (.register i : Handling .robots)
    | false =>
      obtain ⟨c, hcontrol⟩ := exists_control hendpoint
      exact ⟨.interfaceDeleted (f.interface i).tag, rfl,
        run_register_of_deleted hcontrol (h.not_registered hdeleted e) hdeleted⟩
  addresses :=
    fun e hlive => ⟨(h.keeps e).addresses_nodup, (h.keeps e).addresses hlive⟩
  exclusive := by
    intro e hlive i a howns
    refine ⟨fun hmem => (h.keeps e).held_unowned hlive i a hmem howns, ?_⟩
    exact fun j hj => (h.keeps e).owner_unique hlive j i a hj howns

/-- Whatever is done with endpoints and interfaces, and whatever fails:
registrations and addresses are in order at every point. -/
theorem tidy_of_course (h : Course held f) : f.Tidy held :=
  h.consistent.tidy

/-- A fleet with one delegate, which accepts everything. -/
def quay : Fleet where
  controls := ⟨[(0, ⟨[.node, .parameter], fun _ _ => none, 0⟩)], 1⟩
  endpoints := .empty
  interfaces := .empty
  listener := ⟨none, false, fun _ _ _ => none, 0⟩
  history := []

theorem tidy_of_course_of_quay :
    ∃ f, Course [(0, text "/held")] f ∧ f.Tidy [(0, text "/held")] ∧
      (f.endpoint 0).isDeleted = false ∧ (f.endpoint 0).registered = [1] ∧
      (f.endpoint 0).addresses = [text "/held"] := by
  have hstart : Course [] quay := .start rfl rfl
  have hopened :=
    hstart.deed (.newEnvironment true (text "e1") (text "c1") (some 0)) trivial
  have hmade :=
    (hopened.deed (.newInterface 0 (text "i1") (.address (text "/owned")))
      trivial).deed (.newInterface 0 (text "i2") .plain) trivial
  have hregistered :=
    (hmade.deed (.handle 0 (.register 0 : Handling .containers)) rfl).deed
      (.handle 0 (.register 1 : Handling .containers)) rfl
  have hend :=
    (hregistered.deed (.handle 0 (.reserve (text "/held"))) trivial).deed
      (.dropInterface 0) trivial
  exact ⟨_, hend, tidy_of_course hend, rfl, rfl, rfl⟩

end Fleet
end FleetControl

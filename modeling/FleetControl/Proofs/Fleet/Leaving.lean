import FleetControl.Proofs.Fleet.Registrations
import FleetControl.Proofs.Fleet.Rearranged

/-!
# Interfaces that leave their endpoint

An interface is torn down by its owner, by its endpoint or by another interface,
or it is dropped without any of that.  In each case it leaves its endpoint in
the same way, `Fleet.LetsGo`: the endpoint loses the registration and the
address of the interface at once, unless it has been torn down itself.  So a
fleet stays consistent when an interface leaves, and with it when an endpoint
tears down all of its interfaces, whichever of them fail or tear down others.
-/

namespace FleetControl
namespace Fleet

variable {f g : Fleet} {held : Held} {e : EndpointId} {i : InterfaceId}

/-- A live interface has been torn down, and its own endpoint has let go of
its registration and of its address.  Other endpoints and interfaces are as
they were. -/
structure LetsGo (f : Fleet) (i : InterfaceId) (g : Fleet) : Prop where
  live : (f.interface i).deleted = false
  deleted : (g.interface i).deleted = true
  control_eq : (g.interface i).control = none
  interface_eq : ∀ j, j ≠ i → g.interface j = f.interface j
  endpoint_eq : ∀ e, g.endpoint e =
    if e = (f.interface i).endpoint then
      letGo i (f.interface i).behaviour.address? (f.endpoint e)
    else f.endpoint e
  endpoints_fresh : f.endpoints.Fresh → g.endpoints.Fresh
  interfaces_fresh : f.interfaces.Fresh → g.interfaces.Fresh
  next_eq : g.endpoints.next = f.endpoints.next

namespace LetsGo

variable (hgo : LetsGo f i g)
include hgo

theorem isOn_iff (j : InterfaceId) (e : EndpointId) :
    (g.interface j).IsOn e ↔ (f.interface j).IsOn e ∧ j ≠ i := by
  by_cases hj : j = i
  · refine iff_of_false ?_ fun hon => hon.2 hj
    rw [hj]
    intro hon
    have hlive := hon.live
    rw [hgo.deleted] at hlive
    cases hlive
  · rw [hgo.interface_eq j hj, and_iff_left hj]

theorem owns_iff (j : InterfaceId) (e : EndpointId) (a : Text) :
    (g.interface j).Owns e a ↔ (f.interface j).Owns e a ∧ j ≠ i := by
  constructor
  · intro howns
    have hj := ((hgo.isOn_iff j e).mp howns.toIsOn).2
    exact ⟨hgo.interface_eq j hj ▸ howns, hj⟩
  · rintro ⟨howns, hj⟩
    exact (hgo.interface_eq j hj).symm ▸ howns

theorem isDeleted_eq (e : EndpointId) :
    (g.endpoint e).isDeleted = (f.endpoint e).isDeleted := by
  rw [hgo.endpoint_eq]
  split
  · rw [isDeleted_letGo]
  · rfl

section Home

variable (he : e = (f.interface i).endpoint)
include he

/-- An endpoint that has been torn down has nothing to let go of. -/
theorem keeps_of_isDeleted (hkeeps : f.Keeps held e)
    (hdeleted : (f.endpoint e).isDeleted = true) : g.Keeps held e := by
  obtain ⟨hregistered, howned⟩ := hkeeps.retired hdeleted
  have hendpoint : g.endpoint e = f.endpoint e := by
    rw [hgo.endpoint_eq, if_pos he, letGo_of_isDeleted hdeleted]
  apply keeps_of_deleted
  · rw [hendpoint, hdeleted]
  · rw [hendpoint, hregistered]
  · rw [hendpoint, howned]
  · rw [hendpoint]
    exact hkeeps.addresses_nodup

variable (hdeleted : (f.endpoint e).isDeleted = false)
include hdeleted

/-- A live endpoint lets go of the registration of the interface. -/
theorem registered_home (hset : (f.endpoint e).registered.Nodup) :
    (g.endpoint e).registered.Nodup ∧ ∀ j,
      j ∈ (g.endpoint e).registered ↔
        j ∈ (f.endpoint e).registered ∧ j ≠ i := by
  have hregistered : (g.endpoint e).registered =
      (f.endpoint e).registered.erase i := by
    rw [hgo.endpoint_eq, if_pos he, letGo_of_live hdeleted]
  rw [hregistered]
  exact ⟨hset.erase i, fun j => hset.mem_erase_iff.trans and_comm⟩

/-- A live endpoint lets go of the address of the interface, if it owns one. -/
theorem addresses_home (hset : (f.endpoint e).addresses.Nodup) :
    (g.endpoint e).addresses.Nodup ∧ ∀ a,
      a ∈ (g.endpoint e).addresses ↔
        a ∈ (f.endpoint e).addresses ∧ ¬ (f.interface i).Owns e a := by
  have howner (a : Text) :
      (f.interface i).Owns e a ↔
        (f.interface i).behaviour.address? = some a := by
    constructor
    · exact fun howns => howns.address
    · exact fun haddress => ⟨⟨hgo.live, he.symm⟩, haddress⟩
  have haddresses : (g.endpoint e).addresses =
      (f.interface i).behaviour.address?.elim (f.endpoint e).addresses
        (f.endpoint e).addresses.erase := by
    rw [hgo.endpoint_eq, if_pos he, letGo_of_live hdeleted]
  simp only [haddresses, howner]
  cases (f.interface i).behaviour.address? with
  | none =>
    refine ⟨hset, fun a => ?_⟩
    exact (and_iff_left (Option.some_ne_none a).symm).symm
  | some b =>
    refine ⟨hset.erase b, fun a => ?_⟩
    rw [Option.elim_some, hset.mem_erase_iff, and_comm, Option.some.injEq,
      eq_comm (a := b)]

/-- A live endpoint keeps what it has of the other interfaces. -/
theorem keeps_of_live (hkeeps : f.Keeps held e) : g.Keeps held e := by
  obtain ⟨hregisteredNodup, hregistered⟩ :=
    hgo.registered_home he hdeleted hkeeps.registered_nodup
  obtain ⟨haddressesNodup, haddresses⟩ :=
    hgo.addresses_home he hdeleted hkeeps.addresses_nodup
  constructor
  · intro j hj
    obtain ⟨hj, hji⟩ := (hregistered j).mp hj
    exact (hgo.isOn_iff j e).mpr ⟨hkeeps.registered j hj, hji⟩
  · exact hregisteredNodup
  · rw [hgo.isDeleted_eq, hdeleted]
    exact fun hgone => absurd hgone Bool.false_ne_true
  · exact haddressesNodup
  · intro _ a
    rw [haddresses, hkeeps.addresses hdeleted]
    constructor
    · rintro ⟨hheld | ⟨j, hj⟩, hnot⟩
      · exact Or.inl hheld
      · refine Or.inr ⟨j, (hgo.owns_iff j e a).mpr ⟨hj, ?_⟩⟩
        rintro rfl
        exact hnot hj
    · rintro (hheld | ⟨j, hj⟩)
      · exact ⟨Or.inl hheld, hkeeps.held_unowned hdeleted i a hheld⟩
      · obtain ⟨hj, hji⟩ := (hgo.owns_iff j e a).mp hj
        exact ⟨Or.inr ⟨j, hj⟩, fun hi =>
          hji (hkeeps.owner_unique hdeleted j i a hj hi)⟩
  · intro _ j k a hj hk
    exact hkeeps.owner_unique hdeleted j k a ((hgo.owns_iff j e a).mp hj).1
      ((hgo.owns_iff k e a).mp hk).1
  · intro _ j a hheld hj
    exact hkeeps.held_unowned hdeleted j a hheld ((hgo.owns_iff j e a).mp hj).1

end Home

theorem consistent (h : f.Consistent held) : g.Consistent held := by
  constructor
  · exact hgo.endpoints_fresh h.endpoints_fresh
  · exact hgo.interfaces_fresh h.interfaces_fresh
  · intro e
    by_cases he : e = (f.interface i).endpoint
    · cases hdeleted : (f.endpoint e).isDeleted with
      | true => exact hgo.keeps_of_isDeleted he (h.keeps e) hdeleted
      | false => exact hgo.keeps_of_live he hdeleted (h.keeps e)
    · have hne (j : InterfaceId) (hj : (f.interface j).IsOn e) : j ≠ i := by
        rintro rfl
        exact he hj.home.symm
      refine (h.keeps e).congr ?_ ?_ ?_ fun _ => Iff.rfl
      · rw [hgo.endpoint_eq, if_neg he]
      · exact fun j hj => (hgo.isOn_iff j e).mpr ⟨hj, hne j hj⟩
      · intro j a
        rw [hgo.owns_iff]
        exact and_iff_left_of_imp fun howns => hne j howns.toIsOn
  · intro j hj
    by_cases hji : j = i
    · rw [hji]
      exact hgo.control_eq
    · rw [hgo.interface_eq j hji] at hj ⊢
      exact h.closed j hj
  · intro e a hheld
    rw [hgo.next_eq]
    exact h.held_lt e a hheld
  · intro j e a hj
    rw [hgo.next_eq]
    exact h.owned_lt j e a ((hgo.owns_iff j e a).mp hj).1

end LetsGo

/-- An interface that is shut leaves its endpoint. -/
theorem letsGo_shut (hlive : (f.interface i).deleted = false) :
    LetsGo f i (f.shut i) := by
  have hlive' : ((f.releaseOwned i).interface i).deleted = false := by
    rwa [interface_releaseOwned]
  have hself : (f.shut i).interface i =
      { f.interface i with control := none, deleted := true } := by
    obtain ⟨interface, hget⟩ := exists_of_deleted_eq_false hlive
    rw [Fleet.interface, interfaces_shut, Store.get?_modify_self,
      Fleet.interface, hget]
    rfl
  have hreleased : (f.endpoints.Fresh → (f.releaseOwned i).endpoints.Fresh) ∧
      (f.releaseOwned i).endpoints.next = f.endpoints.next := by
    simp only [releaseOwned]
    split
    · exact ⟨id, rfl⟩
    · split
      · exact ⟨id, rfl⟩
      · unfold release
        split
        · exact ⟨fun hfresh => fresh_modifyEndpoint hfresh _ _, rfl⟩
        · exact ⟨id, rfl⟩
  constructor
  · exact hlive
  · rw [hself]
  · rw [hself]
  · exact fun j hj => interface_shut_of_ne f hj
  · exact endpoint_shut f i
  · exact fun hfresh => fresh_modifyEndpoint (hreleased.1 hfresh) _ _
  · rw [interfaces_shut]
    exact fun hfresh => hfresh.modify i _
  · exact hreleased.2

/-- An interface that is dropped before it has been torn down leaves
its endpoint. -/
theorem letsGo_dropInterface (hlive : (f.interface i).deleted = false) :
    LetsGo f i (f.dropInterface i) := by
  have hdrop := dropInterface_of_live hlive
  have hself : (f.dropInterface i).interface i = .gone := by
    rw [interface_dropInterface, if_pos rfl]
  constructor
  · exact hlive
  · rw [hself]
    rfl
  · rw [hself]
    rfl
  · intro j hj
    rw [interface_dropInterface, if_neg hj]
  · intro e
    rw [hdrop]
    exact endpoint_modifyEndpoint_of_gone f _ e (letGo_gone i _)
  · rw [hdrop]
    exact fun hfresh => fresh_modifyEndpoint hfresh _ _
  · rw [hdrop]
    exact fun hfresh => hfresh.erase i
  · rw [hdrop]
    rfl

theorem Descends.consistent {closed : List InterfaceId}
    {answer : Except Fault Unit} (hdescends : Descends f i closed answer g)
    (h : f.Consistent held) : g.Consistent held := by
  induction hdescends with
  | stuck _ => exact h
  | again _ _ => exact h
  | last hlive _ => exact (letsGo_shut hlive).consistent h
  | @onward f i next closed answer g hlive hbehaviour _ ih =>
    have hshut : f.shut i = f.close i := by
      simp only [shut, releaseOwned, hbehaviour, Behaviour.address?]
    exact ih (hshut ▸ (letsGo_shut hlive).consistent h)

namespace Consistent

variable (h : f.Consistent held)
include h

theorem destroyInterface (i : InterfaceId) :
    (Act.run (destroyInterface i) f).2.Consistent held := by
  obtain ⟨closed, hdescends⟩ := descends_teardown f i
  exact hdescends.consistent h

theorem dropInterface (i : InterfaceId) :
    (f.dropInterface i).Consistent held := by
  cases hdeleted : (f.interface i).deleted with
  | true =>
    rw [dropInterface_of_deleted hdeleted]
    exact h.eraseInterface hdeleted
  | false => exact (letsGo_dropInterface hdeleted).consistent h

/-- The interfaces of an endpoint leave one after the other, and then the
endpoint is retired. -/
theorem dismantle (e : EndpointId) :
    (Act.run (dismantle e) f).2.Consistent held := by
  obtain ⟨calls, g, hcascade, hrun⟩ := run_dismantle_cascade f e
  have hswept : g.Consistent held := by
    refine hcascade.swept.keeps (P := fun g => g.Consistent held) ?_ ?_ h
    · exact fun i g hg => hg.destroyInterface i
    · exact fun i fault g hg => hg.of_sameThings ⟨rfl, rfl⟩
  rw [hrun]
  exact hswept.retireEndpoint e

/-- The end of an endpoint is accepted or refused, or it has come already. -/
theorem destroyEndpoint (e : EndpointId) :
    (Act.run (destroyEndpoint e) f).2.Consistent held := by
  rcases run_destroyEndpoint_cases f e with
      ⟨-, hrun⟩ | ⟨fault, c, message, command, -, hrun⟩ | hrun
  · rw [hrun]
    exact h
  · rw [hrun]
    exact h.of_sameThings (sameThings_asked f message c)
  · rw [hrun]
    exact (h.of_sameThings (sameThings_departed f e)).dismantle e

end Consistent
end Fleet
end FleetControl

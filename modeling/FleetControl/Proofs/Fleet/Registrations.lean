import FleetControl.Proofs.Fleet.Cascade

/-!
# Registrations and addresses

`Fleet.Consistent` is what holds of a fleet whose interfaces are registered with
their own endpoints only: no registration outlives its interface or its
endpoint, and the addresses that a live endpoint has reserved are those of its
live interfaces and those that have been reserved by hand, each of them once.
The addresses reserved by hand are given as a list, since an endpoint does not
tell the two kinds apart.

The lemmas say which single changes of an interface or of an endpoint keep a
fleet consistent.  A new interface takes over an address that has been reserved
for it, so that its making is a reservation by hand first.
-/

namespace FleetControl

/-- The interface is live and belongs to the endpoint. -/
structure Interface.IsOn (interface : Interface) (e : EndpointId) : Prop where
  live : interface.deleted = false
  home : interface.endpoint = e

/-- The interface is live, belongs to the endpoint and owns the address. -/
structure Interface.Owns (interface : Interface) (e : EndpointId)
    (address : Text) : Prop
    extends interface.IsOn e where
  address : interface.behaviour.address? = some address

theorem Interface.not_isOn_gone (e : EndpointId) : ¬ Interface.gone.IsOn e := by
  rintro ⟨⟨⟩, -⟩

namespace Fleet

/-- Addresses that have been reserved by hand, each with its endpoint. -/
abbrev Held := List (EndpointId × Text)

/-- The registrations and addresses of an endpoint agree with the interfaces
that there are. -/
structure Keeps (held : Held) (f : Fleet) (e : EndpointId) : Prop where
  registered : ∀ i ∈ (f.endpoint e).registered, (f.interface i).IsOn e
  registered_nodup : (f.endpoint e).registered.Nodup
  retired : (f.endpoint e).isDeleted = true →
    (f.endpoint e).registered = [] ∧ (f.endpoint e).owned = false
  addresses_nodup : (f.endpoint e).addresses.Nodup
  addresses : (f.endpoint e).isDeleted = false → ∀ a,
    a ∈ (f.endpoint e).addresses ↔ (e, a) ∈ held ∨ ∃ i, (f.interface i).Owns e a
  owner_unique : (f.endpoint e).isDeleted = false → ∀ i j a,
    (f.interface i).Owns e a → (f.interface j).Owns e a → i = j
  held_unowned : (f.endpoint e).isDeleted = false → ∀ i a,
    (e, a) ∈ held → ¬ (f.interface i).Owns e a

/-- All registrations and addresses of a fleet agree with its endpoints and
interfaces, where the given addresses have been reserved by hand. -/
structure Consistent (held : Held) (f : Fleet) : Prop where
  endpoints_fresh : f.endpoints.Fresh
  interfaces_fresh : f.interfaces.Fresh
  keeps : ∀ e, f.Keeps held e
  closed : ∀ i, (f.interface i).deleted = true → (f.interface i).control = none
  held_lt : ∀ e a, (e, a) ∈ held → e < f.endpoints.next
  owned_lt : ∀ i e a, (f.interface i).Owns e a → e < f.endpoints.next

variable {f g : Fleet} {held held' : Held} {e : EndpointId} {i : InterfaceId}

theorem fresh_modifyEndpoint (hfresh : f.endpoints.Fresh) (e : EndpointId)
    (change : Endpoint → Endpoint) :
    (f.modifyEndpoint e change).endpoints.Fresh :=
  hfresh.modify e change

theorem fresh_modifyInterface (hfresh : f.interfaces.Fresh) (i : InterfaceId)
    (change : Interface → Interface) :
    (f.modifyInterface i change).interfaces.Fresh :=
  hfresh.modify i change

theorem isDeleted_of_control {endpoint : Endpoint} {c : ControlId}
    (hcontrol : endpoint.control = some c) : endpoint.isDeleted = false := by
  rw [Endpoint.isDeleted, hcontrol]
  rfl

theorem lt_next_of_live (hfresh : f.endpoints.Fresh)
    (he : (f.endpoint e).isDeleted = false) :
    e < f.endpoints.next := by
  obtain ⟨endpoint, hget⟩ := exists_of_isDeleted_eq_false he
  exact hfresh.lt_next _ (Store.mem_entries_of_get? hget)

theorem ne_next_of_isOn (hfresh : f.interfaces.Fresh)
    (hi : (f.interface i).IsOn e) :
    i ≠ f.interfaces.next := by
  obtain ⟨interface, hget⟩ := exists_of_deleted_eq_false hi.live
  exact Nat.ne_of_lt (hfresh.lt_next _ (Store.mem_entries_of_get? hget))

/-- What an endpoint keeps depends on itself, on the interfaces that stay on it,
and on those that own its addresses. -/
theorem Keeps.congr (h : f.Keeps held e)
    (hendpoint : g.endpoint e = f.endpoint e)
    (hon : ∀ i, (f.interface i).IsOn e → (g.interface i).IsOn e)
    (howns : ∀ i a, (g.interface i).Owns e a ↔ (f.interface i).Owns e a)
    (hheld : ∀ a, (e, a) ∈ held' ↔ (e, a) ∈ held) : g.Keeps held' e := by
  constructor
  · intro i hi
    rw [hendpoint] at hi
    exact hon i (h.registered i hi)
  · rw [hendpoint]
    exact h.registered_nodup
  · rw [hendpoint]
    exact h.retired
  · rw [hendpoint]
    exact h.addresses_nodup
  · simp only [hendpoint, hheld, howns]
    exact h.addresses
  · simp only [hendpoint, howns]
    exact h.owner_unique
  · simp only [hendpoint, hheld, howns]
    exact h.held_unowned

/-- Nothing is asked of an endpoint without registrations and addresses that is
torn down. -/
theorem keeps_of_deleted (hdeleted : (f.endpoint e).isDeleted = true)
    (hregistered : (f.endpoint e).registered = [])
    (howned : (f.endpoint e).owned = false)
    (hnodup : (f.endpoint e).addresses.Nodup) : f.Keeps held e := by
  have hnot : ¬ (f.endpoint e).isDeleted = false := by
    rw [hdeleted]
    decide
  constructor
  · rw [hregistered]
    exact List.forall_mem_nil _
  · rw [hregistered]
    exact List.nodup_nil
  · exact fun _ => ⟨hregistered, howned⟩
  · exact hnodup
  · exact fun he => absurd he hnot
  · exact fun he => absurd he hnot
  · exact fun he => absurd he hnot

/-- A live endpoint has nothing that nobody has asked for. -/
theorem keeps_of_nothing (hlive : (f.endpoint e).isDeleted = false)
    (hregistered : (f.endpoint e).registered = [])
    (haddresses : (f.endpoint e).addresses = [])
    (hunheld : ∀ a, (e, a) ∉ held)
    (hunowned : ∀ i a, ¬ (f.interface i).Owns e a) :
    f.Keeps held e := by
  constructor
  · rw [hregistered]
    exact List.forall_mem_nil _
  · rw [hregistered]
    exact List.nodup_nil
  · rw [hlive]
    exact fun hdeleted => absurd hdeleted Bool.false_ne_true
  · rw [haddresses]
    exact List.nodup_nil
  · intro _ a
    rw [haddresses]
    refine iff_of_false List.not_mem_nil ?_
    rintro (hmem | ⟨i, howns⟩)
    · exact hunheld a hmem
    · exact hunowned i a howns
  · exact fun _ i j a howns => absurd howns (hunowned i a)
  · exact fun _ i a hmem => absurd hmem (hunheld a)

/-! ## New interfaces -/

/-- The fleet with one interface more. -/
def joined (fleet : Fleet) (new : Interface) : Fleet :=
  { fleet with interfaces := fleet.interfaces.insert new }

theorem interface_joined (hfresh : f.interfaces.Fresh) (new : Interface)
    (j : InterfaceId) :
    (f.joined new).interface j = if j = f.interfaces.next then new
      else f.interface j := by
  by_cases hj : j = f.interfaces.next
  · rw [if_pos hj, hj, interface, joined, Store.get?_insert_next hfresh]
    rfl
  · rw [if_neg hj, interface, joined, Store.get?_insert_of_ne _ hj, interface]

theorem isOn_joined (hfresh : f.interfaces.Fresh) (new : Interface)
    (hi : (f.interface i).IsOn e) :
    ((f.joined new).interface i).IsOn e := by
  rwa [interface_joined hfresh, if_neg (ne_next_of_isOn hfresh hi)]

/-- Addresses are owned as before, or by the new interface. -/
theorem owns_joined (hfresh : f.interfaces.Fresh) {new : Interface}
    (j : InterfaceId)
    (home : EndpointId) (a : Text) : ((f.joined new).interface j).Owns home a ↔
      (f.interface j).Owns home a ∨
      (j = f.interfaces.next ∧ new.Owns home a) := by
  rw [interface_joined hfresh]
  by_cases hj : j = f.interfaces.next
  · have hunowned : ¬ (f.interface j).Owns home a :=
      fun howns => ne_next_of_isOn hfresh howns.toIsOn hj
    rw [if_pos hj, or_iff_right hunowned, and_iff_right hj]
  · rw [if_neg hj, or_iff_left fun hnew => hj hnew.1]

/-- The new interface shares its address with no other one, since the address
has been held for it. -/
theorem Keeps.joined (h : f.Keeps held e) (hfresh : f.interfaces.Fresh)
    {new : Interface} (hreserved : ∀ a, new.Owns e a → (e, a) ∈ held)
    (hheld : ∀ a, (e, a) ∈ held' ↔ (e, a) ∈ held ∧ ¬ new.Owns e a) :
    (f.joined new).Keeps held' e := by
  have howns := @owns_joined f hfresh new
  constructor
  · exact fun j hj => isOn_joined hfresh new (h.registered j hj)
  · exact h.registered_nodup
  · exact h.retired
  · exact h.addresses_nodup
  · intro hlive a
    refine (h.addresses hlive a).trans ?_
    by_cases hnew : new.Owns e a
    · refine iff_of_true (Or.inl (hreserved a hnew))
        (Or.inr ⟨f.interfaces.next, ?_⟩)
      exact (howns _ e a).mpr (Or.inr ⟨rfl, hnew⟩)
    · rw [hheld, and_iff_left hnew]
      refine or_congr_right (exists_congr fun j => ?_)
      rw [howns, or_iff_left fun hj => hnew hj.2]
  · intro hlive j k a hj hk
    rcases (howns j e a).mp hj with hj | ⟨rfl, hnew⟩
    · rcases (howns k e a).mp hk with hk | ⟨-, hnew⟩
      · exact h.owner_unique hlive j k a hj hk
      · exact absurd hj (h.held_unowned hlive j a (hreserved a hnew))
    · rcases (howns k e a).mp hk with hk | ⟨rfl, -⟩
      · exact absurd hk (h.held_unowned hlive k a (hreserved a hnew))
      · rfl
  · intro hlive j a hmem hj
    obtain ⟨hmem, hnot⟩ := (hheld a).mp hmem
    rcases (howns j e a).mp hj with hj | ⟨-, hnew⟩
    · exact h.held_unowned hlive j a hmem hj
    · exact hnot hnew

namespace Consistent

/-- A fleet without endpoints and interfaces is consistent. -/
theorem of_empty (hendpoints : f.endpoints = .empty)
    (hinterfaces : f.interfaces = .empty) :
    f.Consistent [] := by
  have hendpoint (e : EndpointId) : f.endpoint e = .gone := by
    rw [endpoint, hendpoints, Store.get?_empty]
    rfl
  have hinterface (i : InterfaceId) : f.interface i = .gone := by
    rw [interface, hinterfaces, Store.get?_empty]
    rfl
  constructor
  · exact hendpoints ▸ Store.fresh_empty
  · exact hinterfaces ▸ Store.fresh_empty
  · intro e
    apply keeps_of_deleted
    all_goals rw [hendpoint]
    · rfl
    · rfl
    · rfl
    · exact List.nodup_nil
  · intro i _
    rw [hinterface]
    rfl
  · exact fun e a hmem => absurd hmem List.not_mem_nil
  · intro i e a howns
    rw [hinterface] at howns
    exact absurd howns.toIsOn (Interface.not_isOn_gone e)

variable (h : f.Consistent held)
include h

/-! ## Changes of interfaces -/

/-- Interfaces may change in other ways than those that a registration or an
address depends on. -/
theorem of_interfaces (hendpoints : g.endpoints = f.endpoints)
    (hfresh : g.interfaces.Fresh)
    (hon : ∀ i e, (f.interface i).IsOn e → (g.interface i).IsOn e)
    (howns : ∀ i e a, (g.interface i).Owns e a ↔ (f.interface i).Owns e a)
    (hclosed : ∀ i, (g.interface i).deleted = true →
      (g.interface i).control = none) :
    g.Consistent held := by
  have hendpoint (e : EndpointId) : g.endpoint e = f.endpoint e := by
    rw [endpoint, hendpoints, endpoint]
  constructor
  · exact hendpoints ▸ h.endpoints_fresh
  · exact hfresh
  · intro e
    exact (h.keeps e).congr (hendpoint e) (fun i => hon i e)
      (fun i => howns i e) fun _ => Iff.rfl
  · exact hclosed
  · rw [hendpoints]
    exact h.held_lt
  · intro i e a
    rw [howns, hendpoints]
    exact h.owned_lt i e a

/-- What has the same endpoints and interfaces is as consistent. -/
theorem of_sameThings (hsame : SameThings f g) : g.Consistent held := by
  have hfresh : g.interfaces.Fresh := hsame.interfaces_eq ▸ h.interfaces_fresh
  apply h.of_interfaces hsame.endpoints_eq hfresh
  · intro i e
    rw [hsame.interface_eq]
    exact id
  · intro i e a
    rw [hsame.interface_eq]
  · intro i
    rw [hsame.interface_eq]
    exact h.closed i

/-- A live interface may be handed any delegate. -/
theorem modifyControl (hlive : (f.interface i).deleted = false)
    (control : Option ControlId) :
    (f.modifyInterface i fun interface =>
      { interface with control := control }).Consistent held := by
  have hself := interface_modifyInterface_self hlive
    fun interface => { interface with control := control }
  refine h.of_interfaces rfl
    (fresh_modifyInterface h.interfaces_fresh i _) ?_ ?_ ?_
  · intro j e hj
    by_cases hji : j = i
    · rw [hji, hself]
      rw [hji] at hj
      exact ⟨hj.live, hj.home⟩
    · rwa [interface_modifyInterface_of_ne _ hji]
  · intro j e a
    by_cases hji : j = i
    · rw [hji, hself]
      constructor
      · rintro ⟨⟨hdeleted, hhome⟩, haddress⟩
        exact ⟨⟨hdeleted, hhome⟩, haddress⟩
      · rintro ⟨⟨hdeleted, hhome⟩, haddress⟩
        exact ⟨⟨hdeleted, hhome⟩, haddress⟩
    · rw [interface_modifyInterface_of_ne _ hji]
  · intro j hdeleted
    by_cases hji : j = i
    · rw [hji, hself] at hdeleted
      exact absurd hlive (by rw [hdeleted]; decide)
    · rw [interface_modifyInterface_of_ne _ hji] at hdeleted ⊢
      exact h.closed j hdeleted

/-- An interface that has been torn down may be forgotten. -/
theorem eraseInterface (hdeleted : (f.interface i).deleted = true) :
    ({ f with interfaces := f.interfaces.erase i } : Fleet).Consistent
      held := by
  have hself :
      ({ f with interfaces := f.interfaces.erase i } : Fleet).interface
        i = .gone := by
    rw [interface, Store.get?_erase_self]
    rfl
  have hother (j : InterfaceId) (hji : j ≠ i) :
      ({ f with interfaces := f.interfaces.erase i } : Fleet).interface j =
        f.interface j := by
    rw [interface, Store.get?_erase_of_ne _ hji, interface]
  have hnot (e : EndpointId) : ¬ (f.interface i).IsOn e := by
    intro hi
    rw [hi.live] at hdeleted
    cases hdeleted
  refine h.of_interfaces rfl (h.interfaces_fresh.erase i) ?_ ?_ ?_
  · intro j e hj
    by_cases hji : j = i
    · exact absurd (hji ▸ hj) (hnot e)
    · rwa [hother j hji]
  · intro j e a
    by_cases hji : j = i
    · rw [hji, hself]
      exact iff_of_false (fun howns => Interface.not_isOn_gone e howns.toIsOn)
        fun howns => hnot e howns.toIsOn
    · rw [hother j hji]
  · intro j
    by_cases hji : j = i
    · rw [hji, hself]
      exact fun _ => rfl
    · rw [hother j hji]
      exact h.closed j

/-- A new interface takes over the address that has been reserved for it. -/
theorem joined {new : Interface} (hlive : new.deleted = false)
    (hreserved : ∀ home a, new.Owns home a → (home, a) ∈ held)
    (hheld : ∀ home a, (home, a) ∈ held' ↔
      (home, a) ∈ held ∧ ¬ new.Owns home a) :
    (f.joined new).Consistent held' := by
  have howns := @owns_joined f h.interfaces_fresh new
  constructor
  · exact h.endpoints_fresh
  · exact h.interfaces_fresh.insert new
  · intro home
    exact (h.keeps home).joined h.interfaces_fresh (hreserved home) (hheld home)
  · intro j
    rw [interface_joined h.interfaces_fresh]
    split
    · rw [hlive]
      exact fun hdeleted => absurd hdeleted Bool.false_ne_true
    · exact h.closed j
  · exact fun home a hmem => h.held_lt home a ((hheld home a).mp hmem).1
  · intro j home a hj
    rcases (howns j home a).mp hj with hj | ⟨-, hnew⟩
    · exact h.owned_lt j home a hj
    · exact h.held_lt home a (hreserved home a hnew)

/-! ## Changes of endpoints -/

/-- A live endpoint that stays live may change its registrations and addresses,
if they agree with the interfaces afterwards. -/
theorem modifyEndpoint (he : (f.endpoint e).isDeleted = false)
    {change : Endpoint → Endpoint}
    (hlive : (change (f.endpoint e)).isDeleted = false)
    (hregistered : ∀ i ∈ (change (f.endpoint e)).registered,
      (f.interface i).IsOn e)
    (hregistered_nodup : (change (f.endpoint e)).registered.Nodup)
    (haddresses_nodup : (change (f.endpoint e)).addresses.Nodup)
    (haddresses : ∀ a, a ∈ (change (f.endpoint e)).addresses ↔
      (e, a) ∈ held' ∨ ∃ i, (f.interface i).Owns e a)
    (hunowned : ∀ i a, (e, a) ∈ held' → ¬ (f.interface i).Owns e a)
    (hheld : ∀ other a, other ≠ e → ((other, a) ∈ held' ↔ (other, a) ∈ held)) :
    (f.modifyEndpoint e change).Consistent held' := by
  have hchanged := endpoint_modifyEndpoint_self he change
  constructor
  · exact h.endpoints_fresh.modify e change
  · exact h.interfaces_fresh
  · intro other
    by_cases hother : other = e
    · subst hother
      constructor
      · rw [hchanged]
        exact hregistered
      · rw [hchanged]
        exact hregistered_nodup
      · rw [hchanged, hlive]
        exact fun hdeleted => absurd hdeleted Bool.false_ne_true
      · rw [hchanged]
        exact haddresses_nodup
      · rw [hchanged]
        exact fun _ => haddresses
      · exact fun _ => (h.keeps other).owner_unique he
      · exact fun _ => hunowned
    · refine (h.keeps other).congr ?_ (fun _ => id) (fun _ _ => Iff.rfl) ?_
      · rw [endpoint, Fleet.modifyEndpoint, Store.get?_modify_of_ne _ hother,
          endpoint]
      · exact fun a => hheld other a hother
  · exact h.closed
  · intro other a hmem
    by_cases hother : other = e
    · rw [hother]
      have hlt := lt_next_of_live h.endpoints_fresh he
      exact hlt
    · exact h.held_lt other a ((hheld other a hother).mp hmem)
  · exact h.owned_lt

/-- An endpoint is marked as deleted. -/
theorem retireEndpoint (e : EndpointId) :
    (f.retireEndpoint e).Consistent held := by
  obtain ⟨hcontrol, howned, hregistered⟩ := endpoint_retireEndpoint f e
  constructor
  · exact fresh_modifyEndpoint h.endpoints_fresh e _
  · exact h.interfaces_fresh
  · intro other
    by_cases hother : other = e
    · subst hother
      refine keeps_of_deleted ?_ hregistered howned ?_
      · rw [Endpoint.isDeleted, hcontrol]
        rfl
      · have haddresses := (h.keeps other).addresses_nodup
        rcases endpoint_modifyEndpoint f other other _ with hsame | hchanged
        · exact hsame ▸ haddresses
        · exact hchanged ▸ haddresses
    · refine (h.keeps other).congr ?_ (fun _ => id) (fun _ _ => Iff.rfl)
        fun _ => Iff.rfl
      rw [endpoint, Fleet.retireEndpoint, Fleet.modifyEndpoint,
        Store.get?_modify_of_ne _ hother, endpoint]
  · exact h.closed
  · exact h.held_lt
  · exact h.owned_lt

/-- A new endpoint has nothing yet, and nothing has been kept for it. -/
theorem insertEndpoint {new : Endpoint}
    (hendpoints : g.endpoints = f.endpoints.insert new)
    (hinterfaces : g.interfaces = f.interfaces) (hlive : new.isDeleted = false)
    (hregistered : new.registered = []) (haddresses : new.addresses = []) :
    g.Consistent held := by
  have hinterface (i : InterfaceId) : g.interface i = f.interface i := by
    rw [interface, hinterfaces, interface]
  have hnext : g.endpoints.next = f.endpoints.next + 1 := by
    rw [hendpoints]
    rfl
  constructor
  · exact hendpoints ▸ h.endpoints_fresh.insert new
  · exact hinterfaces ▸ h.interfaces_fresh
  · intro other
    by_cases hother : other = f.endpoints.next
    · subst hother
      have hnew : g.endpoint f.endpoints.next = new := by
        rw [endpoint, hendpoints, Store.get?_insert_next h.endpoints_fresh]
        rfl
      apply keeps_of_nothing
      · rw [hnew, hlive]
      · rw [hnew, hregistered]
      · rw [hnew, haddresses]
      · exact fun a hmem => Nat.lt_irrefl _ (h.held_lt _ a hmem)
      · intro i a
        rw [hinterface]
        exact fun howns => Nat.lt_irrefl _ (h.owned_lt i _ a howns)
    · refine (h.keeps other).congr ?_ ?_ ?_ fun _ => Iff.rfl
      · rw [endpoint, hendpoints, Store.get?_insert_of_ne _ hother, endpoint]
      · intro i
        rw [hinterface]
        exact id
      · intro i a
        rw [hinterface]
  · intro i
    rw [hinterface]
    exact h.closed i
  · intro other a hmem
    rw [hnext]
    exact Nat.lt_succ_of_lt (h.held_lt other a hmem)
  · intro i other a howns
    rw [hinterface] at howns
    rw [hnext]
    exact Nat.lt_succ_of_lt (h.owned_lt i other a howns)

end Consistent

end Fleet
end FleetControl

import FleetControl.Proofs.Fleet.Entries

/-!
# Tearing interfaces down

`Fleet.Descends` is the descent from an interface to those that it tears down
afterwards, one by one.  The interfaces that a descent closes are all live
before it and count against those that are left, so it ends also where
interfaces tear each other down in a circle.

What a descent does to a fleet apart from closing interfaces is little:
`Fleet.Loosens`.  Endpoints may lose registrations and reservations, no delegate
is called, and all that is logged is that an address had not been reserved.
-/

namespace FleetControl

/-- The entry on an address that is freed without having been reserved. -/
def Log.Entry.unreserved (address : Text) : Log.Entry :=
  ⟨.error, text "[EnvironmentProxy] Tried to free address " ++ address.quoted
    ++ text " which was not reserved."⟩

/-- Of the first endpoint some registrations and reservations may be gone in the
second one, and nothing else is different. -/
structure Endpoint.Loosened (before after : Endpoint) : Prop where
  role_eq : after.role = before.role
  uid_eq : after.uid = before.uid
  commId_eq : after.commId = before.commId
  control_eq : after.control = before.control
  owned_eq : after.owned = before.owned
  registered_sublist : after.registered.Sublist before.registered
  addresses_sublist : after.addresses.Sublist before.addresses

namespace Endpoint.Loosened

variable {a b c : Endpoint}

theorem refl (a : Endpoint) : Loosened a a :=
  ⟨rfl, rfl, rfl, rfl, rfl, .refl _, .refl _⟩

theorem trans (hab : Loosened a b) (hbc : Loosened b c) : Loosened a c where
  role_eq := hbc.role_eq.trans hab.role_eq
  uid_eq := hbc.uid_eq.trans hab.uid_eq
  commId_eq := hbc.commId_eq.trans hab.commId_eq
  control_eq := hbc.control_eq.trans hab.control_eq
  owned_eq := hbc.owned_eq.trans hab.owned_eq
  registered_sublist := hbc.registered_sublist.trans hab.registered_sublist
  addresses_sublist := hbc.addresses_sublist.trans hab.addresses_sublist

end Endpoint.Loosened

namespace Fleet

theorem loosened_letGo (i : InterfaceId) (address? : Option Text)
    (endpoint : Endpoint) :
    endpoint.Loosened (letGo i address? endpoint) := by
  unfold letGo
  split
  · exact .refl endpoint
  · refine ⟨rfl, rfl, rfl, rfl, rfl, List.erase_sublist, ?_⟩
    cases address? with
    | none => exact .refl _
    | some address => exact List.erase_sublist

/-- Between two states of a fleet endpoints may have lost registrations and
reservations, no delegate or listener has been called, and nothing else is in
the log than that addresses had not been reserved. -/
structure Loosens (f g : Fleet) : Prop where
  continues : Continues f g []
  controls_eq : g.controls = f.controls
  writes : Writes (fun entry => ∃ address, entry = .unreserved address) f g
  endpoint : ∀ e, (f.endpoint e).Loosened (g.endpoint e)

namespace Loosens

variable {f g h : Fleet}

theorem refl (f : Fleet) : Loosens f f :=
  ⟨.refl f, rfl, writes_of_eq rfl, fun _ => .refl _⟩

theorem trans (hfg : Loosens f g) (hgh : Loosens g h) : Loosens f h where
  continues := hfg.continues.trans_left hgh.continues
  controls_eq := hgh.controls_eq.trans hfg.controls_eq
  writes := hfg.writes.trans hgh.writes
  endpoint := fun e => (hfg.endpoint e).trans (hgh.endpoint e)

end Loosens

/-- A change that loosens every endpoint loosens the fleet. -/
theorem loosens_modifyEndpoint (f : Fleet) (e : EndpointId)
    {change : Endpoint → Endpoint}
    (hchange : ∀ endpoint : Endpoint, endpoint.Loosened (change endpoint)) :
    Loosens f (f.modifyEndpoint e change) := by
  refine ⟨continues_of_eq rfl rfl rfl, rfl, writes_of_eq rfl, ?_⟩
  intro other
  rcases endpoint_modifyEndpoint f e other change with hsame | hchanged
  · rw [hsame]
    exact .refl _
  · rw [hchanged]
    exact hchange _

/-- A change of interfaces alone is none of an endpoint. -/
theorem loosens_withInterfaces (f : Fleet) (interfaces : Store Interface) :
    Loosens f { f with interfaces := interfaces } :=
  ⟨continues_of_eq rfl rfl rfl, rfl, writes_of_eq rfl, fun _ => .refl _⟩

theorem loosens_close (f : Fleet) (i : InterfaceId) : Loosens f (f.close i) :=
  (loosens_modifyEndpoint f _ (loosened_letGo i none)).trans
    (loosens_withInterfaces _ _)

theorem loosens_release (f : Fleet) (e : EndpointId) (address : Text) :
    Loosens f (f.release e address) := by
  unfold release
  split
  · apply loosens_modifyEndpoint
    intro endpoint
    exact ⟨rfl, rfl, rfl, rfl, rfl, .refl _, List.erase_sublist⟩
  · exact ⟨continues_log f _ _, rfl,
      writes_one (entries_log f _ _) ⟨address, rfl⟩, fun _ => .refl _⟩

theorem loosens_releaseOwned (f : Fleet) (i : InterfaceId) :
    Loosens f (f.releaseOwned i) := by
  simp only [releaseOwned]
  split
  · exact .refl f
  · split
    · exact .refl f
    · exact loosens_release f _ _

theorem loosens_dropInterface (f : Fleet) (i : InterfaceId) :
    Loosens f (f.dropInterface i) := by
  simp only [dropInterface]
  split
  · exact loosens_withInterfaces f _
  · exact (loosens_modifyEndpoint f _ (loosened_letGo i _)).trans
      (loosens_withInterfaces _ _)

theorem interfaces_releaseOwned (f : Fleet) (i : InterfaceId) :
    (f.releaseOwned i).interfaces = f.interfaces := by
  simp only [releaseOwned]
  split
  · rfl
  · split
    · rfl
    · unfold release
      split <;> rfl

theorem liveInterfaces_releaseOwned (f : Fleet) (i : InterfaceId) :
    (f.releaseOwned i).liveInterfaces = f.liveInterfaces := by
  rw [liveInterfaces, interfaces_releaseOwned, liveInterfaces]

theorem interface_releaseOwned (f : Fleet) (i j : InterfaceId) :
    (f.releaseOwned i).interface j = f.interface j := by
  rw [interface, interfaces_releaseOwned, interface]

/-- An interface keeps its tag when it or another one is closed. -/
theorem tag_close (f : Fleet) (i j : InterfaceId) :
    ((f.close i).interface j).tag = (f.interface j).tag := by
  by_cases hj : j = i
  · subst hj
    simp only [close, interface, modifyInterface, modifyEndpoint,
      Store.get?_modify_self]
    cases f.interfaces.get? j with
    | none => rfl
    | some interface => rfl
  · rw [close, interface_modifyInterface_of_ne _ hj, interface_modifyEndpoint]

/-! ## The descent -/

/-- Tearing an interface down closes the given interfaces one after the other,
in this order, and ends with the given answer and fleet. -/
inductive Descends :
    Fleet → InterfaceId → List InterfaceId → Except Fault Unit →
      Fleet → Prop where
  /-- The interface always fails. -/
  | stuck {f i fault} (hbehaviour : (f.interface i).behaviour = .stuck fault) :
      Descends f i [] (.error fault) f
  /-- The interface has been torn down already. -/
  | again {f i} (hdeleted : (f.interface i).deleted = true)
      (hbehaviour : ∀ fault, (f.interface i).behaviour ≠ .stuck fault) :
      Descends f i [] (.error (.interfaceDeleted (f.interface i).tag)) f
  /-- The interface tears no other one down. -/
  | last {f i} (hlive : (f.interface i).deleted = false)
      (hbehaviour : (f.interface i).behaviour = .plain ∨
        ∃ address, (f.interface i).behaviour = .address address) :
      Descends f i [i] (.ok ()) ((f.releaseOwned i).close i)
  /-- The interface is closed before the next one is torn down. -/
  | onward {f i next closed answer g} (hlive : (f.interface i).deleted = false)
      (hbehaviour : (f.interface i).behaviour = .chain next)
      (hlater : Descends (f.close i) next closed answer g) :
      Descends f i (i :: closed) answer g

/-- Every interface is torn down in a descent that comes to its end. -/
theorem descends_teardown (f : Fleet) (i : InterfaceId) :
    ∃ closed, Descends f i closed (f.teardown i).1 (f.teardown i).2 := by
  rw [teardown]
  cases hbehaviour : (f.interface i).behaviour with
  | stuck fault => exact ⟨[], .stuck hbehaviour⟩
  | plain =>
    cases hdeleted : (f.interface i).deleted with
    | true => exact ⟨[], .again hdeleted (by simp [hbehaviour])⟩
    | false => exact ⟨[i], .last hdeleted (.inl hbehaviour)⟩
  | address address =>
    cases hdeleted : (f.interface i).deleted with
    | true => exact ⟨[], .again hdeleted (by simp [hbehaviour])⟩
    | false => exact ⟨[i], .last hdeleted (.inr ⟨address, hbehaviour⟩)⟩
  | chain next =>
    cases hdeleted : (f.interface i).deleted with
    | true => exact ⟨[], .again hdeleted (by simp [hbehaviour])⟩
    | false =>
      obtain ⟨closed, hlater⟩ := descends_teardown (f.close i) next
      exact ⟨i :: closed, .onward hdeleted hbehaviour hlater⟩
termination_by f.liveInterfaces
decreasing_by exact liveInterfaces_close_lt f i hdeleted

namespace Descends

variable {f g : Fleet} {i : InterfaceId} {closed : List InterfaceId}
    {answer : Except Fault Unit}

theorem loosens (h : Descends f i closed answer g) : Loosens f g := by
  induction h with
  | stuck _ => exact .refl _
  | again _ _ => exact .refl _
  | @last f i _ _ => exact (loosens_releaseOwned f i).trans (loosens_close _ i)
  | @onward f i next closed answer g _ _ _ ih =>
    exact (loosens_close f i).trans ih

/-- Whatever a descent closes was live before. -/
theorem length_closed (h : Descends f i closed answer g) :
    g.liveInterfaces + closed.length ≤ f.liveInterfaces := by
  induction h with
  | stuck _ => simp
  | again _ _ => simp
  | @last f i hlive _ =>
    have hlive' : ((f.releaseOwned i).interface i).deleted = false := by
      rw [interface_releaseOwned, hlive]
    have hlt := liveInterfaces_close_lt (f.releaseOwned i) i hlive'
    rw [liveInterfaces_releaseOwned] at hlt
    exact hlt
  | @onward f i next closed answer g hlive _ _ ih =>
    have hlt := liveInterfaces_close_lt f i hlive
    rw [List.length_cons]
    omega

theorem tag_eq (h : Descends f i closed answer g) (j : InterfaceId) :
    (g.interface j).tag = (f.interface j).tag := by
  induction h with
  | stuck _ => rfl
  | again _ _ => rfl
  | @last f i _ _ => rw [tag_close, interface_releaseOwned]
  | @onward f i next closed answer g _ _ _ ih => rw [ih, tag_close]

end Descends

end Fleet
end FleetControl

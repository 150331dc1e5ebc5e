import FleetControl.Proofs.Fleet.Teardown

/-!
# Fleets up to the order of things

The interfaces of an endpoint form a set, and the events of a fleet that come of
tearing them down form a multiset: `Fleet.Rearranged` compares fleets up to the
order of both.  `Fleet.shut` is the one step by which a live interface is torn
down.  It respects this comparison, and of two different interfaces either one
may be shut first.

The second fact needs a count.  Where two interfaces own the same address of the
same environment, which one is told that the address was not reserved depends on
the order, but how often this is told does not.
-/

namespace FleetControl

open scoped List

theorem Store.modify_comm {α : Type} (s : Store α) {i j : Nat} (hij : i ≠ j)
    (f g : α → α) :
    (s.modify i f).modify j g = (s.modify j g).modify i f := by
  simp only [Store.modify, List.map_map, Store.mk.injEq, and_true]
  apply List.map_congr_left
  intro entry _
  by_cases hi : entry.1 = i
  · have hj : entry.1 ≠ j := hi ▸ hij
    simp [hi, hij]
  · by_cases hj : entry.1 = j
    · simp [hj, hij.symm]
    · simp [hi, hj]

/-- Two endpoints are the same but for the order of their
registered interfaces. -/
structure Endpoint.Reordered (a b : Endpoint) : Prop where
  registered_perm : b.registered.Perm a.registered
  others_eq : b = { a with registered := b.registered }

namespace Endpoint.Reordered

variable {a b c : Endpoint}

theorem refl (a : Endpoint) : Reordered a a :=
  ⟨.refl _, rfl⟩

theorem trans (hab : Reordered a b) (hbc : Reordered b c) : Reordered a c := by
  refine ⟨hbc.registered_perm.trans hab.registered_perm, ?_⟩
  rw [hbc.others_eq, hab.others_eq]

theorem symm (hab : Reordered a b) : Reordered b a := by
  refine ⟨hab.registered_perm.symm, ?_⟩
  rw [hab.others_eq]

theorem isDeleted_eq (hab : Reordered a b) : b.isDeleted = a.isDeleted := by
  rw [hab.others_eq, Endpoint.isDeleted, Endpoint.isDeleted]

end Endpoint.Reordered

namespace Fleet

/-- The second fleet has the same delegates, listener and interfaces, the same
endpoints but for the order of their registered interfaces, and in some order
the same events and some extra ones. -/
structure Rearranged (extra : List Event) (f g : Fleet) : Prop where
  controls_eq : g.controls = f.controls
  listener_eq : g.listener = f.listener
  interfaces_eq : g.interfaces = f.interfaces
  endpoint : ∀ e, (f.endpoint e).Reordered (g.endpoint e)
  history_perm : g.history.Perm (extra ++ f.history)

namespace Rearranged

variable {f g h : Fleet} {extra more : List Event}

theorem refl (f : Fleet) : Rearranged [] f f :=
  ⟨rfl, rfl, rfl, fun _ => .refl _, .refl _⟩

theorem trans (hfg : Rearranged extra f g) (hgh : Rearranged more g h) :
    Rearranged (more ++ extra) f h where
  controls_eq := hgh.controls_eq.trans hfg.controls_eq
  listener_eq := hgh.listener_eq.trans hfg.listener_eq
  interfaces_eq := hgh.interfaces_eq.trans hfg.interfaces_eq
  endpoint := fun e => (hfg.endpoint e).trans (hgh.endpoint e)
  history_perm := by
    rw [List.append_assoc]
    exact hgh.history_perm.trans (hfg.history_perm.append_left more)

theorem symm (hfg : Rearranged [] f g) : Rearranged [] g f :=
  ⟨hfg.controls_eq.symm, hfg.listener_eq.symm, hfg.interfaces_eq.symm,
    fun e => (hfg.endpoint e).symm, hfg.history_perm.symm⟩

theorem interface_eq (hfg : Rearranged extra f g) (i : InterfaceId) :
    g.interface i = f.interface i := by
  rw [interface, hfg.interfaces_eq, interface]

theorem record (hfg : Rearranged extra f g) (event : Event) :
    Rearranged (event :: extra) f (g.record event) :=
  ⟨hfg.controls_eq, hfg.listener_eq, hfg.interfaces_eq, hfg.endpoint,
    hfg.history_perm.cons event⟩

end Rearranged

/-! ## Shutting one interface -/

/-- The fleet after a live interface that does not fail has been torn down,
before it tears down any other one. -/
def shut (fleet : Fleet) (i : InterfaceId) : Fleet :=
  (fleet.releaseOwned i).close i

/-- What is logged when an endpoint loses an address: nothing, unless the
endpoint is live and the address is not reserved. -/
def missing (endpoint : Endpoint) : Option Text → List Event
  | none => []
  | some address =>
    if endpoint.isDeleted || endpoint.addresses.contains address then []
    else [.logged (.unreserved address)]

/-- What is logged when an interface is shut. -/
def anomaly (fleet : Fleet) (i : InterfaceId) : List Event :=
  missing (fleet.endpoint (fleet.interface i).endpoint)
    (fleet.interface i).behaviour.address?

variable {f g : Fleet} {extra : List Event} {i j : InterfaceId}

theorem letGo_gone (i : InterfaceId) (address? : Option Text) :
    letGo i address? .gone = .gone :=
  rfl

theorem letGo_of_isDeleted {endpoint : Endpoint}
    (hdeleted : endpoint.isDeleted = true) (i : InterfaceId)
    (address? : Option Text) : letGo i address? endpoint = endpoint := by
  simp only [letGo, hdeleted, if_true]

theorem letGo_of_live {endpoint : Endpoint} (hlive : endpoint.isDeleted = false)
    (i : InterfaceId) (address? : Option Text) :
    letGo i address? endpoint =
      { endpoint with
        registered := endpoint.registered.erase i
        addresses :=
          address?.elim endpoint.addresses endpoint.addresses.erase } := by
  simp only [letGo, hlive, Bool.false_eq_true, if_false]
  cases address? with
  | none => rfl
  | some address => rfl

theorem isDeleted_letGo (i : InterfaceId) (address? : Option Text)
    (endpoint : Endpoint) :
    (letGo i address? endpoint).isDeleted = endpoint.isDeleted := by
  rw [Endpoint.isDeleted, (loosened_letGo i address? endpoint).control_eq,
    Endpoint.isDeleted]

theorem letGo_comm (i j : InterfaceId) (a? b? : Option Text)
    (endpoint : Endpoint) :
    letGo i a? (letGo j b? endpoint) = letGo j b? (letGo i a? endpoint) := by
  cases hdeleted : endpoint.isDeleted with
  | true => simp only [letGo_of_isDeleted hdeleted]
  | false =>
    have hj : (letGo j b? endpoint).isDeleted = false := by
      rw [isDeleted_letGo, hdeleted]
    have hi : (letGo i a? endpoint).isDeleted = false := by
      rw [isDeleted_letGo, hdeleted]
    rw [letGo_of_live hj, letGo_of_live hi, letGo_of_live hdeleted,
      letGo_of_live hdeleted]
    simp only [Endpoint.mk.injEq, true_and]
    refine ⟨List.erase_comm j i, ?_⟩
    cases a? with
    | none => rfl
    | some a =>
      cases b? with
      | none => rfl
      | some b => exact List.erase_comm b a

theorem reordered_letGo {a b : Endpoint} (hab : a.Reordered b) (i : InterfaceId)
    (address? : Option Text) :
    (letGo i address? a).Reordered (letGo i address? b) := by
  cases hdeleted : a.isDeleted with
  | true =>
    have hb : b.isDeleted = true := by rw [hab.isDeleted_eq, hdeleted]
    rwa [letGo_of_isDeleted hdeleted, letGo_of_isDeleted hb]
  | false =>
    have hb : b.isDeleted = false := by rw [hab.isDeleted_eq, hdeleted]
    rw [letGo_of_live hdeleted, letGo_of_live hb]
    refine ⟨hab.registered_perm.erase i, ?_⟩
    rw [hab.others_eq]

theorem endpoint_modifyEndpoint_of_gone (f : Fleet) (e other : EndpointId)
    {change : Endpoint → Endpoint} (hgone : change .gone = .gone) :
    (f.modifyEndpoint e change).endpoint other =
      if other = e then change (f.endpoint other) else f.endpoint other := by
  by_cases hother : other = e
  · subst hother
    simp only [endpoint, modifyEndpoint, Store.get?_modify_self, if_true]
    cases f.endpoints.get? other with
    | none => exact hgone.symm
    | some endpoint => rfl
  · simp [endpoint, modifyEndpoint, Store.get?_modify_of_ne _ hother, hother]

theorem endpoint_close (f : Fleet) (i : InterfaceId) (e : EndpointId) :
    (f.close i).endpoint e =
      if e = (f.interface i).endpoint then letGo i none (f.endpoint e)
        else f.endpoint e :=
  endpoint_modifyEndpoint_of_gone f _ e (letGo_gone i none)

theorem interfaces_close (f : Fleet) (i : InterfaceId) :
    (f.close i).interfaces =
      f.interfaces.modify i fun interface =>
        { interface with control := none, deleted := true } :=
  rfl

/-- To shut an interface is to let go of it and of its address at its
own endpoint. -/
theorem endpoint_shut (f : Fleet) (i : InterfaceId) (e : EndpointId) :
    (f.shut i).endpoint e =
      if e = (f.interface i).endpoint then
        letGo i (f.interface i).behaviour.address? (f.endpoint e)
      else f.endpoint e := by
  rw [shut, endpoint_close, interface_releaseOwned]
  cases haddress : (f.interface i).behaviour.address? with
  | none => simp only [releaseOwned, haddress]
  | some address =>
    cases hdeleted : (f.endpoint (f.interface i).endpoint).isDeleted with
    | true =>
      simp only [releaseOwned, haddress, hdeleted, if_true]
      split
      · next he =>
        rw [he, letGo_of_isDeleted hdeleted, letGo_of_isDeleted hdeleted]
      · rfl
    | false =>
      simp only [releaseOwned, haddress, hdeleted, Bool.false_eq_true, if_false,
        release]
      cases hreserved : f.isReserved (f.interface i).endpoint address with
      | true =>
        simp only [if_true]
        by_cases he : e = (f.interface i).endpoint
        · rw [if_pos he, if_pos he, he, endpoint_modifyEndpoint_self hdeleted,
            letGo_of_live hdeleted]
          exact (letGo_of_live (by exact hdeleted) i none).trans rfl
        · rw [if_neg he, if_neg he]
          simp [endpoint, modifyEndpoint, Store.get?_modify_of_ne _ he]
      | false =>
        simp only [Bool.false_eq_true, if_false]
        have hnot :
            address ∉ (f.endpoint (f.interface i).endpoint).addresses := by
          simpa [isReserved] using hreserved
        by_cases he : e = (f.interface i).endpoint
        · rw [if_pos he, if_pos he, he, letGo_of_live hdeleted,
            Option.elim_some, List.erase_of_not_mem hnot]
          exact letGo_of_live hdeleted i none
        · rw [if_neg he, if_neg he]
          rfl

theorem interfaces_shut (f : Fleet) (i : InterfaceId) :
    (f.shut i).interfaces =
      f.interfaces.modify i fun interface =>
        { interface with control := none, deleted := true } := by
  rw [shut, interfaces_close, interfaces_releaseOwned]

theorem interface_shut_of_ne (f : Fleet) (hji : j ≠ i) :
    (f.shut i).interface j = f.interface j := by
  rw [interface, interfaces_shut, Store.get?_modify_of_ne _ hji, interface]

theorem history_release (f : Fleet) (e : EndpointId) (address : Text)
    (hlive : (f.endpoint e).isDeleted = false) :
    (f.release e address).history = missing (f.endpoint e) (some address)
      ++ f.history := by
  rw [missing, hlive, Bool.false_or]
  cases hreserved : (f.endpoint e).addresses.contains address with
  | true =>
    rw [release, if_pos (show f.isReserved e address = true from hreserved)]
    rfl
  | false =>
    have hnot : ¬f.isReserved e address = true := by
      rw [isReserved, hreserved]; decide
    rw [release, if_neg hnot]
    rfl

theorem history_shut (f : Fleet) (i : InterfaceId) :
    (f.shut i).history = f.anomaly i ++ f.history := by
  show (f.releaseOwned i).history = _
  cases haddress : (f.interface i).behaviour.address? with
  | none =>
    simp only [releaseOwned, anomaly, missing, haddress, List.nil_append]
  | some address =>
    cases hdeleted : (f.endpoint (f.interface i).endpoint).isDeleted with
    | true =>
      simp only [releaseOwned, anomaly, missing, haddress, hdeleted, if_true,
        Bool.true_or, List.nil_append]
    | false =>
      simp only [releaseOwned, anomaly, haddress, hdeleted, Bool.false_eq_true,
        if_false]
      exact history_release f _ address hdeleted

theorem liveInterfaces_shut_lt (hlive : (f.interface i).deleted = false) :
    (f.shut i).liveInterfaces < f.liveInterfaces := by
  have hlt :=
    liveInterfaces_close_lt (f.releaseOwned i) i
      (by rwa [interface_releaseOwned])
  rwa [liveInterfaces_releaseOwned] at hlt

theorem controls_shut (f : Fleet) (i : InterfaceId) :
    (f.shut i).controls = f.controls ∧ (f.shut i).listener = f.listener := by
  show (f.releaseOwned i).controls = _ ∧ (f.releaseOwned i).listener = _
  simp only [releaseOwned]
  split
  · exact ⟨rfl, rfl⟩
  · split
    · exact ⟨rfl, rfl⟩
    · unfold release
      split
      · exact ⟨rfl, rfl⟩
      · exact ⟨rfl, rfl⟩

theorem Rearranged.anomaly_eq (hfg : Rearranged extra f g) (i : InterfaceId) :
    g.anomaly i = f.anomaly i := by
  rw [anomaly, hfg.interface_eq, (hfg.endpoint _).others_eq]
  rfl

/-- The order of things plays no part when an interface is shut. -/
theorem Rearranged.shut (hfg : Rearranged extra f g) (i : InterfaceId) :
    Rearranged extra (f.shut i) (g.shut i) where
  controls_eq := by
    rw [(controls_shut g i).1, (controls_shut f i).1, hfg.controls_eq]
  listener_eq := by
    rw [(controls_shut g i).2, (controls_shut f i).2, hfg.listener_eq]
  interfaces_eq := by rw [interfaces_shut, interfaces_shut, hfg.interfaces_eq]
  endpoint := by
    intro e
    rw [endpoint_shut, endpoint_shut, hfg.interface_eq]
    split
    · exact reordered_letGo (hfg.endpoint e) i _
    · exact hfg.endpoint e
  history_perm := by
    rw [history_shut, history_shut, hfg.anomaly_eq]
    calc
      f.anomaly i ++ g.history
      _ ~ f.anomaly i ++ (extra ++ f.history) := hfg.history_perm.append_left _
      _ = f.anomaly i ++ extra ++ f.history := (List.append_assoc _ _ _).symm
      _ ~ extra ++ f.anomaly i ++ f.history :=
        List.perm_append_comm.append_right _
      _ = extra ++ (f.anomaly i ++ f.history) := List.append_assoc _ _ _

/-! ## Shutting two interfaces -/

theorem endpoint_shut_shut_comm (f : Fleet) (hij : i ≠ j) (e : EndpointId) :
    ((f.shut i).shut j).endpoint e = ((f.shut j).shut i).endpoint e := by
  simp only [endpoint_shut, interface_shut_of_ne f hij,
    interface_shut_of_ne f hij.symm]
  by_cases hi : e = (f.interface i).endpoint
  · by_cases hj : e = (f.interface j).endpoint
    · simp only [if_pos hi, if_pos hj]
      exact letGo_comm _ _ _ _ _
    · simp only [if_pos hi, if_neg hj]
  · by_cases hj : e = (f.interface j).endpoint
    · simp only [if_neg hi, if_pos hj]
    · simp only [if_neg hi, if_neg hj]


/-- An address that an endpoint loses does not matter to another one. -/
theorem missing_letGo_of_ne {a? b? : Option Text} (hab : a? ≠ b?)
    (i : InterfaceId) (endpoint : Endpoint) :
    missing (letGo i a? endpoint) b? = missing endpoint b? := by
  cases b? with
  | none => rfl
  | some b =>
    cases hdeleted : endpoint.isDeleted with
    | true => rw [letGo_of_isDeleted hdeleted]
    | false =>
      have hcontains : (letGo i a? endpoint).addresses.contains b
          = endpoint.addresses.contains b := by
        rw [letGo_of_live hdeleted]
        cases a? with
        | none => rfl
        | some a =>
          have hba : b ≠ a := fun h => hab (congrArg some h.symm)
          simp [List.contains_eq_mem, List.mem_erase_of_ne hba]
      rw [missing, isDeleted_letGo, hcontains, missing]

theorem missing_letGo_congr (i j : InterfaceId) (a? b? : Option Text)
    (endpoint : Endpoint) :
    missing (letGo i a? endpoint) b? = missing (letGo j a? endpoint) b? := by
  cases hdeleted : endpoint.isDeleted with
  | true => rw [letGo_of_isDeleted hdeleted, letGo_of_isDeleted hdeleted]
  | false =>
    rw [letGo_of_live hdeleted, letGo_of_live hdeleted]
    rfl

theorem anomaly_shut (f : Fleet) (hij : i ≠ j) :
    (f.shut i).anomaly j =
      if (f.interface j).endpoint = (f.interface i).endpoint then
        missing (letGo i (f.interface i).behaviour.address?
          (f.endpoint (f.interface j).endpoint))
          (f.interface j).behaviour.address?
      else f.anomaly j := by
  rw [anomaly, interface_shut_of_ne f hij.symm, endpoint_shut, anomaly]
  split
  · rfl
  · rfl

/-- What is logged when two interfaces are shut does not depend on which one
comes first. -/
theorem anomaly_shut_comm (f : Fleet) (hij : i ≠ j) :
    (f.shut i).anomaly j ++ f.anomaly i ~
      (f.shut j).anomaly i ++ f.anomaly j := by
  rw [anomaly_shut f hij, anomaly_shut f hij.symm]
  by_cases hhome : (f.interface j).endpoint = (f.interface i).endpoint
  · rw [if_pos hhome, if_pos hhome.symm, anomaly, anomaly, hhome]
    by_cases haddress : (f.interface i).behaviour.address? =
      (f.interface j).behaviour.address?
    · rw [haddress, missing_letGo_congr i j]
    · rw [missing_letGo_of_ne haddress, missing_letGo_of_ne (Ne.symm haddress)]
      exact List.perm_append_comm
  · rw [if_neg hhome, if_neg (Ne.symm hhome)]
    exact List.perm_append_comm

/-- Two interfaces may be shut in either order. -/
theorem rearranged_shut_shut (f : Fleet) (hij : i ≠ j) :
    Rearranged [] ((f.shut i).shut j) ((f.shut j).shut i) where
  controls_eq := by simp only [(controls_shut _ _).1]
  listener_eq := by simp only [(controls_shut _ _).2]
  interfaces_eq := by
    simp only [interfaces_shut]
    exact Store.modify_comm _ hij.symm _ _
  endpoint := by
    intro e
    rw [endpoint_shut_shut_comm f hij]
    exact .refl _
  history_perm := by
    simp only [history_shut, List.nil_append, ← List.append_assoc]
    exact (anomaly_shut_comm f hij).symm.append_right _

end Fleet
end FleetControl

import FleetControl.Proofs.Fleet.Dropping
import FleetControl.Proofs.Session.Refusal

/-!
# Withdrawing from a container

A container whose delegate refuses its end is still there, with all that it has
registered and reserved.  The session forgets it all the same, and drops its
interfaces on it first, none of which has been torn down: `Session.Withdraws`.
The container keeps nothing of them, and where nobody but the session has made
interfaces on it, it keeps nothing at all.
-/

namespace FleetControl
namespace Session

variable {s t : Session} {e : EndpointId} {i : InterfaceId} {fault : Fault}

/-- The interface is one of the session's. -/
def HasInterface (s : Session) (i : InterfaceId) : Prop :=
  ∃ tag, (tag, i) ∈ s.interfaces

theorem mem_interfacesOn_iff :
    i ∈ s.holdings.interfacesOn e ↔
      s.HasInterface i ∧ (s.fleet.interface i).endpoint = e := by
  constructor
  · intro hi
    obtain ⟨entry, hentry, rfl⟩ := List.mem_map.mp hi
    exact ⟨⟨entry.1, (List.mem_filter.mp hentry).1⟩,
      endpoint_of_mem_interfacesOn hi⟩
  · rintro ⟨⟨tag, htag⟩, hhome⟩
    exact List.mem_map.mpr
      ⟨(tag, i), List.mem_filter.mpr ⟨htag, decide_eq_true hhome⟩, rfl⟩

/-- The session has dropped its interfaces on a live endpoint, which has
kept exactly what is not theirs; nothing else has changed, and nothing has
been written. -/
structure Withdraws (s : Session) (e : EndpointId) (t : Session) : Prop where
  live : (t.fleet.endpoint e).isDeleted = false
  mem_registered : ∀ i, i ∈ (t.fleet.endpoint e).registered ↔
    i ∈ (s.fleet.endpoint e).registered ∧
    ¬ (s.HasInterface i ∧ (s.fleet.interface i).IsOn e)
  mem_addresses : ∀ a, a ∈ (t.fleet.endpoint e).addresses ↔
    a ∈ (s.fleet.endpoint e).addresses ∧ ¬ ∃ i, s.HasInterface i ∧
    (s.fleet.interface i).Owns e a
  mem_interfaces : ∀ entry, entry ∈ t.interfaces ↔
    entry ∈ s.interfaces ∧ (s.fleet.interface entry.2).endpoint ≠ e
  interface_eq : ∀ i,
    ¬ (s.HasInterface i ∧ (s.fleet.interface i).endpoint = e) →
    t.fleet.interface i = s.fleet.interface i
  endpoint_eq : ∀ other, other ≠ e →
    t.fleet.endpoint other = s.fleet.endpoint other
  history_eq : t.fleet.history = s.fleet.history

theorem withdraws_dropInterfacesOf
    (hlive : (s.fleet.endpoint e).isDeleted = false)
    (hregistered : (s.fleet.endpoint e).registered.Nodup)
    (haddresses : (s.fleet.endpoint e).addresses.Nodup) :
    Withdraws s e (s.dropInterfacesOf e) := by
  have hclears :=
    Fleet.clears_dropAll hlive hregistered haddresses
      (s.holdings.interfacesOn e)
  obtain ⟨-, -, hhistory, herase, hrestrict⟩ :=
    Fleet.dropAll_eq fun i hi =>
      Or.inr (endpoint_of_mem_interfacesOn (s := s) (e := e) hi)
  rw [← fleet_dropInterfacesOf] at hclears hhistory herase hrestrict
  constructor
  · exact hclears.live
  · intro i
    rw [hclears.mem_registered, mem_interfacesOn_iff, and_assoc]
    refine and_congr_right fun _ => not_congr (and_congr_right fun _ => ?_)
    exact and_iff_right_of_imp fun hon => hon.home
  · intro a
    rw [hclears.mem_addresses]
    refine and_congr_right fun _ => not_congr (exists_congr fun i => ?_)
    rw [mem_interfacesOn_iff, and_assoc]
    refine and_congr_right fun _ => ?_
    exact and_iff_right_of_imp fun howns => howns.home
  · intro entry
    rw [interfaces_dropInterfacesOf, List.mem_filter, decide_eq_true_iff]
  · intro i hi
    rw [← mem_interfacesOn_iff] at hi
    rw [Fleet.interface, hrestrict, Store.get?_restrict,
      if_pos (decide_eq_true hi), Fleet.interface]
  · intro other hother
    rw [Fleet.endpoint, ← Store.get?_erase_of_ne _ hother, herase,
      Store.get?_erase_of_ne _ hother, Fleet.endpoint]
  · exact hhistory

/-! ## A refused end -/

/-- An endpoint whose end is refused is forgotten once the session has
withdrawn from it. -/
theorem withdraws_of_refused {g : Fleet}
    (hrun : Act.run (Fleet.destroyEndpoint e) s.fleet = (.error fault, g))
    (hlive : (g.endpoint e).isDeleted = false)
    (hregistered : (s.fleet.endpoint e).registered.Nodup)
    (haddresses : (s.fleet.endpoint e).addresses.Nodup) :
    let kept : Session := { s with fleet := g }
    Act.run (retire e) s = (.error fault, kept.forget e) ∧
      Fleet.SameThings s.fleet g ∧
      Withdraws kept e (kept.dropInterfacesOf e) := by
  have hsame := Fleet.sameThings_of_error hrun hlive
  refine ⟨?_, hsame, withdraws_dropInterfacesOf hlive ?_ ?_⟩
  · rw [run_retire, hrun]
  · rwa [hsame.endpoint_eq]
  · rwa [hsame.endpoint_eq]

/-- A container of a sound session has nothing of anybody else. -/
theorem Sound.nothing_left (hs : s.Sound) {tag : Text}
    (hget : s.containers.get? tag = some e)
    (kept : Session) (hinterfaces : kept.interfaces = s.interfaces)
    (hsame : Fleet.SameThings s.fleet kept.fleet)
    (hwithdraws : Withdraws kept e t) :
    (t.fleet.endpoint e).registered = [] ∧
      (t.fleet.endpoint e).addresses = [] := by
  have he := hs.holdings.container hget
  have hon : ∀ i, s.holdings.IsOn i e →
      kept.HasInterface i ∧ (kept.fleet.interface i).IsOn e := by
    rintro i ⟨⟨name, hname⟩, hhome⟩
    rw [hsame.interface_eq]
    refine ⟨⟨name, hinterfaces ▸ Dict.mem_of_get? hname⟩, ?_, hhome⟩
    exact (hs.holdings.interface hname).live
  constructor
  · rw [List.eq_nil_iff_forall_not_mem]
    intro i hi
    obtain ⟨hmem, hnot⟩ := (hwithdraws.mem_registered i).mp hi
    rw [hsame.endpoint_eq] at hmem
    exact hnot (hon i ((he.mem_registered i).mp hmem))
  · rw [List.eq_nil_iff_forall_not_mem]
    intro a ha
    obtain ⟨hmem, hnot⟩ := (hwithdraws.mem_addresses a).mp ha
    rw [hsame.endpoint_eq] at hmem
    obtain ⟨i, hi, haddress⟩ := (he.mem_addresses a).mp hmem
    obtain ⟨hhas, hison⟩ := hon i hi
    have hbehaviour : (kept.fleet.interface i).behaviour = .address a := by
      rw [hsame.interface_eq]
      exact haddress
    exact hnot ⟨i, hhas, hison, congrArg Behaviour.address? hbehaviour⟩

/-- To take back a container whose end is refused fails with the refusal, and
leaves it without a registration or an address when the session forgets it. -/
theorem Sound.run_removeContainer_of_refused (hs : s.Sound) {tag : Text}
    {g : Fleet} (hget : s.containers.get? tag = some e)
    (hrun : Act.run (Fleet.destroyEndpoint e) s.fleet = (.error fault, g)) :
    let kept : Session :=
      { s with containers := s.containers.erase tag, fleet := g }
    let t := kept.dropInterfacesOf e
    Act.run (removeContainer tag) s =
        (.error fault, { t with fleet := t.fleet.dropEndpoint e }) ∧
      Withdraws kept e t ∧
      (t.fleet.endpoint e).registered = [] ∧
      (t.fleet.endpoint e).addresses = [] := by
  intro kept t
  have he := hs.holdings.container hget
  obtain ⟨c, message, -, hready⟩ := hs.ready_container hget
  have hlive : (g.endpoint e).isDeleted = false := by
    rcases Fleet.run_destroyEndpoint hready with
        ⟨_, -, hrefused⟩ | ⟨_, -, haccepted, -⟩
    · cases hrefused.symm.trans hrun
      exact he.live
    · cases haccepted.symm.trans hrun
  let parted : Session := { s with containers := s.containers.erase tag }
  obtain ⟨hretire, hsame, hwithdraws⟩ :=
    withdraws_of_refused (s := parted) hrun hlive he.registered_nodup
      he.addresses_nodup
  refine ⟨?_, hwithdraws, hs.nothing_left hget kept rfl hsame hwithdraws⟩
  simp only [removeContainer, container, Act.run_bind,
    run_ensureActive hs.active, Act.run_get, hget, Act.run_pure, Act.run_modify]
  rw [hretire]
  rfl

/-- To drop an interface releases what to tear it down releases: a live one ends
alike in both ways, and one that has been torn down already leaves everything
but itself.  So an endpoint whose end is refused has nothing of the session's
live interfaces any more when the session has dropped them, and a container in a
state that requests lead to has nothing at all. -/
theorem drop_releases_as_destroy :
    (∀ (f : Fleet) (i : InterfaceId), (f.interface i).deleted = false →
      ((f.interface i).behaviour = .plain ∨
        ∃ address, (f.interface i).behaviour = .address address) →
      f.EndsAlike i) ∧
    (∀ (f : Fleet) (i : InterfaceId), (f.interface i).deleted = true →
      f.dropInterface i = { f with interfaces := f.interfaces.erase i } ∧
        Act.run (Fleet.discard i) f = (.ok (), f.dropInterface i)) ∧
    (∀ (s : Session) (e : EndpointId) (fault : Fault) (g : Fleet),
      Act.run (Fleet.destroyEndpoint e) s.fleet = (.error fault, g) →
      (g.endpoint e).isDeleted = false →
      (s.fleet.endpoint e).registered.Nodup →
      (s.fleet.endpoint e).addresses.Nodup →
      let kept : Session := { s with fleet := g }
      Act.run (retire e) s = (.error fault, kept.forget e) ∧
      Fleet.SameThings s.fleet g ∧ Withdraws kept e (kept.dropInterfacesOf e)) ∧
    (∀ (outside : Outside) (requests : List Json) (tag : Text)
        (e : EndpointId) (fault : Fault) (g : Fleet),
      let s := outside.sessionAfter requests
      let kept : Session :=
        { s with containers := s.containers.erase tag, fleet := g }
      let t := kept.dropInterfacesOf e
      s.containers.get? tag = some e →
      Act.run (Fleet.destroyEndpoint e) s.fleet = (.error fault, g) →
      Act.run (removeContainer tag) s =
          (.error fault, { t with fleet := t.fleet.dropEndpoint e }) ∧
        Withdraws kept e t ∧
        (t.fleet.endpoint e).registered = [] ∧
        (t.fleet.endpoint e).addresses = []) := by
  refine ⟨?_, ?_, ?_, ?_⟩
  · exact fun f i hlive hbehaviour => Fleet.endsAlike hlive hbehaviour
  · intro f i hdeleted
    exact ⟨Fleet.dropInterface_of_deleted hdeleted,
      Fleet.run_discard_of_deleted hdeleted⟩
  · intro s e fault g hrun hlive hregistered haddresses
    exact withdraws_of_refused hrun hlive hregistered haddresses
  · intro outside requests tag e fault g s kept t hget hrun
    exact (sound_sessionAfter outside requests).run_removeContainer_of_refused
      hget hrun

/-- An environment with an interface whose address has been freed by hand. -/
def stray : Fleet where
  controls := ⟨[(0, ⟨[.node, .parameter], fun _ _ => none, 0⟩)], 1⟩
  endpoints :=
    ⟨[(0, ⟨.environment, text "e1", text "c1", some 0, false, [0], []⟩)], 1⟩
  interfaces :=
    ⟨[(0, ⟨text "i1", 0, some 0, false, .address (text "/scan")⟩)], 1⟩
  listener := ⟨none, false, fun _ _ _ => none, 0⟩
  history := []

/-- To tear down the interface of that environment is logged, and to drop it
is not.  A container with an interface, whose end is refused, has nothing
left of it. -/
theorem drop_releases_as_destroy_stray :
    (stray.EndsAlike 0 ∧ (stray.dropInterface 0).history = [] ∧
      (stray.shut 0).history = [.logged (.unreserved (text "/scan"))]) ∧
    (((stray.shut 0).interface 0).deleted = true ∧
      Act.run (Fleet.discard 0) (stray.shut 0) =
        (.ok (), (stray.shut 0).dropInterface 0)) ∧
    (let adding := [
        Json.ofEntries [(text "op", .str "add_container"),
          (text "tag", .str "c"), (text "comm_id", .str "c1")],
        Json.ofEntries [(text "op", .str "add_interface"),
          (text "container", .str "c"), (text "tag", .str "i"),
          (text "addr", .str "/scan")]]
      let s := unyielding.sessionAfter adding
      let g := (Act.run (Fleet.destroyEndpoint 0) s.fleet).2
      let kept : Session := { s with fleet := g }
      let parted : Session :=
        { s with containers := s.containers.erase (text "c"), fleet := g }
      let t := parted.dropInterfacesOf 0
      ((s.fleet.endpoint 0).registered = [0] ∧
        (s.fleet.endpoint 0).addresses = [text "/scan"]) ∧
        Withdraws kept 0 (kept.dropInterfacesOf 0) ∧
        (t.fleet.endpoint 0).registered = [] ∧
        (t.fleet.endpoint 0).addresses = []) := by
  obtain ⟨hends, hgone, hwithdraws, hrefused⟩ := drop_releases_as_destroy
  have hstray := hends stray 0 rfl (Or.inr ⟨_, rfl⟩)
  have hdeleted : ((stray.shut 0).interface 0).deleted = true := by decide
  refine ⟨⟨hstray, hstray.quiet.1, ?_⟩, ⟨hdeleted, (hgone _ 0 hdeleted).2⟩, ?_⟩
  · exact hstray.anomaly (text "/scan") ⟨rfl, rfl, by decide⟩
  · intro adding s g kept parted t
    let busy : Fault := .foreign .runtime (text "busy") []
    have hrun : Act.run (Fleet.destroyEndpoint 0) s.fleet = (.error busy, g) :=
      rfl
    have hget : s.containers.get? (text "c") = some 0 := by decide
    obtain ⟨-, -, hkept⟩ :=
      hwithdraws s 0 busy g hrun (by decide) (by decide) (by decide)
    obtain ⟨-, -, hnothing⟩ :=
      hrefused unyielding adding (text "c") 0 busy g hget hrun
    exact ⟨⟨by decide, by decide⟩, hkept, hnothing⟩

end Session
end FleetControl

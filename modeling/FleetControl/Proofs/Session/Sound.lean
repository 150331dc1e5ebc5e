import FleetControl.Proofs.Session.Holdings

/-!
# The invariant of holdings

Every change that a request can make to the holdings of a session keeps them
sound.  For each change the proof says first how the things that stay are found
again, and then what is true of the one that is new or gone.
-/

namespace FleetControl
namespace Holdings

variable {h h' : Holdings}

/-! ## Things that stay -/

/-- A robot stays as long as its endpoint does. -/
theorem IsRobot.congr {id : Text} {e : EndpointId} (hr : h.IsRobot id e)
    (he : h'.endpoint e = h.endpoint e) : h'.IsRobot id e where
  role_eq := he ▸ hr.role_eq
  uid_eq := he ▸ hr.uid_eq
  owned := he ▸ hr.owned
  live := he ▸ hr.live
  registered_eq := he ▸ hr.registered_eq

/-- A container stays as long as its endpoint and the interfaces on it do. -/
theorem IsContainer.congr {tag : Text} {e : EndpointId}
    (hc : h.IsContainer tag e)
    (he : h'.endpoint e = h.endpoint e) (hon : ∀ i, h'.IsOn i e ↔ h.IsOn i e)
    (hi : ∀ i, h.IsOn i e → h'.interface i = h.interface i) :
    h'.IsContainer tag e where
  role_eq := he ▸ hc.role_eq
  uid_eq := he ▸ hc.uid_eq
  owned := he ▸ hc.owned
  live := he ▸ hc.live
  registered_nodup := he ▸ hc.registered_nodup
  addresses_nodup := he ▸ hc.addresses_nodup
  mem_registered := by
    intro i
    rw [he, hon, hc.mem_registered]
  mem_addresses := by
    intro address
    rw [he, hc.mem_addresses]
    constructor
    · rintro ⟨i, hi', hbehaviour⟩
      exact ⟨i, (hon i).mpr hi', hi i hi' ▸ hbehaviour⟩
    · rintro ⟨i, hi', hbehaviour⟩
      have hold := (hon i).mp hi'
      exact ⟨i, hold, hi i hold ▸ hbehaviour⟩

/-- An interface stays as long as its container keeps its place in the table. -/
theorem IsInterface.congr {tag : Text} {i : InterfaceId}
    (hi : h.IsInterface tag i) (heq : h'.interface i = h.interface i)
    (hhome : ∃ container, h'.containers.get? container =
      some (h.interface i).endpoint) :
    h'.IsInterface tag i where
  tag_eq := heq ▸ hi.tag_eq
  live := heq ▸ hi.live
  home := heq ▸ hhome
  address := heq ▸ hi.address

theorem Sound.ne_next_of_live (hs : h.Sound) {e : EndpointId}
    (he : (h.endpoint e).isDeleted = false) : e ≠ h.endpointStore.next := by
  rintro rfl
  simp [endpoint, hs.endpoints_fresh.get?_next, Endpoint.gone,
    Endpoint.isDeleted] at he

theorem Sound.ne_next_of_not_deleted (hs : h.Sound) {i : InterfaceId}
    (hi : (h.interface i).deleted = false) : i ≠ h.interfaceStore.next := by
  rintro rfl
  simp [Holdings.interface, hs.interfaces_fresh.get?_next, Interface.gone] at hi

theorem Sound.robot_unique (hs : h.Sound) {id id' : Text} {e : EndpointId}
    (hid : h.robots.get? id = some e) (hid' : h.robots.get? id' = some e) :
    id = id' :=
  (hs.robot hid).uid_eq.symm.trans (hs.robot hid').uid_eq

theorem Sound.container_unique (hs : h.Sound) {tag tag' : Text} {e : EndpointId}
    (htag : h.containers.get? tag = some e)
    (htag' : h.containers.get? tag' = some e) :
    tag = tag' :=
  (hs.container htag).uid_eq.symm.trans (hs.container htag').uid_eq

theorem Sound.robot_ne_container (hs : h.Sound) {id tag : Text}
    {e e' : EndpointId} (hid : h.robots.get? id = some e)
    (htag : h.containers.get? tag = some e') : e ≠ e' := by
  rintro rfl
  obtain ⟨connected, hrole⟩ := (hs.container htag).role_eq
  rw [(hs.robot hid).role_eq] at hrole
  cases hrole

theorem Sound.interface_unique (hs : h.Sound) {tag tag' : Text}
    {i : InterfaceId} (htag : h.interfaces.get? tag = some i)
    (htag' : h.interfaces.get? tag' = some i) :
    tag = tag' :=
  (hs.interface htag).tag_eq.symm.trans (hs.interface htag').tag_eq

/-! ## New endpoints -/

theorem endpoint_insert (hfresh : h.endpointStore.Fresh) (new : Endpoint)
    (e : EndpointId) :
    ((h.endpointStore.insert new).get? e).getD .gone =
      if e = h.endpointStore.next then new else h.endpoint e := by
  by_cases he : e = h.endpointStore.next
  · rw [if_pos he, he, Store.get?_insert_next hfresh]
    rfl
  · rw [if_neg he, Store.get?_insert_of_ne _ he]
    rfl

theorem Sound.endpoint_insert_of_live (hs : h.Sound) (new : Endpoint)
    {e : EndpointId} (he : (h.endpoint e).isDeleted = false) :
    ((h.endpointStore.insert new).get? e).getD .gone = h.endpoint e := by
  rw [endpoint_insert hs.endpoints_fresh, if_neg (hs.ne_next_of_live he)]

theorem Sound.withRobot (hs : h.Sound) (id commId : Text) (c : ControlId) :
    (h.withRobot id ⟨.robot, id, commId, some c, true, [], []⟩).Sound where
  robots_sorted := hs.robots_sorted.insert id _
  containers_sorted := hs.containers_sorted
  interfaces_sorted := hs.interfaces_sorted
  endpoints_fresh := hs.endpoints_fresh.insert _
  interfaces_fresh := hs.interfaces_fresh
  robot := by
    intro id' e he
    by_cases hid : id' = id
    · subst hid
      have hnext : e = h.endpointStore.next := by
        simpa [Holdings.withRobot, Dict.get?_insert_self] using he.symm
      have hnew :
          (h.withRobot id' ⟨.robot, id', commId, some c, true, [], []⟩).endpoint
            e = ⟨.robot, id', commId, some c, true, [], []⟩ :=
        (endpoint_insert hs.endpoints_fresh _ e).trans (if_pos hnext)
      constructor
      · rw [hnew]
      · rw [hnew]
      · rw [hnew]
      · rw [hnew]
        rfl
      · rw [hnew]
    · have hold : h.robots.get? id' = some e := by
        simpa [Holdings.withRobot, Dict.get?_insert_of_ne hid] using he
      exact (hs.robot hold).congr
        (hs.endpoint_insert_of_live _ (hs.robot hold).live)
  container := by
    intro tag e he
    have hold := hs.container he
    exact hold.congr (hs.endpoint_insert_of_live _ hold.live) (fun _ => Iff.rfl)
      fun _ _ => rfl
  interface := fun hi => (hs.interface hi).congr rfl (hs.interface hi).home
  distinct := hs.distinct

theorem Sound.isContainer_withContainer (hs : h.Sound) (tag commId : Text)
    (c : ControlId) :
    (h.withContainer tag
      ⟨.container false, tag, commId, some c, true, [], []⟩).IsContainer tag
      h.endpointStore.next := by
  have hendpoint :
      (h.withContainer tag
        ⟨.container false, tag, commId, some c, true, [], []⟩).endpoint
          h.endpointStore.next =
        ⟨.container false, tag, commId, some c, true, [], []⟩ :=
    (endpoint_insert hs.endpoints_fresh _ _).trans (if_pos rfl)
  -- No interface can be on an endpoint that has not been there.
  have hnone : ∀ i, ¬ h.IsOn i h.endpointStore.next := by
    rintro i ⟨⟨t, ht⟩, hhome⟩
    obtain ⟨container, hcontainer⟩ := (hs.interface ht).home
    exact hs.ne_next_of_live (hs.container hcontainer).live hhome
  constructor
  · exact ⟨false, by rw [hendpoint]⟩
  · rw [hendpoint]
  · rw [hendpoint]
  · rw [hendpoint]
    rfl
  · rw [hendpoint]
    exact List.nodup_nil
  · rw [hendpoint]
    exact List.nodup_nil
  · intro i
    rw [hendpoint]
    exact ⟨fun hi => absurd hi List.not_mem_nil, fun hi => absurd hi (hnone i)⟩
  · intro address
    rw [hendpoint]
    constructor
    · intro haddress
      exact absurd haddress List.not_mem_nil
    · rintro ⟨i, hi, -⟩
      exact absurd hi (hnone i)

theorem Sound.withContainer (hs : h.Sound) {tag : Text}
    (hnew : h.containers.contains tag = false) (commId : Text) (c : ControlId) :
    (h.withContainer tag
      ⟨.container false, tag, commId, some c, true, [], []⟩).Sound where
  robots_sorted := hs.robots_sorted
  containers_sorted := hs.containers_sorted.insert tag _
  interfaces_sorted := hs.interfaces_sorted
  endpoints_fresh := hs.endpoints_fresh.insert _
  interfaces_fresh := hs.interfaces_fresh
  robot := by
    intro id e he
    have hold := hs.robot he
    exact hold.congr (hs.endpoint_insert_of_live _ hold.live)
  container := by
    intro tag' e he
    by_cases htag : tag' = tag
    · subst htag
      have hnext : e = h.endpointStore.next := by
        simpa [Holdings.withContainer, Dict.get?_insert_self] using he.symm
      rw [hnext]
      exact hs.isContainer_withContainer tag' commId c
    · have hold : h.containers.get? tag' = some e := by
        simpa [Holdings.withContainer, Dict.get?_insert_of_ne htag] using he
      exact (hs.container hold).congr
        (hs.endpoint_insert_of_live _ (hs.container hold).live)
        (fun _ => Iff.rfl) fun _ _ => rfl
  interface := by
    intro tag' i hi
    refine (hs.interface hi).congr rfl ?_
    obtain ⟨container, hcontainer⟩ := (hs.interface hi).home
    refine ⟨container, ?_⟩
    have hne : container ≠ tag := by
      rintro rfl
      simp [Dict.contains, hcontainer] at hnew
    exact (Dict.get?_insert_of_ne hne _ _).trans hcontainer
  distinct := hs.distinct

/-! ## Endpoints that go -/

theorem Sound.mem_interfacesOn (hs : h.Sound) {e : EndpointId}
    {i : InterfaceId} :
    i ∈ h.interfacesOn e ↔ h.IsOn i e := by
  simp only [interfacesOn, List.mem_map, List.mem_filter, decide_eq_true_eq]
  constructor
  · rintro ⟨entry, ⟨hmem, hhome⟩, rfl⟩
    exact ⟨⟨entry.1, hs.interfaces_sorted.get?_of_mem hmem⟩, hhome⟩
  · rintro ⟨⟨tag, htag⟩, hhome⟩
    exact ⟨(tag, i), ⟨Dict.mem_of_get? htag, hhome⟩, rfl⟩

theorem endpoint_without (h : Holdings) {e other : EndpointId}
    (hne : other ≠ e) :
    (h.without e).endpoint other = h.endpoint other := by
  rw [endpoint, without, Store.get?_erase_of_ne _ hne, endpoint]

theorem Sound.interface_without (hs : h.Sound) {e : EndpointId}
    {i : InterfaceId} (hne : (h.interface i).endpoint ≠ e) :
    (h.without e).interface i = h.interface i := by
  have hnot : i ∉ h.interfacesOn e :=
    fun hmem => hne (hs.mem_interfacesOn.mp hmem).2
  simp [Holdings.interface, without, Store.get?_restrict, hnot]

/-- A tag is left when its interface is on another endpoint than the one
that goes. -/
theorem Sound.get?_interfaces_without (hs : h.Sound) {e : EndpointId}
    {tag : Text} {i : InterfaceId} :
    (h.without e).interfaces.get? tag = some i ↔
      h.interfaces.get? tag = some i ∧ (h.interface i).endpoint ≠ e := by
  simp only [without]
  rw [hs.interfaces_sorted.get?_filter]
  simp

/-- When an endpoint goes, the other endpoints keep their interfaces. -/
theorem Sound.isOn_without (hs : h.Sound) {e other : EndpointId}
    {i : InterfaceId} :
    (h.without e).IsOn i other ↔ h.IsOn i other ∧ other ≠ e := by
  constructor
  · rintro ⟨⟨tag, htag⟩, hhome⟩
    obtain ⟨hold, hne⟩ := hs.get?_interfaces_without.mp htag
    rw [hs.interface_without hne] at hhome
    exact ⟨⟨⟨tag, hold⟩, hhome⟩, hhome ▸ hne⟩
  · rintro ⟨⟨⟨tag, htag⟩, hhome⟩, hne⟩
    have hne' : (h.interface i).endpoint ≠ e := hhome ▸ hne
    exact ⟨⟨tag, hs.get?_interfaces_without.mpr ⟨htag, hne'⟩⟩,
      (hs.interface_without hne').symm ▸ hhome⟩

theorem Sound.isContainer_without (hs : h.Sound) {tag : Text}
    {e other : EndpointId} (hc : h.IsContainer tag other) (hne : other ≠ e) :
    (h.without e).IsContainer tag other := by
  refine hc.congr (endpoint_without h hne) ?_ ?_
  · intro i
    rw [hs.isOn_without]
    exact and_iff_left hne
  · intro i hi
    exact hs.interface_without (hi.2 ▸ hne)

theorem Sound.distinct_without (hs : h.Sound) {e other : EndpointId}
    {i j : InterfaceId}
    (hi : (h.without e).IsOn i other) (hj : (h.without e).IsOn j other)
    (heq : ((h.without e).interface i).behaviour =
      ((h.without e).interface j).behaviour) :
    i = j := by
  obtain ⟨hi, hne⟩ := hs.isOn_without.mp hi
  obtain ⟨hj, -⟩ := hs.isOn_without.mp hj
  rw [hs.interface_without (hi.2 ▸ hne), hs.interface_without (hj.2 ▸ hne)]
    at heq
  exact hs.distinct hi hj heq

theorem Sound.withoutRobot (hs : h.Sound) {id : Text} {e : EndpointId}
    (hid : h.robots.get? id = some e) : (h.withoutRobot id e).Sound where
  robots_sorted := hs.robots_sorted.erase id
  containers_sorted := hs.containers_sorted
  interfaces_sorted := hs.interfaces_sorted.filter _
  endpoints_fresh := hs.endpoints_fresh.erase e
  interfaces_fresh := hs.interfaces_fresh.restrict fun i => i ∉ h.interfacesOn e
  robot := by
    intro id' e' he'
    have hne : id' ≠ id := by
      rintro rfl
      simp [Holdings.withoutRobot, Dict.get?_erase_self] at he'
    have hold : h.robots.get? id' = some e' := by
      simpa [Holdings.withoutRobot, Dict.get?_erase_of_ne hne] using he'
    have hendpoint : e' ≠ e := by
      rintro rfl
      exact hne (hs.robot_unique hold hid)
    exact (hs.robot hold).congr (endpoint_without h hendpoint)
  container := by
    intro tag e' he'
    have hne : e' ≠ e := (hs.robot_ne_container hid he').symm
    exact (hs.isContainer_without (hs.container he') hne).congr rfl
      (fun _ => Iff.rfl) fun _ _ => rfl
  interface := by
    intro tag i hi
    obtain ⟨hold, hne⟩ := hs.get?_interfaces_without.mp hi
    exact (hs.interface hold).congr (hs.interface_without hne)
      (hs.interface hold).home
  distinct := hs.distinct_without

theorem Sound.withoutContainer (hs : h.Sound) {tag : Text} {e : EndpointId}
    (htag : h.containers.get? tag = some e) :
    (h.withoutContainer tag e).Sound where
  robots_sorted := hs.robots_sorted
  containers_sorted := hs.containers_sorted.erase tag
  interfaces_sorted := hs.interfaces_sorted.filter _
  endpoints_fresh := hs.endpoints_fresh.erase e
  interfaces_fresh := hs.interfaces_fresh.restrict fun i => i ∉ h.interfacesOn e
  robot := by
    intro id e' he'
    exact (hs.robot he').congr
      (endpoint_without h (hs.robot_ne_container he' htag))
  container := by
    intro tag' e' he'
    have hne : tag' ≠ tag := by
      rintro rfl
      simp [Holdings.withoutContainer, Dict.get?_erase_self] at he'
    have hold : h.containers.get? tag' = some e' := by
      simpa [Holdings.withoutContainer, Dict.get?_erase_of_ne hne] using he'
    have hendpoint : e' ≠ e := by
      rintro rfl
      exact hne (hs.container_unique hold htag)
    exact (hs.isContainer_without (hs.container hold) hendpoint).congr rfl
      (fun _ => Iff.rfl) fun _ _ => rfl
  interface := by
    intro tag' i hi
    obtain ⟨hold, hne⟩ := hs.get?_interfaces_without.mp hi
    refine (hs.interface hold).congr (hs.interface_without hne) ?_
    obtain ⟨container, hcontainer⟩ := (hs.interface hold).home
    refine ⟨container, ?_⟩
    have hother : container ≠ tag := by
      rintro rfl
      rw [htag] at hcontainer
      exact hne (Option.some.inj hcontainer).symm
    exact (Dict.get?_erase_of_ne hother _).trans hcontainer
  distinct := hs.distinct_without

/-! ## Flags -/

theorem endpoint_modify {e : EndpointId} (he : (h.endpoint e).isDeleted = false)
    (change : Endpoint → Endpoint) (other : EndpointId) :
    ((h.endpointStore.modify e change).get? other).getD .gone =
      if other = e then change (h.endpoint e) else h.endpoint other := by
  by_cases hother : other = e
  · subst hother
    rw [if_pos rfl, Store.get?_modify_self]
    cases hget : h.endpointStore.get? other with
    | some found => simp [endpoint, hget]
    | none => simp [endpoint, hget, Endpoint.gone, Endpoint.isDeleted] at he
  · rw [if_neg hother, Store.get?_modify_of_ne _ hother, endpoint]

theorem Sound.withFlag (hs : h.Sound) {tag : Text} {e : EndpointId}
    (htag : h.containers.get? tag = some e) (connected : Bool) :
    (h.withFlag e connected).Sound where
  robots_sorted := hs.robots_sorted
  containers_sorted := hs.containers_sorted
  interfaces_sorted := hs.interfaces_sorted
  endpoints_fresh := by
    rw [endpointStore_withFlag]
    exact hs.endpoints_fresh.modify e _
  interfaces_fresh := hs.interfaces_fresh
  robot := by
    intro id e' he'
    apply (hs.robot he').congr
    exact (endpoint_modify (hs.container htag).live _ e').trans
      (if_neg (hs.robot_ne_container he' htag))
  container := by
    intro tag' e' he'
    have hendpoint := endpoint_modify (hs.container htag).live
      (fun endpoint => { endpoint with role := .container connected }) e'
    have hold := hs.container he'
    by_cases he : e' = e
    · subst he
      rw [if_pos rfl] at hendpoint
      exact {
        role_eq := ⟨connected, congrArg (·.role) hendpoint⟩
        uid_eq := (congrArg (·.uid) hendpoint).trans hold.uid_eq
        owned := (congrArg (·.owned) hendpoint).trans hold.owned
        live := (congrArg (·.isDeleted) hendpoint).trans hold.live
        registered_nodup :=
          (congrArg (·.registered) hendpoint) ▸ hold.registered_nodup
        addresses_nodup :=
          (congrArg (·.addresses) hendpoint) ▸ hold.addresses_nodup
        mem_registered :=
          fun i => (congrArg (i ∈ ·.registered) hendpoint) ▸
            hold.mem_registered i
        mem_addresses :=
          fun a => (congrArg (a ∈ ·.addresses) hendpoint) ▸
            hold.mem_addresses a }
    · rw [if_neg he] at hendpoint
      exact hold.congr hendpoint (fun _ => Iff.rfl) fun _ _ => rfl
  interface := fun hi => (hs.interface hi).congr rfl (hs.interface hi).home
  distinct := hs.distinct

/-! ## Interfaces -/

theorem mem_insertInOrder {i j : InterfaceId} {ids : List InterfaceId} :
    j ∈ Fleet.insertInOrder i ids ↔ j = i ∨ j ∈ ids := by
  induction ids with
  | nil => simp [Fleet.insertInOrder]
  | cons head rest ih =>
    simp only [Fleet.insertInOrder]
    split
    · simp
    · simp only [List.mem_cons, ih]
      tauto

theorem nodup_insertInOrder {i : InterfaceId} {ids : List InterfaceId}
    (hnot : i ∉ ids)
    (hnodup : ids.Nodup) : (Fleet.insertInOrder i ids).Nodup := by
  induction ids with
  | nil => simp [Fleet.insertInOrder]
  | cons head rest ih =>
    obtain ⟨hhead, hrest⟩ := List.nodup_cons.mp hnodup
    simp only [Fleet.insertInOrder]
    split
    · exact List.nodup_cons.mpr ⟨hnot, hnodup⟩
    · have hne : head ≠ i := by
        rintro rfl
        exact hnot List.mem_cons_self
      refine List.nodup_cons.mpr
        ⟨?_, ih (fun hmem => hnot (List.mem_cons_of_mem _ hmem)) hrest⟩
      rw [mem_insertInOrder]
      exact not_or.mpr ⟨hne, hhead⟩

theorem interface_withInterface (hs : h.Sound) (tag : Text) (e : EndpointId)
    (address : Text) (c : ControlId) (i : InterfaceId) :
    (h.withInterface tag e address c).interface i =
      if i = h.interfaceStore.next then
        ⟨tag, e, some c, false, .address address⟩
      else h.interface i := by
  simp only [interface, withInterface]
  by_cases hi : i = h.interfaceStore.next
  · rw [if_pos hi, hi, Store.get?_insert_next hs.interfaces_fresh]
    rfl
  · rw [if_neg hi, Store.get?_insert_of_ne _ hi]

/-- A new interface is on its container, and the others are where they were. -/
theorem Sound.isOn_withInterface (hs : h.Sound) {tag : Text}
    (hnew : h.interfaces.contains tag = false) (e : EndpointId) (address : Text)
    (c : ControlId) {i : InterfaceId} {other : EndpointId} :
    (h.withInterface tag e address c).IsOn i other ↔
      h.IsOn i other ∨ (i = h.interfaceStore.next ∧ other = e) := by
  have hinterface := interface_withInterface hs tag e address c
  constructor
  · rintro ⟨⟨t, ht⟩, hhome⟩
    rw [hinterface] at hhome
    by_cases htag : t = tag
    · have hi : i = h.interfaceStore.next := by
        simpa [Holdings.withInterface, htag, Dict.get?_insert_self] using
          ht.symm
      rw [if_pos hi] at hhome
      exact Or.inr ⟨hi, hhome.symm⟩
    · have hold : h.interfaces.get? t = some i := by
        simpa [Holdings.withInterface, Dict.get?_insert_of_ne htag] using ht
      rw [if_neg (hs.ne_next_of_not_deleted (hs.interface hold).live)] at hhome
      exact Or.inl ⟨⟨t, hold⟩, hhome⟩
  · rintro (⟨⟨t, ht⟩, hhome⟩ | ⟨hi, hother⟩)
    · have htag : t ≠ tag := by
        rintro rfl
        simp [Dict.contains, ht] at hnew
      refine ⟨⟨t, (Dict.get?_insert_of_ne htag _ _).trans ht⟩, ?_⟩
      rw [hinterface, if_neg (hs.ne_next_of_not_deleted (hs.interface ht).live)]
      exact hhome
    · refine ⟨⟨tag, ?_⟩, ?_⟩
      · rw [hi]
        exact Dict.get?_insert_self _ _ _
      · rw [hinterface, if_pos hi, hother]

theorem Sound.ne_next_of_isOn (hs : h.Sound) {i : InterfaceId} {e : EndpointId}
    (hi : h.IsOn i e) : i ≠ h.interfaceStore.next := by
  obtain ⟨⟨tag, htag⟩, -⟩ := hi
  exact hs.ne_next_of_not_deleted (hs.interface htag).live

theorem Sound.isContainer_withInterface (hs : h.Sound)
    {container tag address : Text}
    {e : EndpointId} (hcontainer : h.containers.get? container = some e)
    (hnew : h.interfaces.contains tag = false)
    (hfree : address ∉ (h.endpoint e).addresses)
    (c : ControlId) :
    (h.withInterface tag e address c).IsContainer container e := by
  have hold := hs.container hcontainer
  have hinterface := interface_withInterface hs tag e address c
  have hon : ∀ i, (h.withInterface tag e address c).IsOn i e ↔
      h.IsOn i e ∨ (i = h.interfaceStore.next ∧ e = e) :=
    fun i => hs.isOn_withInterface hnew e address c
  have hendpoint : (h.withInterface tag e address c).endpoint e =
      { h.endpoint e with
        registered :=
          Fleet.insertInOrder h.interfaceStore.next (h.endpoint e).registered
        addresses := address :: (h.endpoint e).addresses } :=
    (endpoint_modify hold.live _ e).trans (if_pos rfl)
  refine ⟨?_, ?_, ?_, ?_, ?_, ?_, ?_, ?_⟩
  · rw [hendpoint]
    exact hold.role_eq
  · rw [hendpoint]
    exact hold.uid_eq
  · rw [hendpoint]
    exact hold.owned
  · rw [hendpoint]
    exact hold.live
  · rw [hendpoint]
    apply nodup_insertInOrder _ hold.registered_nodup
    intro hmem
    exact hs.ne_next_of_isOn ((hold.mem_registered _).mp hmem) rfl
  · rw [hendpoint]
    exact List.nodup_cons.mpr ⟨hfree, hold.addresses_nodup⟩
  · intro i
    rw [hon, hendpoint, mem_insertInOrder, hold.mem_registered]
    tauto
  · intro a
    rw [hendpoint, List.mem_cons, hold.mem_addresses]
    constructor
    · rintro (rfl | ⟨i, hi, hbehaviour⟩)
      · refine ⟨h.interfaceStore.next, (hon _).mpr (Or.inr ⟨rfl, rfl⟩), ?_⟩
        rw [hinterface, if_pos rfl]
      · refine ⟨i, (hon i).mpr (Or.inl hi), ?_⟩
        rw [hinterface, if_neg (hs.ne_next_of_isOn hi)]
        exact hbehaviour
    · rintro ⟨i, hi, hbehaviour⟩
      rw [hinterface] at hbehaviour
      rcases (hon i).mp hi with hi | ⟨rfl, -⟩
      · rw [if_neg (hs.ne_next_of_isOn hi)] at hbehaviour
        exact Or.inr ⟨i, hi, hbehaviour⟩
      · rw [if_pos rfl] at hbehaviour
        cases hbehaviour
        exact Or.inl rfl

theorem Sound.withInterface (hs : h.Sound) {container tag address : Text}
    {e : EndpointId} (hcontainer : h.containers.get? container = some e)
    (hnew : h.interfaces.contains tag = false)
    (hfree : address ∉ (h.endpoint e).addresses)
    (c : ControlId) : (h.withInterface tag e address c).Sound where
  robots_sorted := hs.robots_sorted
  containers_sorted := hs.containers_sorted
  interfaces_sorted := hs.interfaces_sorted.insert tag _
  endpoints_fresh := by
    rw [endpointStore_withInterface]
    exact hs.endpoints_fresh.modify e _
  interfaces_fresh := hs.interfaces_fresh.insert _
  robot := by
    intro id e' he'
    apply (hs.robot he').congr
    exact (endpoint_modify (hs.container hcontainer).live _ e').trans
      (if_neg (hs.robot_ne_container he' hcontainer))
  container := by
    intro container' e' he'
    by_cases he : e' = e
    · subst he
      obtain rfl := hs.container_unique he' hcontainer
      exact hs.isContainer_withInterface hcontainer hnew hfree c
    · apply (hs.container he').congr
      · exact (endpoint_modify (hs.container hcontainer).live _ e').trans
          (if_neg he)
      · intro i
        rw [hs.isOn_withInterface hnew]
        tauto
      · intro i hi
        rw [interface_withInterface hs, if_neg (hs.ne_next_of_isOn hi)]
  interface := by
    intro tag' i hi
    by_cases htag : tag' = tag
    · have hnext : i = h.interfaceStore.next := by
        simpa [Holdings.withInterface, htag, Dict.get?_insert_self] using
          hi.symm
      have hinterface := interface_withInterface hs tag e address c i
      rw [if_pos hnext] at hinterface
      constructor
      · rw [hinterface, htag]
      · rw [hinterface]
      · rw [hinterface]
        exact ⟨container, hcontainer⟩
      · rw [hinterface]
        exact ⟨address, rfl⟩
    · have hold : h.interfaces.get? tag' = some i := by
        simpa [Holdings.withInterface, Dict.get?_insert_of_ne htag] using hi
      have hne := hs.ne_next_of_not_deleted (hs.interface hold).live
      refine (hs.interface hold).congr ?_ (hs.interface hold).home
      rw [interface_withInterface hs, if_neg hne]
  distinct := by
    have hinterface := interface_withInterface hs tag e address c
    -- An old interface cannot own the new address, which was not reserved.
    have hother : ∀ i, h.IsOn i e →
        (h.interface i).behaviour ≠ .address address := by
      intro i hi hbehaviour
      exact hfree
        (((hs.container hcontainer).mem_addresses address).mpr
          ⟨i, hi, hbehaviour⟩)
    intro e' i j hi hj heq
    rw [hinterface, hinterface] at heq
    rcases (hs.isOn_withInterface hnew e address c).mp hi with
        hold | ⟨hnext, rfl⟩
    · rw [if_neg (hs.ne_next_of_isOn hold)] at heq
      rcases (hs.isOn_withInterface hnew e address c).mp hj with
          hold' | ⟨hnext, rfl⟩
      · rw [if_neg (hs.ne_next_of_isOn hold')] at heq
        exact hs.distinct hold hold' heq
      · rw [if_pos hnext] at heq
        exact absurd heq (hother i hold)
    · rw [if_pos hnext] at heq
      rcases (hs.isOn_withInterface hnew e' address c).mp hj with
          hold' | ⟨hnext', -⟩
      · rw [if_neg (hs.ne_next_of_isOn hold')] at heq
        exact absurd heq.symm (hother j hold')
      · exact hnext.trans hnext'.symm

theorem interface_withoutInterface (h : Holdings) (tag : Text)
    {i j : InterfaceId} (e : EndpointId) (address : Text) (hne : j ≠ i) :
    (h.withoutInterface tag i e address).interface j = h.interface j := by
  rw [interface, withoutInterface, Store.get?_erase_of_ne _ hne, interface]

theorem Sound.isOn_withoutInterface (hs : h.Sound) {tag : Text}
    {i : InterfaceId} (htag : h.interfaces.get? tag = some i) (e : EndpointId)
    (address : Text) {j : InterfaceId} {other : EndpointId} :
    (h.withoutInterface tag i e address).IsOn j other ↔
      h.IsOn j other ∧ j ≠ i := by
  constructor
  · rintro ⟨⟨t, ht⟩, hhome⟩
    have hne : t ≠ tag := by
      rintro rfl
      simp [Holdings.withoutInterface, Dict.get?_erase_self] at ht
    have hold : h.interfaces.get? t = some j := by
      simpa [Holdings.withoutInterface, Dict.get?_erase_of_ne hne] using ht
    have hj : j ≠ i := by
      rintro rfl
      exact hne (hs.interface_unique hold htag)
    rw [interface_withoutInterface h tag e address hj] at hhome
    exact ⟨⟨⟨t, hold⟩, hhome⟩, hj⟩
  · rintro ⟨⟨⟨t, ht⟩, hhome⟩, hj⟩
    have hne : t ≠ tag := by
      rintro rfl
      exact hj (Option.some.inj (ht.symm.trans htag))
    refine ⟨⟨t, (Dict.get?_erase_of_ne hne _).trans ht⟩, ?_⟩
    rw [interface_withoutInterface h tag e address hj]
    exact hhome

theorem Sound.isContainer_withoutInterface (hs : h.Sound)
    {container tag address : Text} {e : EndpointId} {i : InterfaceId}
    (hcontainer : h.containers.get? container = some e)
    (htag : h.interfaces.get? tag = some i)
    (hhome : (h.interface i).endpoint = e)
    (haddress : (h.interface i).behaviour = .address address) :
    (h.withoutInterface tag i e address).IsContainer container e := by
  have hold := hs.container hcontainer
  have hi : h.IsOn i e := ⟨⟨tag, htag⟩, hhome⟩
  have hon : ∀ j, (h.withoutInterface tag i e address).IsOn j e ↔
      h.IsOn j e ∧ j ≠ i :=
    fun j => hs.isOn_withoutInterface htag e address
  have hendpoint : (h.withoutInterface tag i e address).endpoint e =
      { h.endpoint e with
        registered := (h.endpoint e).registered.erase i
        addresses := (h.endpoint e).addresses.erase address } :=
    (endpoint_modify hold.live _ e).trans (if_pos rfl)
  refine ⟨?_, ?_, ?_, ?_, ?_, ?_, ?_, ?_⟩
  · rw [hendpoint]
    exact hold.role_eq
  · rw [hendpoint]
    exact hold.uid_eq
  · rw [hendpoint]
    exact hold.owned
  · rw [hendpoint]
    exact hold.live
  · rw [hendpoint]
    exact hold.registered_nodup.erase i
  · rw [hendpoint]
    exact hold.addresses_nodup.erase address
  · intro j
    rw [hon, hendpoint, hold.registered_nodup.mem_erase_iff,
      hold.mem_registered]
    exact and_comm
  · intro a
    rw [hendpoint, hold.addresses_nodup.mem_erase_iff, hold.mem_addresses]
    constructor
    · rintro ⟨hne, j, hj, hbehaviour⟩
      have hji : j ≠ i := by
        rintro rfl
        rw [haddress] at hbehaviour
        cases hbehaviour
        exact hne rfl
      refine ⟨j, (hon j).mpr ⟨hj, hji⟩, ?_⟩
      rw [interface_withoutInterface h tag e address hji]
      exact hbehaviour
    · rintro ⟨j, hj, hbehaviour⟩
      obtain ⟨hold', hji⟩ := (hon j).mp hj
      rw [interface_withoutInterface h tag e address hji] at hbehaviour
      refine ⟨?_, j, hold', hbehaviour⟩
      rintro rfl
      exact hji (hs.distinct hold' hi (hbehaviour.trans haddress.symm))

theorem Sound.withoutInterface (hs : h.Sound) {container tag address : Text}
    {e : EndpointId}
    {i : InterfaceId} (hcontainer : h.containers.get? container = some e)
    (htag : h.interfaces.get? tag = some i)
    (hhome : (h.interface i).endpoint = e)
    (haddress : (h.interface i).behaviour = .address address) :
    (h.withoutInterface tag i e address).Sound where
  robots_sorted := hs.robots_sorted
  containers_sorted := hs.containers_sorted
  interfaces_sorted := hs.interfaces_sorted.erase tag
  endpoints_fresh := by
    rw [endpointStore_withoutInterface]
    exact hs.endpoints_fresh.modify e _
  interfaces_fresh := hs.interfaces_fresh.erase i
  robot := by
    intro id e' he'
    apply (hs.robot he').congr
    exact (endpoint_modify (hs.container hcontainer).live _ e').trans
      (if_neg (hs.robot_ne_container he' hcontainer))
  container := by
    intro container' e' he'
    by_cases he : e' = e
    · subst he
      obtain rfl := hs.container_unique he' hcontainer
      exact hs.isContainer_withoutInterface hcontainer htag hhome haddress
    · have hstays : ∀ j, h.IsOn j e' → j ≠ i := by
        rintro j hj rfl
        exact he (hj.2.symm.trans hhome)
      apply (hs.container he').congr
      · exact (endpoint_modify (hs.container hcontainer).live _ e').trans
          (if_neg he)
      · intro j
        rw [hs.isOn_withoutInterface htag]
        exact and_iff_left_of_imp (hstays j)
      · intro j hj
        exact interface_withoutInterface h tag e address (hstays j hj)
  interface := by
    intro tag' j hj
    have hne : tag' ≠ tag := by
      rintro rfl
      simp [Holdings.withoutInterface, Dict.get?_erase_self] at hj
    have hold : h.interfaces.get? tag' = some j := by
      simpa [Holdings.withoutInterface, Dict.get?_erase_of_ne hne] using hj
    have hji : j ≠ i := by
      rintro rfl
      exact hne (hs.interface_unique hold htag)
    exact (hs.interface hold).congr
      (interface_withoutInterface h tag e address hji) (hs.interface hold).home
  distinct := by
    intro e' j k hj hk heq
    obtain ⟨hj, hji⟩ := (hs.isOn_withoutInterface htag e address).mp hj
    obtain ⟨hk, hki⟩ := (hs.isOn_withoutInterface htag e address).mp hk
    rw [interface_withoutInterface h tag e address hji,
      interface_withoutInterface h tag e address hki] at heq
    exact hs.distinct hj hk heq

/-! ## Delegates -/

/-- All robots have one delegate, and all containers have one. -/
structure Manned (h : Holdings) (robot container : Option ControlId) :
    Prop where
  robot : ∀ e, (h.endpoint e).role = .robot → (h.endpoint e).control = robot
  container : ∀ e connected, (h.endpoint e).role = .container connected →
    (h.endpoint e).control = container

variable {robot container : Option ControlId}

/-- Endpoints that are as before or have the delegate of their role are
all it takes. -/
theorem Manned.of_endpoint (hm : h.Manned robot container)
    (hendpoint : ∀ e, h'.endpoint e = h.endpoint e ∨
      ((h'.endpoint e).role = .robot → (h'.endpoint e).control = robot) ∧
        ∀ connected, (h'.endpoint e).role = .container connected →
          (h'.endpoint e).control = container) : h'.Manned robot container := by
  constructor
  · intro e hrole
    rcases hendpoint e with heq | ⟨hrobot, -⟩
    · rw [heq] at hrole ⊢
      exact hm.robot e hrole
    · exact hrobot hrole
  · intro e connected hrole
    rcases hendpoint e with heq | ⟨-, hcontainer⟩
    · rw [heq] at hrole ⊢
      exact hm.container e connected hrole
    · exact hcontainer connected hrole

theorem Manned.insert (hm : h.Manned robot container)
    (hfresh : h.endpointStore.Fresh)
    {new : Endpoint} (hstore : h'.endpointStore = h.endpointStore.insert new)
    (hrobot : new.role = .robot → new.control = robot)
    (hcontainer : ∀ connected, new.role = .container connected →
      new.control = container) :
    h'.Manned robot container := by
  apply hm.of_endpoint
  intro e
  have hendpoint : h'.endpoint e = if e = h.endpointStore.next then new
    else h.endpoint e := by
    rw [← endpoint_insert hfresh new e, ← hstore, endpoint]
  rw [hendpoint]
  split
  · exact Or.inr ⟨hrobot, hcontainer⟩
  · exact Or.inl rfl

theorem Manned.erase (hm : h.Manned robot container) {e : EndpointId}
    (hstore : h'.endpointStore = h.endpointStore.erase e) :
    h'.Manned robot container := by
  apply hm.of_endpoint
  intro other
  by_cases hother : other = e
  · have hgone : h'.endpoint other = .gone := by
      rw [endpoint, hstore, hother, Store.get?_erase_self]
      rfl
    rw [hgone]
    exact Or.inr ⟨nofun, nofun⟩
  · left
    rw [endpoint, hstore, Store.get?_erase_of_ne _ hother, endpoint]

/-- A change of a live container that leaves its delegate changes nothing about
the delegates. -/
theorem Manned.modify (hm : h.Manned robot container) {e : EndpointId}
    {connected : Bool} (hrole : (h.endpoint e).role = .container connected)
    (hlive : (h.endpoint e).isDeleted = false) {change : Endpoint → Endpoint}
    (hstore : h'.endpointStore = h.endpointStore.modify e change)
    (hcontrol : (change (h.endpoint e)).control = (h.endpoint e).control)
    (hchange : (change (h.endpoint e)).role ≠ .robot) :
    h'.Manned robot container := by
  apply hm.of_endpoint
  intro other
  have hendpoint : h'.endpoint other =
      if other = e then change (h.endpoint e) else h.endpoint other := by
    rw [← endpoint_modify hlive change other, ← hstore, endpoint]
  rw [hendpoint]
  split
  · right
    refine ⟨fun hrobot => absurd hrobot hchange, ?_⟩
    intro connected' _
    rw [hcontrol]
    exact hm.container e connected hrole
  · exact Or.inl rfl

end Holdings
end FleetControl

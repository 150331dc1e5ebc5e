import FleetControl.Proofs.Registry
import FleetControl.Proofs.Session.Sound

/-!
# The registry of a session

What a session holds, as a registry: endpoints and reservations are
forgotten.  Each change of sound holdings is a change of one or two of the
registry's tables.
-/

namespace FleetControl
namespace Holdings

/-- The container is connected. -/
def flag (h : Holdings) (e : EndpointId) : Bool :=
  (h.endpoint e).connected? = some true

/-- The container and the address of an interface. -/
def place (h : Holdings) (i : InterfaceId) : Text × Text :=
  ((h.endpoint (h.interface i).endpoint).uid,
    ((h.interface i).behaviour.address?).getD [])

/-- What is held, as a registry. -/
def registry (h : Holdings) : Registry where
  robots := (h.robots.map (·.1)).toFinset
  containers := h.containers.mapValues h.flag
  interfaces := h.interfaces.mapValues h.place

variable {h h' : Holdings}

/-! ## Looking things up -/

theorem mem_robots_registry {id : Text} :
    id ∈ h.registry.robots ↔ h.robots.contains id = true := by
  simp only [registry, List.mem_toFinset]
  exact Dict.mem_keys_iff

theorem Sound.card_robots_registry (hs : h.Sound) :
    h.registry.robots.card = h.robots.length := by
  rw [registry, List.toFinset_card_of_nodup hs.robots_sorted.nodup_keys,
    List.length_map]

@[simp]
theorem contains_containers_registry (tag : Text) :
    h.registry.containers.contains tag = h.containers.contains tag :=
  Dict.contains_mapValues _ _ _

@[simp]
theorem length_containers_registry :
    h.registry.containers.length = h.containers.length :=
  Dict.length_mapValues _ _

@[simp]
theorem contains_interfaces_registry (tag : Text) :
    h.registry.interfaces.contains tag = h.interfaces.contains tag :=
  Dict.contains_mapValues _ _ _

theorem get?_containers_registry {tag : Text} {e : EndpointId}
    (hget : h.containers.get? tag = some e) :
    h.registry.containers.get? tag = some (h.flag e) := by
  simp [registry, hget]

/-- The place of an interface is its container and its address. -/
theorem Sound.get?_interfaces_registry (hs : h.Sound)
    {tag container address : Text} :
    h.registry.interfaces.get? tag = some (container, address) ↔
      ∃ i e, h.interfaces.get? tag = some i ∧
      h.containers.get? container = some e ∧
        (h.interface i).endpoint = e ∧
        (h.interface i).behaviour = .address address := by
  simp only [registry, Dict.get?_mapValues, Option.map_eq_some_iff]
  constructor
  · rintro ⟨i, hget, hplace⟩
    have hi := hs.interface hget
    obtain ⟨home, hhome⟩ := hi.home
    obtain ⟨found, hfound⟩ := hi.address
    have huid := (hs.container hhome).uid_eq
    simp only [place, huid, hfound, Behaviour.address?, Option.getD_some,
      Prod.mk.injEq] at hplace
    obtain ⟨rfl, rfl⟩ := hplace
    exact ⟨i, _, hget, hhome, rfl, hfound⟩
  · rintro ⟨i, e, hget, hcontainer, hhome, haddress⟩
    refine ⟨i, hget, ?_⟩
    simp [place, hhome, haddress, Behaviour.address?,
      (hs.container hcontainer).uid_eq]

theorem Sound.mem_addresses_iff (hs : h.Sound) {container : Text}
    {e : EndpointId}
    (hcontainer : h.containers.get? container = some e) (address : Text) :
    address ∈ (h.endpoint e).addresses ↔
      ∃ tag, h.registry.interfaces.get? tag = some (container, address) := by
  rw [(hs.container hcontainer).mem_addresses]
  constructor
  · rintro ⟨i, ⟨⟨tag, hi⟩, hhome⟩, haddress⟩
    exact ⟨tag, hs.get?_interfaces_registry.mpr
      ⟨i, e, hi, hcontainer, hhome, haddress⟩⟩
  · rintro ⟨tag, hget⟩
    obtain ⟨i, e', hi, he', hhome, haddress⟩ :=
      hs.get?_interfaces_registry.mp hget
    have heq : e' = e := Option.some.inj (he'.symm.trans hcontainer)
    exact ⟨i, ⟨⟨tag, hi⟩, hhome.trans heq⟩, haddress⟩

/-- An address is taken in the registry exactly if it is reserved. -/
theorem Sound.isTaken_registry (hs : h.Sound) {container : Text}
    {e : EndpointId}
    (hcontainer : h.containers.get? container = some e) (address : Text) :
    h.registry.isTaken container address = true ↔
      address ∈ (h.endpoint e).addresses := by
  have hsorted : h.registry.interfaces.Sorted :=
    hs.interfaces_sorted.mapValues _
  rw [hs.mem_addresses_iff hcontainer]
  simp only [Registry.isTaken, List.any_eq_true, decide_eq_true_eq]
  constructor
  · rintro ⟨⟨tag, place⟩, hmem, rfl⟩
    exact ⟨tag, hsorted.get?_of_mem hmem⟩
  · rintro ⟨tag, hget⟩
    exact ⟨_, Dict.mem_of_get? hget, rfl⟩

/-! ## What stays -/

theorem flag_congr {e : EndpointId}
    (hrole : (h'.endpoint e).role = (h.endpoint e).role) :
    h'.flag e = h.flag e := by
  unfold flag Endpoint.connected?
  rw [hrole]

/-- The containers of the registry stay when those of the session keep
their roles. -/
theorem Sound.containers_registry_congr (hs : h.Sound)
    (hcontainers : h'.containers = h.containers)
    (hrole : ∀ {tag e}, h.containers.get? tag = some e →
      (h'.endpoint e).role = (h.endpoint e).role) :
    h'.registry.containers = h.registry.containers := by
  simp only [registry, hcontainers]
  apply Dict.mapValues_congr
  intro entry hentry
  exact flag_congr (hrole (hs.containers_sorted.get?_of_mem hentry))

theorem place_congr {i : InterfaceId} (hi : h'.interface i = h.interface i)
    (huid : (h'.endpoint (h.interface i).endpoint).uid =
      (h.endpoint (h.interface i).endpoint).uid) : h'.place i = h.place i := by
  simp only [place, hi, huid]

/-- The interfaces of the registry stay when those of the session do and the
containers keep their names. -/
theorem Sound.interfaces_registry_congr (hs : h.Sound)
    (hinterfaces : h'.interfaces = h.interfaces)
    (hi : ∀ {tag i}, h.interfaces.get? tag = some i →
      h'.interface i = h.interface i)
    (huid : ∀ {tag e}, h.containers.get? tag = some e →
      (h'.endpoint e).uid = (h.endpoint e).uid) :
    h'.registry.interfaces = h.registry.interfaces := by
  simp only [registry, hinterfaces]
  apply Dict.mapValues_congr
  intro entry hentry
  have hget := hs.interfaces_sorted.get?_of_mem hentry
  obtain ⟨container, hcontainer⟩ := (hs.interface hget).home
  exact place_congr (hi hget) (huid hcontainer)

/-! ## Robots -/

theorem Sound.registry_withRobot (hs : h.Sound) (id : Text) (new : Endpoint) :
    (h.withRobot id new).registry =
      { h.registry with robots := insert id h.registry.robots } := by
  have hendpoint : ∀ {tag e}, h.containers.get? tag = some e →
      (h.withRobot id new).endpoint e = h.endpoint e := by
    intro tag e hget
    exact hs.endpoint_insert_of_live new (hs.container hget).live
  ext1
  · ext other
    rw [Finset.mem_insert, mem_robots_registry, mem_robots_registry]
    exact Dict.contains_insert_eq_true_iff
  · apply hs.containers_registry_congr
    · rfl
    · intro tag e hget
      rw [hendpoint hget]
  · apply hs.interfaces_registry_congr
    · rfl
    · intro tag i _
      rfl
    · intro tag e hget
      rw [hendpoint hget]

theorem Sound.registry_withoutRobot (hs : h.Sound) {id : Text} {e : EndpointId}
    (hget : h.robots.get? id = some e) :
    (h.withoutRobot id e).registry =
      { h.registry with robots := h.registry.robots.erase id } := by
  have hendpoint : ∀ {tag e'}, h.containers.get? tag = some e' →
      (h.withoutRobot id e).endpoint e' = h.endpoint e' := by
    intro tag e' hcontainer
    exact endpoint_without h (hs.robot_ne_container hget hcontainer).symm
  have hhome : ∀ {tag i}, h.interfaces.get? tag = some i →
      (h.interface i).endpoint ≠ e := by
    intro tag i htag heq
    obtain ⟨container, hcontainer⟩ := (hs.interface htag).home
    exact hs.robot_ne_container hget hcontainer heq.symm
  ext1
  · ext other
    rw [Finset.mem_erase, mem_robots_registry, mem_robots_registry]
    exact Dict.contains_erase_eq_true_iff
  · apply hs.containers_registry_congr
    · rfl
    · intro tag e' hcontainer
      rw [hendpoint hcontainer]
  · apply hs.interfaces_registry_congr
    · apply List.filter_eq_self.mpr
      intro entry hentry
      simpa using hhome (hs.interfaces_sorted.get?_of_mem hentry)
    · intro tag i htag
      exact hs.interface_without (hhome htag)
    · intro tag e' hcontainer
      rw [hendpoint hcontainer]

/-! ## Containers -/

theorem Sound.registry_withContainer (hs : h.Sound) (tag commId : Text)
    (control : Option ControlId) :
    (h.withContainer tag
      ⟨.container false, tag, commId, control, true, [], []⟩).registry =
      { h.registry with
        containers := h.registry.containers.insert tag false } := by
  let new : Endpoint := ⟨.container false, tag, commId, control, true, [], []⟩
  have hendpoint : ∀ {tag' e}, h.containers.get? tag' = some e →
      (h.withContainer tag new).endpoint e = h.endpoint e := by
    intro tag' e hget
    exact hs.endpoint_insert_of_live new (hs.container hget).live
  have hnew : (h.withContainer tag new).endpoint h.endpointStore.next = new :=
    (endpoint_insert hs.endpoints_fresh new _).trans (if_pos rfl)
  ext1
  · rfl
  · have hold : h.containers.mapValues (h.withContainer tag new).flag =
        h.containers.mapValues h.flag := by
      apply Dict.mapValues_congr
      intro entry hentry
      rw [flag, hendpoint (hs.containers_sorted.get?_of_mem hentry), flag]
    have hflag :
        (h.withContainer tag new).flag h.endpointStore.next = false := by
      simp [flag, hnew, new, Endpoint.connected?]
    calc
      _ = (h.containers.insert tag h.endpointStore.next).mapValues
          (h.withContainer tag new).flag := rfl
      _ = (h.containers.mapValues h.flag).insert tag false := by
        rw [Dict.mapValues_insert, hflag, hold]
  · apply hs.interfaces_registry_congr
    · rfl
    · intro tag' i _
      rfl
    · intro tag' e hget
      exact congrArg Endpoint.uid (hendpoint hget)

theorem Sound.registry_withoutContainer (hs : h.Sound) {tag : Text}
    {e : EndpointId} (hget : h.containers.get? tag = some e) :
    (h.withoutContainer tag e).registry =
      { h.registry with
        containers := h.registry.containers.erase tag
        interfaces :=
          h.registry.interfaces.filter fun entry => entry.2.1 ≠ tag } := by
  have hne : ∀ {tag' e'}, h.containers.get? tag' = some e' →
      (e' ≠ e ↔ tag' ≠ tag) := by
    intro tag' e' hget'
    apply not_congr
    constructor
    · rintro rfl
      exact hs.container_unique hget' hget
    · rintro rfl
      exact Option.some.inj (hget'.symm.trans hget)
  ext1
  · rfl
  · calc
      _ = (h.containers.erase tag).mapValues (h.withoutContainer tag e).flag :=
        rfl
      _ = (h.containers.erase tag).mapValues h.flag := by
        apply Dict.mapValues_congr
        intro entry hentry
        obtain ⟨hmem, hkey⟩ := List.mem_filter.mp hentry
        have hentry' := hs.containers_sorted.get?_of_mem hmem
        have hother : entry.2 ≠ e := (hne hentry').mpr (by simpa using hkey)
        have hendpoint : (h.withoutContainer tag e).endpoint entry.2 =
            h.endpoint entry.2 :=
          endpoint_without h hother
        rw [flag, hendpoint, flag]
      _ = h.registry.containers.erase tag := Dict.mapValues_erase _ _ _
  · calc
      _ = Dict.mapValues (h.withoutContainer tag e).place
          (h.interfaces.filter fun entry =>
            (h.interface entry.2).endpoint ≠ e) := rfl
      _ = Dict.mapValues h.place
          (h.interfaces.filter fun entry =>
            (h.interface entry.2).endpoint ≠ e) := by
        apply Dict.mapValues_congr
        intro entry hentry
        obtain ⟨hmem, hhome⟩ := List.mem_filter.mp hentry
        have hother : (h.interface entry.2).endpoint ≠ e :=
          of_decide_eq_true hhome
        refine place_congr (hs.interface_without hother) ?_
        exact congrArg Endpoint.uid (endpoint_without h hother)
      _ = Dict.mapValues h.place
          (h.interfaces.filter fun entry => (h.place entry.2).1 ≠ tag) := by
        congr 1
        apply List.filter_congr
        intro entry hentry
        have hentry' := hs.interfaces_sorted.get?_of_mem hentry
        obtain ⟨container, hcontainer⟩ := (hs.interface hentry').home
        have huid := (hs.container hcontainer).uid_eq
        simp only [place, huid, hne hcontainer]
      _ = h.registry.interfaces.filter fun entry => entry.2.1 ≠ tag :=
        Dict.mapValues_filter h.place
          (fun entry => entry.2.1 ≠ tag) h.interfaces

theorem Sound.registry_withFlag (hs : h.Sound) {tag : Text} {e : EndpointId}
    (hget : h.containers.get? tag = some e) (connected : Bool) :
    (h.withFlag e connected).registry =
      { h.registry with
        containers := h.registry.containers.insert tag connected } := by
  have hendpoint : ∀ other, (h.withFlag e connected).endpoint other =
      if other = e then { h.endpoint e with role := .container connected }
      else h.endpoint other :=
    endpoint_modify (hs.container hget).live _
  have hsorted : h.registry.containers.Sorted :=
    hs.containers_sorted.mapValues _
  ext1
  · rfl
  · apply Dict.Sorted.ext (hs.containers_sorted.mapValues _)
      (hsorted.insert tag connected)
    intro key
    by_cases hkey : key = tag
    · have hflag : (h.withFlag e connected).flag e = connected := by
        simp [flag, hendpoint, Endpoint.connected?]
      rw [hkey, Dict.get?_insert_self, Dict.get?_mapValues]
      rw [hget, Option.map_some, hflag]
    · rw [Dict.get?_insert_of_ne hkey, Dict.get?_mapValues]
      have hkeep : (h.containers.get? key).map (h.withFlag e connected).flag =
          (h.containers.get? key).map h.flag := by
        cases hother : h.containers.get? key with
        | none => rfl
        | some other =>
          have hne : other ≠ e := by
            rintro rfl
            exact hkey (hs.container_unique hother hget)
          have hflag : (h.withFlag e connected).flag other = h.flag other := by
            apply flag_congr
            rw [hendpoint, if_neg hne]
          rw [Option.map_some, Option.map_some, hflag]
      exact hkeep.trans (Dict.get?_mapValues _ _ _).symm
  · apply hs.interfaces_registry_congr
    · rfl
    · intro tag' i _
      rfl
    · intro tag' e' _
      rw [hendpoint]
      split
      · next heq => rw [heq]
      · rfl

/-! ## Interfaces -/

/-- A change that leaves the role and the name of a live endpoint leaves
those of all. -/
theorem role_uid_of_modify {e : EndpointId}
    (he : (h.endpoint e).isDeleted = false) {change : Endpoint → Endpoint}
    (hstore : h'.endpointStore = h.endpointStore.modify e change)
    (hchange : ∀ endpoint, (change endpoint).role = endpoint.role ∧
      (change endpoint).uid = endpoint.uid) (other : EndpointId) :
    (h'.endpoint other).role = (h.endpoint other).role ∧
      (h'.endpoint other).uid = (h.endpoint other).uid := by
  have hendpoint : h'.endpoint other =
      if other = e then change (h.endpoint e) else h.endpoint other := by
    rw [← endpoint_modify he change other, ← hstore, endpoint]
  rw [hendpoint]
  split
  · next hother =>
    rw [hother]
    exact hchange _
  · exact ⟨rfl, rfl⟩

theorem Sound.registry_withInterface (hs : h.Sound) {container : Text}
    {e : EndpointId} (hget : h.containers.get? container = some e)
    (tag address : Text) (c : ControlId) :
    (h.withInterface tag e address c).registry =
      { h.registry with
        interfaces :=
          h.registry.interfaces.insert tag (container, address) } := by
  have hendpoint : ∀ other,
      ((h.withInterface tag e address c).endpoint other).role =
        (h.endpoint other).role ∧
        ((h.withInterface tag e address c).endpoint other).uid =
          (h.endpoint other).uid := by
    apply role_uid_of_modify (hs.container hget).live
      (endpointStore_withInterface h tag e address c)
    intro endpoint
    exact ⟨rfl, rfl⟩
  have hinterface := interface_withInterface hs tag e address c
  ext1
  · rfl
  · apply hs.containers_registry_congr
    · rfl
    · intro tag' e' _
      exact (hendpoint e').1
  · have hnew : (h.withInterface tag e address c).place h.interfaceStore.next =
        (container, address) := by
      simp [place, hinterface, hendpoint, Behaviour.address?,
        (hs.container hget).uid_eq]
    have hold : h.interfaces.mapValues (h.withInterface tag e address c).place =
        h.interfaces.mapValues h.place := by
      apply Dict.mapValues_congr
      intro entry hentry
      have hi := hs.interface (hs.interfaces_sorted.get?_of_mem hentry)
      apply place_congr
      · rw [hinterface, if_neg (hs.ne_next_of_not_deleted hi.live)]
      · exact (hendpoint _).2
    calc
      _ = (h.interfaces.insert tag h.interfaceStore.next).mapValues
          (h.withInterface tag e address c).place := rfl
      _ = (h.interfaces.mapValues h.place).insert tag (container, address) := by
        rw [Dict.mapValues_insert, hnew, hold]

theorem Sound.registry_withoutInterface (hs : h.Sound) {container tag : Text}
    {e : EndpointId}
    {i : InterfaceId} (hcontainer : h.containers.get? container = some e)
    (hget : h.interfaces.get? tag = some i) (address : Text) :
    (h.withoutInterface tag i e address).registry =
      { h.registry with interfaces := h.registry.interfaces.erase tag } := by
  have hendpoint : ∀ other,
      ((h.withoutInterface tag i e address).endpoint other).role =
        (h.endpoint other).role ∧
        ((h.withoutInterface tag i e address).endpoint other).uid =
          (h.endpoint other).uid := by
    apply role_uid_of_modify (hs.container hcontainer).live
      (endpointStore_withoutInterface h tag i e address)
    intro endpoint
    exact ⟨rfl, rfl⟩
  ext1
  · rfl
  · apply hs.containers_registry_congr
    · rfl
    · intro tag' e' _
      exact (hendpoint e').1
  · calc
      _ = (h.interfaces.erase tag).mapValues
        (h.withoutInterface tag i e address).place := rfl
      _ = (h.interfaces.erase tag).mapValues h.place := by
        apply Dict.mapValues_congr
        intro entry hentry
        obtain ⟨hmem, hkey⟩ := List.mem_filter.mp hentry
        have hentry' := hs.interfaces_sorted.get?_of_mem hmem
        have hne : entry.2 ≠ i := by
          intro heq
          have htag : entry.1 = tag := hs.interface_unique hentry' (heq ▸ hget)
          simp [htag] at hkey
        apply place_congr
        · exact interface_withoutInterface h tag e address hne
        · exact (hendpoint _).2
      _ = h.registry.interfaces.erase tag := Dict.mapValues_erase _ _ _

end Holdings
end FleetControl

import FleetControl.Proofs.Request.Handle

/-!
# The invariant of a session

A new session is sound whoever stands outside it, and requests keep it so.
Spelled out for every state that requests lead to: the limits hold, every name
stands for a live thing of that name, and the registrations and reservations of
a container are those of the session's interfaces on it.
-/

namespace FleetControl

/-- All that a new session is given: the name and the limits of its user, the
delegates and which of them it may ask, the listener, and the random bytes. -/
structure Outside where
  userId : Text
  robotControl : Option ControlId
  containerControl : Option ControlId
  limits : Limits
  entropy : Entropy
  controls : Store Control
  listener : Listener

namespace Outside

/-- The new session. -/
def newSession (outside : Outside) : Session :=
  Session.new outside.userId outside.robotControl outside.containerControl
    outside.limits outside.entropy
    { Fleet.empty outside.listener with controls := outside.controls }

/-- The session after some requests. -/
def sessionAfter (outside : Outside) (requests : List Json) : Session :=
  (Session.handleEach requests outside.newSession).2

end Outside

namespace Session

/-- A new session is sound. -/
theorem sound_newSession (outside : Outside) : outside.newSession.Sound where
  active := rfl
  holdings :=
    { robots_sorted := Dict.sorted_nil
      containers_sorted := Dict.sorted_nil
      interfaces_sorted := Dict.sorted_nil
      endpoints_fresh := Store.fresh_empty
      interfaces_fresh := Store.fresh_empty
      robot := nofun
      container := nofun
      interface := nofun
      distinct := by
        rintro e i j ⟨⟨tag, htag⟩, -⟩
        cases htag }
  manned :=
    { robot := nofun
      container := nofun }
  robots_le := Nat.zero_le _
  containers_le := Nat.zero_le _

/-- Requests lead to sound sessions only. -/
theorem sound_sessionAfter (outside : Outside) (requests : List Json) :
    (outside.sessionAfter requests).Sound :=
  (sound_newSession outside).handleEach requests

/-- In every state that requests lead to, whatever fails on the way: the limits
hold; robots, containers and interfaces are live and have the names under which
they are kept; interfaces belong to containers of the session; and a container
has registered exactly the session's interfaces on it and reserved exactly their
addresses, which differ. -/
theorem invariant_of_requests (outside : Outside) (requests : List Json) :
    let s := outside.sessionAfter requests
    (s.robots.length ≤ outside.limits.robots ∧
      s.containers.length ≤ outside.limits.containers) ∧
    (∀ id e, s.robots.get? id = some e →
      (s.fleet.endpoint e).role = .robot ∧ (s.fleet.endpoint e).uid = id ∧
        (s.fleet.endpoint e).owned = true ∧
        (s.fleet.endpoint e).isDeleted = false) ∧
    (∀ tag e, s.containers.get? tag = some e →
      (∃ connected, (s.fleet.endpoint e).role = .container connected) ∧
        (s.fleet.endpoint e).uid = tag ∧ (s.fleet.endpoint e).owned = true ∧
        (s.fleet.endpoint e).isDeleted = false) ∧
    (∀ tag i, s.interfaces.get? tag = some i →
      (s.fleet.interface i).tag = tag ∧ (s.fleet.interface i).deleted = false ∧
        ∃ container, s.containers.get? container =
          some (s.fleet.interface i).endpoint) ∧
    ∀ container e, s.containers.get? container = some e →
      let on (i : InterfaceId) : Prop :=
        (∃ tag, s.interfaces.get? tag = some i) ∧
          (s.fleet.interface i).endpoint = e
      let owns (i : InterfaceId) (address : Text) : Prop :=
        (s.fleet.interface i).behaviour.address? = some address
      ((s.fleet.endpoint e).registered.Nodup ∧
        ∀ i, i ∈ (s.fleet.endpoint e).registered ↔ on i) ∧
      ((s.fleet.endpoint e).addresses.Nodup ∧
        ∀ address, address ∈ (s.fleet.endpoint e).addresses ↔
          ∃ i, on i ∧ owns i address) ∧
      ∀ i j address, on i → on j → owns i address → owns j address → i = j := by
  intro s
  have hs : s.Sound := sound_sessionAfter outside requests
  obtain ⟨commands, hcontinues, -⟩ :=
    (sound_newSession outside).handleEach_continues requests
  have hlimits : s.limits = outside.limits := hcontinues.limits_eq
  have howns : ∀ i address,
      (s.fleet.interface i).behaviour.address? = some address →
      (s.fleet.interface i).behaviour = .address address := by
    intro i address haddress
    cases hbehaviour : (s.fleet.interface i).behaviour with
    | address found => simpa [hbehaviour, Behaviour.address?] using haddress
    | _ => simp [hbehaviour, Behaviour.address?] at haddress
  refine ⟨⟨hlimits ▸ hs.robots_le, hlimits ▸ hs.containers_le⟩, ?_, ?_, ?_, ?_⟩
  · intro id e hget
    have he := hs.holdings.robot hget
    exact ⟨he.role_eq, he.uid_eq, he.owned, he.live⟩
  · intro tag e hget
    have he := hs.holdings.container hget
    exact ⟨he.role_eq, he.uid_eq, he.owned, he.live⟩
  · intro tag i hget
    have hi := hs.holdings.interface hget
    exact ⟨hi.tag_eq, hi.live, hi.home⟩
  · intro container e hget on owns
    have he := hs.holdings.container hget
    refine ⟨⟨he.registered_nodup, he.mem_registered⟩, ⟨he.addresses_nodup, ?_⟩,
      ?_⟩
    · intro address
      refine (he.mem_addresses address).trans ?_
      constructor
      · rintro ⟨i, hi, haddress⟩
        refine ⟨i, hi, ?_⟩
        have hbehaviour : (s.fleet.interface i).behaviour = .address address :=
          haddress
        simp [owns, hbehaviour, Behaviour.address?]
      · rintro ⟨i, hi, haddress⟩
        exact ⟨i, hi, howns i address haddress⟩
    · intro i j address hi hj hiaddress hjaddress
      apply hs.holdings.distinct hi hj
      have hieq := howns i address hiaddress
      have hjeq := howns j address hjaddress
      exact hieq.trans hjeq.symm

end Session
end FleetControl

import FleetControl.Proofs.Session.Refinement

/-!
# Independent requests

Two requests about different containers, and about different tags of interfaces,
can be handled in either order.  What is asked about one container reads and
changes that container and one tag of an interface alone: `Holdings.Spares` says
what it leaves, and `Holdings.Agree` what it depends on.  Interfaces are
compared through their tags, because their numbers tell which one came first.

The same address may be taken on two containers.  Reservations are the
endpoint's own, and neither of two such requests sees the other one.
-/

namespace FleetControl

/-- The endpoint, apart from the numbers of its registered interfaces. -/
def Endpoint.shell (endpoint : Endpoint) : Endpoint :=
  { endpoint with registered := [] }

theorem Endpoint.eq_of_shell_eq {x y : Endpoint} (h : x.shell = y.shell) :
    x.connected? = y.connected? ∧ x.uid = y.uid ∧
      x.addresses = y.addresses := by
  have hflag := congrArg Endpoint.connected? h
  have huid := congrArg Endpoint.uid h
  have haddresses := congrArg Endpoint.addresses h
  exact ⟨hflag, huid, haddresses⟩

namespace Holdings

variable {h h' : Holdings} {control : Option ControlId} {ask : Ask}
    {e : EndpointId} {tag : Text}

/-- Only what an ask is about may be different in the second holdings. -/
structure Spares (h h' : Holdings) (ask : Ask) : Prop where
  robots_eq : h'.robots = h.robots
  containers_eq : h'.containers = h.containers
  endpoint_eq : ∀ {e}, h.place? ask ≠ some e → h'.endpoint e = h.endpoint e
  interface_eq : ∀ {tag}, ask.interfaceTag? ≠ some tag →
    h'.interfaceUnder tag = h.interfaceUnder tag

/-- What an ask is about is the same in both holdings. -/
structure Agree (h h' : Holdings) (ask : Ask) : Prop where
  containers_eq : h'.containers = h.containers
  shell_eq : ∀ {e}, h.place? ask = some e →
    (h'.endpoint e).shell = (h.endpoint e).shell
  interface_eq : ∀ {tag}, ask.interfaceTag? = some tag →
    h'.interfaceUnder tag = h.interfaceUnder tag

/-- What an ask is about in the given holdings is the same in two others. -/
structure Alike (h : Holdings) (ask : Ask) (k k' : Holdings) : Prop where
  shell_eq : ∀ {e}, h.place? ask = some e →
    (k'.endpoint e).shell = (k.endpoint e).shell
  interface_eq : ∀ {tag}, ask.interfaceTag? = some tag →
    k'.interfaceUnder tag = k.interfaceUnder tag

theorem Agree.alike (hagree : Agree h h' ask) : Alike h ask h h' :=
  ⟨hagree.shell_eq, hagree.interface_eq⟩

theorem Spares.refl (h : Holdings) (ask : Ask) : Spares h h ask :=
  ⟨rfl, rfl, fun _ => rfl, fun _ => rfl⟩

theorem contains_interfaces_eq :
    h.interfaces.contains tag = (h.interfaceUnder tag).isSome := by
  rw [interfaceUnder, Option.isSome_map, Dict.contains]

/-! ## What is left alone -/

theorem Sound.isDeleted_container (hs : h.Sound)
    (hget : h.containers.get? tag = some e) :
    (h.endpoint e).isDeleted = false :=
  (hs.container hget).live

theorem Sound.isDeleted_home (hs : h.Sound) {i : InterfaceId}
    (hget : h.interfaces.get? tag = some i) :
    (h.endpoint (h.interface i).endpoint).isDeleted = false := by
  obtain ⟨container, hcontainer⟩ := (hs.interface hget).home
  exact (hs.container hcontainer).live

theorem Sound.interfaceUnder_withInterface (hs : h.Sound) (tag' : Text)
    (e : EndpointId) (address : Text) (c : ControlId) :
    (h.withInterface tag e address c).interfaceUnder tag' =
      if tag' = tag then some ⟨tag, e, some c, false, .address address⟩
      else h.interfaceUnder tag' := by
  have htable : (h.withInterface tag e address c).interfaces =
      h.interfaces.insert tag h.interfaceStore.next := rfl
  by_cases htag : tag' = tag
  · rw [if_pos htag, interfaceUnder, htable, htag, Dict.get?_insert_self,
      Option.map_some, interface_withInterface hs, if_pos rfl]
  · rw [if_neg htag, interfaceUnder, htable, Dict.get?_insert_of_ne htag,
      interfaceUnder]
    cases hget : h.interfaces.get? tag' with
    | none => rfl
    | some i =>
      have hold : i ≠ h.interfaceStore.next :=
        hs.ne_next_of_not_deleted (hs.interface hget).live
      rw [Option.map_some, Option.map_some, interface_withInterface hs,
        if_neg hold]

theorem Sound.interfaceUnder_withoutInterface (hs : h.Sound) {i : InterfaceId}
    (hget : h.interfaces.get? tag = some i) (tag' : Text) (e : EndpointId)
    (address : Text) :
    (h.withoutInterface tag i e address).interfaceUnder tag' =
      if tag' = tag then none else h.interfaceUnder tag' := by
  have htable : (h.withoutInterface tag i e address).interfaces =
      h.interfaces.erase tag := rfl
  by_cases htag : tag' = tag
  · rw [if_pos htag, interfaceUnder, htable, htag, Dict.get?_erase_self,
      Option.map_none]
  · rw [if_neg htag, interfaceUnder, htable, Dict.get?_erase_of_ne htag,
      interfaceUnder]
    cases hget' : h.interfaces.get? tag' with
    | none => rfl
    | some j =>
      have hother : j ≠ i := by
        rintro rfl
        exact htag (hs.interface_unique hget' hget)
      rw [Option.map_some, Option.map_some,
        interface_withoutInterface h tag e address hother]

/-- What is asked about one container leaves the others, and the interfaces
under other tags. -/
theorem Sound.spares_carried (hs : h.Sound) (control : Option ControlId)
    (ask : Ask) :
    Spares h (h.carried control ask) ask := by
  cases ask with
  | setConnected tag connected =>
    cases hget : h.containers.get? tag with
    | none =>
      simp only [carried, hget]
      exact .refl h _
    | some e =>
      simp only [carried, hget]
      refine ⟨rfl, rfl, ?_, fun _ => rfl⟩
      intro other hother
      have hne : other ≠ e := by
        rintro rfl
        exact hother hget
      exact (endpoint_modify (hs.isDeleted_container hget) _ other).trans
        (if_neg hne)
  | addInterface container tag address =>
    cases hget : h.containers.get? container with
    | none =>
      simp only [carried, hget]
      exact .refl h _
    | some e =>
      cases control with
      | none =>
        simp only [carried, hget]
        exact .refl h _
      | some c =>
        simp only [carried, hget]
        refine ⟨rfl, rfl, ?_, ?_⟩
        · intro other hother
          have hne : other ≠ e := by
            rintro rfl
            exact hother hget
          exact (endpoint_modify (hs.isDeleted_container hget) _ other).trans
            (if_neg hne)
        · intro tag' htag
          have hne : tag' ≠ tag := by
            rintro rfl
            exact htag rfl
          rw [hs.interfaceUnder_withInterface, if_neg hne]
  | removeInterface tag =>
    cases hget : h.interfaces.get? tag with
    | none =>
      simp only [carried, hget]
      exact .refl h _
    | some i =>
      simp only [carried, hget]
      refine ⟨rfl, rfl, ?_, ?_⟩
      · intro other hother
        have hne : other ≠ (h.interface i).endpoint := by
          rintro rfl
          exact hother (by simp [place?, hget])
        exact (endpoint_modify (hs.isDeleted_home hget) _ other).trans
          (if_neg hne)
      · intro tag' htag
        have hne : tag' ≠ tag := by
          rintro rfl
          exact htag rfl
        rw [hs.interfaceUnder_withoutInterface hget, if_neg hne]
  | _ => exact .refl h _

/-! ## What decides -/

namespace Agree

theorem place?_eq (hagree : Agree h h' ask) : h'.place? ask = h.place? ask := by
  cases ask with
  | removeInterface tag =>
    have hunder : h'.interfaceUnder tag = h.interfaceUnder tag :=
      hagree.interface_eq rfl
    have hplace : ∀ k : Holdings, k.place? (.removeInterface tag) =
        (k.interfaceUnder tag).map Interface.endpoint := by
      intro k
      simp [place?, interfaceUnder, Function.comp_def]
    rw [hplace, hplace, hunder]
  | addRobot _ _ | removeRobot _ | addContainer _ _ | removeContainer _ => rfl
  | _ => simp only [place?, hagree.containers_eq]

theorem contains_eq (hagree : Agree h h' ask)
    (htag : ask.interfaceTag? = some tag) :
    h'.interfaces.contains tag = h.interfaces.contains tag := by
  rw [contains_interfaces_eq, contains_interfaces_eq, hagree.interface_eq htag]

/-- What is the same of an endpoint is changed in the same way. -/
theorem shell_modify (f : Endpoint → Endpoint)
    {change change' : Endpoint → Endpoint}
    (he : (h.endpoint e).isDeleted = false)
    (he' : (h'.endpoint e).isDeleted = false)
    (hshell : (h'.endpoint e).shell = (h.endpoint e).shell)
    (hchange : ∀ endpoint, (change endpoint).shell = f endpoint.shell)
    (hchange' : ∀ endpoint, (change' endpoint).shell = f endpoint.shell) :
    (((h'.endpointStore.modify e change').get? e).getD .gone).shell =
      (((h.endpointStore.modify e change).get? e).getD .gone).shell := by
  rw [endpoint_modify he', endpoint_modify he, if_pos rfl, if_pos rfl, hchange',
    hchange, hshell]

theorem carried_setConnected (hs : h.Sound) (hs' : h'.Sound) {connected : Bool}
    (hagree : Agree h h' (.setConnected tag connected)) :
    Alike h (.setConnected tag connected)
      (h.carried control (.setConnected tag connected))
      (h'.carried control (.setConnected tag connected)) := by
  refine ⟨?_, nofun⟩
  intro e hget
  have hget' : h'.containers.get? tag = some e := hagree.containers_eq ▸ hget
  have hshell := hagree.shell_eq hget
  rw [place?] at hget
  simp only [Holdings.carried, hget, hget']
  exact shell_modify (fun shell => { shell with role := .container connected })
    (hs.isDeleted_container hget) (hs'.isDeleted_container hget') hshell
    (fun _ => rfl) fun _ => rfl

theorem carried_addInterface (hs : h.Sound) (hs' : h'.Sound)
    {container address : Text}
    (hagree : Agree h h' (.addInterface container tag address)) :
    Alike h (.addInterface container tag address)
      (h.carried control (.addInterface container tag address))
      (h'.carried control (.addInterface container tag address)) := by
  cases hget : h.containers.get? container with
  | none =>
    have hget' : h'.containers.get? container = none := by
      rw [hagree.containers_eq, hget]
    simp only [Holdings.carried, hget, hget']
    exact hagree.alike
  | some e =>
    have hget' : h'.containers.get? container = some e := by
      rw [hagree.containers_eq, hget]
    have hshell := hagree.shell_eq hget
    cases control with
    | none =>
      simp only [Holdings.carried, hget, hget']
      exact hagree.alike
    | some c =>
      simp only [Holdings.carried, hget, hget']
      refine ⟨?_, ?_⟩
      · intro other hother
        have heq : other = e := Option.some.inj (Eq.trans (Eq.symm hother) hget)
        rw [heq]
        exact shell_modify
          (fun shell => { shell with addresses := address :: shell.addresses })
          (hs.isDeleted_container hget) (hs'.isDeleted_container hget') hshell
          (fun _ => rfl) fun _ => rfl
      · intro tag' htag
        rw [hs.interfaceUnder_withInterface, hs'.interfaceUnder_withInterface]
        split
        · rfl
        · exact hagree.interface_eq htag

theorem carried_removeInterface (hs : h.Sound) (hs' : h'.Sound)
    (hagree : Agree h h' (.removeInterface tag)) :
    Alike h (.removeInterface tag) (h.carried control (.removeInterface tag))
      (h'.carried control (.removeInterface tag)) := by
  have hunder : h'.interfaceUnder tag = h.interfaceUnder tag :=
    hagree.interface_eq rfl
  cases hget : h.interfaces.get? tag with
  | none =>
    have hget' : h'.interfaces.get? tag = none := by
      simpa [interfaceUnder, hget] using hunder
    simp only [Holdings.carried, hget, hget']
    exact hagree.alike
  | some i =>
    obtain ⟨i', hget', hi'⟩ : ∃ i', h'.interfaces.get? tag = some i' ∧
        h'.interface i' = h.interface i := by
      simpa [interfaceUnder, hget] using hunder
    have hplace : h.place? (.removeInterface tag) =
        some (h.interface i).endpoint := by
      simp [place?, hget]
    have hlive' := hs'.isDeleted_home hget'
    rw [hi'] at hlive'
    simp only [Holdings.carried, hget, hget', hi']
    refine ⟨?_, ?_⟩
    · intro other hother
      have heq : other = (h.interface i).endpoint :=
        Option.some.inj (Eq.trans (Eq.symm hother) hplace)
      rw [heq]
      let address := (h.interface i).behaviour.address?.getD []
      exact shell_modify
        (fun shell => { shell with addresses := shell.addresses.erase address })
        (hs.isDeleted_home hget) hlive' (hagree.shell_eq hplace)
        (fun _ => rfl) fun _ => rfl
    · intro tag' htag
      rw [hs.interfaceUnder_withoutInterface hget,
        hs'.interfaceUnder_withoutInterface hget']
      split
      · rfl
      · exact hagree.interface_eq htag

/-- What an ask is about comes out the same where it was the same before. -/
theorem carried (hs : h.Sound) (hs' : h'.Sound) (hagree : Agree h h' ask) :
    Alike h ask (h.carried control ask) (h'.carried control ask) := by
  cases ask with
  | setConnected tag connected => exact carried_setConnected hs hs' hagree
  | addInterface container tag address =>
    exact carried_addInterface hs hs' hagree
  | removeInterface tag => exact carried_removeInterface hs hs' hagree
  | addRobot _ _ | removeRobot _ | addContainer _ _ | removeContainer _
  | graph _ _ =>
    exact hagree.alike

end Agree

/-- Two asks are about different containers, and about different tags
of interfaces. -/
structure Apart (h : Holdings) (a b : Ask) : Prop where
  place_ne : ∀ {e}, h.place? a = some e → h.place? b ≠ some e
  tag_ne : ∀ {tag}, a.interfaceTag? = some tag → b.interfaceTag? ≠ some tag

theorem Apart.symm {a b : Ask} (hapart : h.Apart a b) : h.Apart b a :=
  ⟨fun hb ha => hapart.place_ne ha hb, fun hb ha => hapart.tag_ne ha hb⟩

theorem Spares.agree {a b : Ask} (hspares : Spares h h' b)
    (hapart : h.Apart a b) :
    Agree h h' a where
  containers_eq := hspares.containers_eq
  shell_eq := fun hplace => by rw [hspares.endpoint_eq (hapart.place_ne hplace)]
  interface_eq := fun htag => hspares.interface_eq (hapart.tag_ne htag)

/-- The same is held: the same robots, containers and flags, the same interfaces
under their tags, and for each container the same reserved addresses and
registered interfaces.  The numbers of the interfaces may be different. -/
structure Same (h h' : Holdings) : Prop where
  robots_eq : h'.robots = h.robots
  containers_eq : h'.containers = h.containers
  shell_eq : ∀ e, (h'.endpoint e).shell = (h.endpoint e).shell
  interface_eq : ∀ tag, h'.interfaceUnder tag = h.interfaceUnder tag
  registered_iff : ∀ {container e}, h.containers.get? container = some e →
    ∀ tag,
      (∃ i, h'.interfaces.get? tag = some i ∧ i ∈ (h'.endpoint e).registered) ↔
        ∃ i, h.interfaces.get? tag = some i ∧ i ∈ (h.endpoint e).registered

/-- What is registered is known from the interfaces under their tags. -/
theorem Sound.exists_registered_iff (hs : h.Sound) {container : Text}
    (hget : h.containers.get? container = some e) (tag : Text) :
    (∃ i, h.interfaces.get? tag = some i ∧ i ∈ (h.endpoint e).registered) ↔
      ∃ interface, h.interfaceUnder tag = some interface ∧
      interface.endpoint = e := by
  simp only [(hs.container hget).mem_registered, interfaceUnder,
    Option.map_eq_some_iff]
  constructor
  · rintro ⟨i, hi, hon⟩
    exact ⟨_, ⟨i, hi, rfl⟩, hon.2⟩
  · rintro ⟨interface, ⟨i, hi, rfl⟩, hhome⟩
    exact ⟨i, hi, ⟨tag, hi⟩, hhome⟩

end Holdings

/-- Those outside answer by what they are asked alone, and not by how often they
have been. -/
structure Fleet.Steady (f : Fleet) : Prop where
  delegate : ∀ {c capabilities objection},
    f.nature c = some (capabilities, objection) →
    ∀ m n command, objection m command = objection n command
  listener : ∀ m n tag connected,
    f.listener.objection m tag connected = f.listener.objection n tag connected

namespace Fleet.Steady

variable {f g : Fleet} {commands : List (ControlId × Command)}

theorem of_continues (h : f.Steady) (hfg : Fleet.Continues f g commands) :
    g.Steady where
  delegate := fun hnature => h.delegate (hfg.nature_eq ▸ hnature)
  listener := by
    rw [hfg.objection_eq]
    exact h.listener

theorem objection?_eq (h : f.Steady) (hfg : Fleet.Continues f g commands)
    (c : ControlId)
    (command : Command) : g.objection? c command = f.objection? c command := by
  have hnature := congrFun hfg.nature_eq c
  unfold Fleet.nature at hnature
  cases hf : f.controls.get? c with
  | none =>
    rw [hf, Option.map_none, Option.map_eq_none_iff] at hnature
    simp only [Fleet.objection?, hf, hnature]
  | some delegate =>
    rw [hf, Option.map_some, Option.map_eq_some_iff] at hnature
    obtain ⟨delegate', hg, heq⟩ := hnature
    have hobjection : delegate'.objection = delegate.objection :=
      congrArg Prod.snd heq
    have hsteady :=
      h.delegate (c := c) (by rw [Fleet.nature, hf, Option.map_some])
    simp only [Fleet.objection?, hf, hg, hobjection]
    exact hsteady _ _ command

theorem objects_eq (h : f.Steady) (hfg : Fleet.Continues f g commands)
    (tag : Text) (connected : Bool) :
    g.listener.objects tag connected = f.listener.objects tag connected := by
  rw [Listener.objects, hfg.hears_eq, hfg.objection_eq,
    h.listener _ f.listener.calls, Listener.objects]

end Fleet.Steady

namespace Session

open Holdings (Spares Agree Alike Apart Same)

variable {s t : Session} {ask a b : Ask}

/-! ## The same answers -/

theorem fault?_eq_of_agree (hagree : Agree s.holdings t.holdings ask)
    (hlocal : ask.isLocal = true) : t.fault? ask = s.fault? ask := by
  have hcontainers : t.containers = s.containers := hagree.containers_eq
  cases ask with
  | setConnected tag connected =>
    simp only [fault?, hcontainers]
    cases hget : s.containers.get? tag with
    | none => rfl
    | some e =>
      obtain ⟨hflag, huid, -⟩ := Endpoint.eq_of_shell_eq (hagree.shell_eq hget)
      rw [Holdings.endpoint_holdings, Holdings.endpoint_holdings] at hflag huid
      simp only [hflag, huid]
  | graph container order => simp only [fault?, hcontainers]
  | addInterface container tag address =>
    have hcontains : t.interfaces.contains tag = s.interfaces.contains tag :=
      hagree.contains_eq rfl
    simp only [fault?, hcontainers, hcontains]
    cases hget : s.containers.get? container with
    | none => rfl
    | some e =>
      obtain ⟨-, -, haddresses⟩ :=
        Endpoint.eq_of_shell_eq (hagree.shell_eq hget)
      have hreserved : t.fleet.isReserved e address =
          s.fleet.isReserved e address :=
        congrArg (fun addresses => addresses.contains address) haddresses
      simp only [hreserved]
  | removeInterface tag =>
    have hcontains : t.interfaces.contains tag = s.interfaces.contains tag :=
      hagree.contains_eq rfl
    simp only [fault?, hcontains]
  | _ => cases hlocal

theorem protest?_eq (hsteady : s.fleet.Steady)
    {commands : List (ControlId × Command)}
    (hcontinues : s.Continues t commands) (ask : Ask) :
    t.protest? ask = s.protest? ask := by
  cases ask with
  | setConnected tag connected =>
    exact hsteady.objects_eq hcontinues.fleet tag connected
  | graph container order =>
    simp only [protest?, hcontinues.containerControl_eq]
    split
    · exact hsteady.objection?_eq hcontinues.fleet _ _
    · rfl
  | _ => rfl

theorem orders_eq {commands : List (ControlId × Command)}
    (hcontinues : s.Continues t commands)
    (ask : Ask) : t.orders ask = s.orders ask := by
  cases ask with
  | graph container order => simp only [orders, hcontinues.containerControl_eq]
  | _ => rfl

/-- What an ask comes to does not depend on one that is apart from it. -/
structure SameOutcome (s t : Session) (ask : Ask) : Prop where
  verdict_eq : t.verdict ask = s.verdict ask
  forwarded_eq : t.forwarded ask = s.forwarded ask

theorem sameOutcome_of_agree {commands : List (ControlId × Command)}
    (hagree : Agree s.holdings t.holdings ask) (hlocal : ask.isLocal = true)
    (hsteady : s.fleet.Steady) (hcontinues : s.Continues t commands) :
    SameOutcome s t ask := by
  have hfault := fault?_eq_of_agree hagree hlocal
  have hprotest := protest?_eq hsteady hcontinues ask
  constructor
  · rw [verdict, hfault, hprotest, verdict]
  · rw [forwarded, hfault, hprotest, orders_eq hcontinues, forwarded]

/-! ## The same state -/

theorem Sound.spares_settled (hs : s.Sound) (ask : Ask) :
    Spares s.holdings (s.settled ask) ask := by
  unfold settled
  split
  · exact .refl _ _
  · exact hs.holdings.spares_carried _ ask

/-- Where an ask finds the same, it leaves the same. -/
theorem settled_congr (hs : s.Sound) (ht : t.Sound)
    {commands : List (ControlId × Command)}
    (hagree : Agree s.holdings t.holdings ask) (hlocal : ask.isLocal = true)
    (hcontinues : s.Continues t commands) :
    Alike s.holdings ask (s.settled ask) (t.settled ask) := by
  unfold settled
  rw [fault?_eq_of_agree hagree hlocal, hcontinues.containerControl_eq]
  split
  · exact hagree.alike
  · exact hagree.carried hs.holdings ht.holdings

/-- What one of two asks is about comes out the same in both orders: the other
one leaves it alone, before and after. -/
theorem settled_first {s₁ s₂ : Session} {commands : List (ControlId × Command)}
    (hs : s.Sound)
    (hs₁ : s₁.Sound) (hs₂ : s₂.Sound) (h₂ : s.Continues s₂ commands)
    (hsettled₁ : s₁.holdings = s.settled a)
    (hsettled₂ : s₂.holdings = s.settled b)
    (ha : a.isLocal = true) (hapart : s.holdings.Apart a b) :
    Alike s.holdings a (s₁.settled b) (s₂.settled a) := by
  have hagreeb : Agree s.holdings s₁.holdings b := by
    rw [hsettled₁]
    exact (hs.spares_settled a).agree hapart.symm
  have hagreea : Agree s.holdings s₂.holdings a := by
    rw [hsettled₂]
    exact (hs.spares_settled b).agree hapart
  have halike := settled_congr hs hs₂ hagreea ha h₂
  have hspares := hs₁.spares_settled b
  constructor
  · intro e hplace
    have hother : s₁.holdings.place? b ≠ some e := by
      rw [hagreeb.place?_eq]
      exact hapart.place_ne hplace
    rw [halike.shell_eq hplace, hspares.endpoint_eq hother, hsettled₁]
  · intro tag htag
    rw [halike.interface_eq htag, hspares.interface_eq (hapart.tag_ne htag),
      hsettled₁]

/-- Two asks that are apart lead to the same holdings in both orders. -/
theorem same_settled {s₁ s₂ : Session} {c₁ c₂ : List (ControlId × Command)}
    (hs : s.Sound) (hs₁ : s₁.Sound) (hs₂ : s₂.Sound) (h₁ : s.Continues s₁ c₁)
    (h₂ : s.Continues s₂ c₂) (hsettled₁ : s₁.holdings = s.settled a)
    (hsettled₂ : s₂.holdings = s.settled b)
    (hsound₁ : (s₁.settled b).Sound) (hsound₂ : (s₂.settled a).Sound)
    (ha : a.isLocal = true) (hb : b.isLocal = true)
    (hapart : s.holdings.Apart a b) :
    Same (s₁.settled b) (s₂.settled a) := by
  have halikea := settled_first hs hs₁ hs₂ h₂ hsettled₁ hsettled₂ ha hapart
  have halikeb := settled_first hs hs₂ hs₁ h₁ hsettled₂ hsettled₁ hb hapart.symm
  have hspares₁ := hs.spares_settled a
  have hspares₂ := hs.spares_settled b
  rw [← hsettled₁] at hspares₁
  rw [← hsettled₂] at hspares₂
  have hspares₁₂ := hs₁.spares_settled b
  have hspares₂₁ := hs₂.spares_settled a
  have hcontainers : (s₂.settled a).containers = (s₁.settled b).containers := by
    rw [hspares₂₁.containers_eq, hspares₂.containers_eq,
      hspares₁₂.containers_eq, hspares₁.containers_eq]
  have hinterface : ∀ tag,
      (s₂.settled a).interfaceUnder tag =
        (s₁.settled b).interfaceUnder tag := by
    intro tag
    by_cases htaga : a.interfaceTag? = some tag
    · exact halikea.interface_eq htaga
    · by_cases htagb : b.interfaceTag? = some tag
      · exact (halikeb.interface_eq htagb).symm
      · rw [hspares₂₁.interface_eq htaga, hspares₂.interface_eq htagb,
          hspares₁₂.interface_eq htagb, hspares₁.interface_eq htaga]
  refine ⟨?_, hcontainers, ?_, hinterface, ?_⟩
  · rw [hspares₂₁.robots_eq, hspares₂.robots_eq, hspares₁₂.robots_eq,
      hspares₁.robots_eq]
  · intro e
    by_cases hplacea : s.holdings.place? a = some e
    · exact halikea.shell_eq hplacea
    · by_cases hplaceb : s.holdings.place? b = some e
      · exact (halikeb.shell_eq hplaceb).symm
      · have hplacea' : s₂.holdings.place? a ≠ some e := by
          rwa [(hspares₂.agree hapart).place?_eq]
        have hplaceb' : s₁.holdings.place? b ≠ some e := by
          rwa [(hspares₁.agree hapart.symm).place?_eq]
        rw [hspares₂₁.endpoint_eq hplacea', hspares₂.endpoint_eq hplaceb,
          hspares₁₂.endpoint_eq hplaceb', hspares₁.endpoint_eq hplacea]
  · intro container e hget tag
    have hget' : (s₂.settled a).containers.get? container = some e := by
      rw [hcontainers, hget]
    rw [hsound₂.exists_registered_iff hget', hsound₁.exists_registered_iff hget,
      hinterface]

/-! ## Requests -/

/-- The answer of a request is concluded from its result alone. -/
theorem conclude_answer_eq (operation : Operation)
    (result : Except Fault (List (Text × Json))) (s t : Session) :
    (conclude operation result s).1 = (conclude operation result t).1 := by
  cases result with
  | ok results => rfl
  | error fault => rfl

/-- A request about one container is answered and settled as the
state decides. -/
theorem Sound.handle_locally (hs : s.Sound) {request : Json}
    (hask : request.ask? = some ask) (hlocal : ask.isLocal = true) :
    (Session.handle request s).1 =
      (conclude ask.operation (s.verdict ask) s).1 ∧
      s.Continues (Session.handle request s).2 (s.forwarded ask) ∧
      (Session.handle request s).2.holdings = s.settled ask := by
  obtain ⟨result, t, hrun, -, hsettles⟩ := hs.performsLocally hlocal
  rw [handle_of_ask?_eq_some hask, hrun, ← hsettles.result_eq]
  cases result with
  | ok results => exact ⟨rfl, hsettles.continues, hsettles.holdings_eq⟩
  | error fault =>
    exact ⟨rfl, hsettles.continues.trans_right (continues_logged t _ _),
      hsettles.holdings_eq⟩

/-- An interface that is admitted holds its address on its container. -/
theorem Sound.mem_addresses_settled (hs : s.Sound)
    {container tag address : Text}
    (hfault : s.fault? (.addInterface container tag address) = none) :
    ∃ e, s.containers.get? container = some e ∧
      address ∈
        ((s.settled (.addInterface container tag address)).endpoint
          e).addresses := by
  cases hget : s.containers.get? container with
  | none =>
    simp only [fault?, hget] at hfault
    split at hfault <;> cases hfault
  | some e =>
    obtain ⟨c, hcontrol, -⟩ := hs.exists_control hget
    have hget' : s.holdings.containers.get? container = some e := hget
    refine ⟨e, rfl, ?_⟩
    simp only [settled, hfault, Holdings.carried, hget', hcontrol]
    have hendpoint :=
      Holdings.endpoint_modify (hs.holdings.isDeleted_container hget')
        (fun endpoint =>
          { endpoint with
            registered :=
              Fleet.insertInOrder s.holdings.interfaceStore.next
                endpoint.registered
            addresses := address :: endpoint.addresses }) e
    rw [if_pos rfl] at hendpoint
    rw [Holdings.endpoint, Holdings.endpointStore_withInterface, hendpoint]
    exact List.mem_cons_self

/-- Two interfaces that are admitted on different containers one after the other
both hold their address. -/
theorem Sound.mem_addresses_of_apart {s₁ s₂ : Session} (hs : s.Sound)
    (hs₁ : s₁.Sound) {container container' tag tag' address : Text}
    (hsettled₁ : s₁.holdings = s.settled (.addInterface container tag address))
    (hsettled₂ : s₂.holdings =
      s₁.settled (.addInterface container' tag' address))
    (hapart : s.holdings.Apart (.addInterface container tag address)
      (.addInterface container' tag' address))
    (hfault : s.fault? (.addInterface container tag address) = none)
    (hfault' : s.fault? (.addInterface container' tag' address) = none) :
    ∃ e e', s.containers.get? container = some e ∧
      s.containers.get? container' = some e' ∧
      address ∈ (s₂.fleet.endpoint e).addresses ∧
      address ∈ (s₂.fleet.endpoint e').addresses := by
  have hspares :
      Spares s.holdings s₁.holdings (.addInterface container tag address) :=
    hsettled₁ ▸ hs.spares_settled _
  have hagree := hspares.agree hapart.symm
  obtain ⟨e, hget, hmem⟩ := hs.mem_addresses_settled hfault
  obtain ⟨e', hget', hmem'⟩ :=
    hs₁.mem_addresses_settled ((fault?_eq_of_agree hagree rfl).trans hfault')
  have hother :
      s₁.holdings.place? (.addInterface container' tag' address) ≠ some e := by
    rw [hagree.place?_eq]
    exact hapart.place_ne hget
  have hcontainers : s₁.containers = s.containers := hspares.containers_eq
  have hsame :=
    (hs₁.spares_settled (.addInterface container' tag' address)).endpoint_eq
      hother
  rw [← hsettled₂] at hmem' hsame
  rw [← hsettled₁, ← hsame] at hmem
  exact ⟨e, e', hget, by rw [← hcontainers, hget'], hmem, hmem'⟩

/-- In every state that requests lead to, two requests about different
containers and different tags of interfaces can be handled in either order,
provided that those outside answer by what they are asked alone.  Each request
gets the same answer, the same is held afterwards, and the commands of the two
requests come one after the other in the order of the requests.  In particular
the same address can be held on both containers. -/
theorem independent_requests_commute (outside : Outside)
    (hsteady : outside.newSession.fleet.Steady) (requests : List Json)
    {first second : Json} {a b : Ask}
    (hfirst : first.ask? = some a) (hsecond : second.ask? = some b)
    (ha : a.isLocal = true) (hb : b.isLocal = true)
    (hapart : (outside.sessionAfter requests).holdings.Apart a b) :
    let s := outside.sessionAfter requests
    let s₁ := (handle first s).2
    let s₂ := (handle second s).2
    let s₁₂ := (handle second s₁).2
    let s₂₁ := (handle first s₂).2
    (handle first s₂).1 = (handle first s).1 ∧
      (handle second s₁).1 = (handle second s).1 ∧
      Same s₁₂.holdings s₂₁.holdings ∧
      (∃ c₁ c₂, s₁.fleet.commands = s.fleet.commands ++ c₁ ∧
        s₂.fleet.commands = s.fleet.commands ++ c₂ ∧
        s₁₂.fleet.commands = s.fleet.commands ++ c₁ ++ c₂ ∧
        s₂₁.fleet.commands = s.fleet.commands ++ c₂ ++ c₁) ∧
      ∀ container container' tag tag' address,
        a = .addInterface container tag address →
        b = .addInterface container' tag' address →
        s.fault? a = none → s.fault? b = none →
          ∃ e e', s.containers.get? container = some e ∧
            s.containers.get? container' = some e' ∧
            address ∈ (s₁₂.fleet.endpoint e).addresses ∧
            address ∈ (s₁₂.fleet.endpoint e').addresses := by
  intro s s₁ s₂ s₁₂ s₂₁
  have hs : s.Sound := sound_sessionAfter outside requests
  have hs₁ : s₁.Sound := hs.handle first
  have hs₂ : s₂.Sound := hs.handle second
  obtain ⟨commands, hcontinues, -⟩ :=
    (sound_newSession outside).handleEach_continues requests
  have hsteady' : s.fleet.Steady := hsteady.of_continues hcontinues.fleet
  obtain ⟨hanswer₁, hcontinues₁, hsettled₁⟩ := hs.handle_locally hfirst ha
  obtain ⟨hanswer₂, hcontinues₂, hsettled₂⟩ := hs.handle_locally hsecond hb
  obtain ⟨hanswer₁₂, hcontinues₁₂, hsettled₁₂⟩ := hs₁.handle_locally hsecond hb
  obtain ⟨hanswer₂₁, hcontinues₂₁, hsettled₂₁⟩ := hs₂.handle_locally hfirst ha
  have hspares₁ : Spares s.holdings s₁.holdings a :=
    hsettled₁ ▸ hs.spares_settled a
  have hspares₂ : Spares s.holdings s₂.holdings b :=
    hsettled₂ ▸ hs.spares_settled b
  have hagreeb : Agree s.holdings s₁.holdings b := hspares₁.agree hapart.symm
  have hagreea : Agree s.holdings s₂.holdings a := hspares₂.agree hapart
  have houtcomeb := sameOutcome_of_agree hagreeb hb hsteady' hcontinues₁
  have houtcomea := sameOutcome_of_agree hagreea ha hsteady' hcontinues₂
  refine ⟨?_, ?_, ?_, ⟨s.forwarded a, s.forwarded b, ?_, ?_, ?_, ?_⟩, ?_⟩
  · rw [hanswer₂₁, houtcomea.verdict_eq, hanswer₁]
    exact conclude_answer_eq _ _ _ _
  · rw [hanswer₁₂, houtcomeb.verdict_eq, hanswer₂]
    exact conclude_answer_eq _ _ _ _
  · have hsound₁₂ : s₁₂.holdings.Sound := (hs₁.handle second).holdings
    have hsound₂₁ : s₂₁.holdings.Sound := (hs₂.handle first).holdings
    rw [hsettled₁₂] at hsound₁₂
    rw [hsettled₂₁] at hsound₂₁
    rw [hsettled₁₂, hsettled₂₁]
    exact same_settled hs hs₁ hs₂ hcontinues₁ hcontinues₂ hsettled₁ hsettled₂
      hsound₁₂ hsound₂₁ ha hb hapart
  · exact hcontinues₁.fleet.commands_eq
  · exact hcontinues₂.fleet.commands_eq
  · rw [hcontinues₁₂.fleet.commands_eq, houtcomeb.forwarded_eq,
      hcontinues₁.fleet.commands_eq]
  · rw [hcontinues₂₁.fleet.commands_eq, houtcomea.forwarded_eq,
      hcontinues₂.fleet.commands_eq]
  · intro container container' tag tag' address heqa heqb hfaulta hfaultb
    subst heqa heqb
    exact hs.mem_addresses_of_apart hs₁ hsettled₁ hsettled₁₂ hapart
      hfaulta hfaultb

/-- A request for a container. -/
def requestContainer (tag : String) : Json :=
  .ofEntries
    [(text "op", .str "add_container"), (text "tag", .str tag),
      (text "comm_id", .str tag)]

/-- A request for an interface on a container. -/
def requestInterface (container tag address : String) : Json :=
  .ofEntries
    [(text "op", .str "add_interface"), (text "container", .str container),
      (text "tag", .str tag), (text "addr", .str address)]

/-- Two containers take interfaces at the same address, in either order. -/
theorem same_address_on_two_containers :
    let s := obliging.sessionAfter [requestContainer "c", requestContainer "d"]
    let first := requestInterface "c" "i" "/a"
    let second := requestInterface "d" "j" "/a"
    let a : Ask := .addInterface (text "c") (text "i") (text "/a")
    let b : Ask := .addInterface (text "d") (text "j") (text "/a")
    obliging.newSession.fleet.Steady ∧ first.ask? = some a ∧
      second.ask? = some b ∧
      s.holdings.Apart a b ∧ s.fault? a = none ∧ s.fault? b = none ∧
      Same (handle second (handle first s).2).2.holdings
        (handle first (handle second s).2).2.holdings ∧
      ∃ e e', text "/a" ∈
        ((handle second (handle first s).2).2.fleet.endpoint e).addresses ∧
        text "/a" ∈
          ((handle second (handle first s).2).2.fleet.endpoint
            e').addresses := by
  intro s first second a b
  have hsteady : obliging.newSession.fleet.Steady := by
    refine ⟨?_, fun _ _ _ _ => rfl⟩
    intro c capabilities objection hnature m n command
    obtain ⟨delegate, hget, heq⟩ := Option.map_eq_some_iff.mp hnature
    have hentry : (c, delegate) = (0, ⟨[.robot, .container, .node, .parameter],
        fun _ _ => none, 0⟩) := List.mem_singleton.mp
          (Store.mem_entries_of_get? hget)
    cases hentry
    cases heq
    rfl
  have hfirst : first.ask? = some a := by rfl
  have hsecond : second.ask? = some b := by rfl
  have hplacea : s.holdings.place? a = some 0 := by rfl
  have hplaceb : s.holdings.place? b = some 1 := by rfl
  have hapart : s.holdings.Apart a b := by
    refine ⟨?_, ?_⟩
    · intro e he
      rw [hplaceb, ← he, hplacea]
      decide
    · intro tag htag
      rw [← htag]
      decide
  have hfaulta : s.fault? a = none := by rfl
  have hfaultb : s.fault? b = none := by rfl
  obtain ⟨-, -, hsame, -, haddress⟩ :=
    independent_requests_commute obliging hsteady
      [requestContainer "c", requestContainer "d"] hfirst hsecond rfl rfl hapart
  obtain ⟨e, e', -, -, hmem, hmem'⟩ :=
    haddress _ _ _ _ _ rfl rfl hfaulta hfaultb
  exact ⟨hsteady, hfirst, hsecond, hapart, hfaulta, hfaultb, hsame, e, e', hmem,
    hmem'⟩

end Session
end FleetControl

import FleetControl.Proofs.Fleet.Legible
import FleetControl.Proofs.Json.Printing
import FleetControl.Proofs.Request.Handle

/-!
# Sessions whose texts are well formed

A session that is asked with well-formed texts has well-formed texts only, logs
well-formed messages and gives answers that can be printed.  `Session.Orderly`
also keeps account of the keys: whatever is asked of the session, the source of
random bytes is only asked for keys of an admitted length.
-/

namespace FleetControl

open Utf8

namespace Entropy

/-- The second state of the source comes from the first one by keys of at least
one byte and at most `limit` bytes, one after the other. -/
inductive Asked (limit : Nat) (source : Entropy) : Entropy → Prop where
  | none : Asked limit source source
  | key {later : Entropy} {n : Nat} (h : Asked limit source later)
      (hpos : 0 < n)
      (hle : n ≤ limit) : Asked limit source (Act.run (newKey n) later).2

/-- A key is written in hexadecimal digits, and a source whose reason is well
formed keeps to it. -/
theorem upholds_newKey (n : Nat) :
    Act.Upholds (fun source => isWellFormed source.reason = true)
      Fault.Legible (newKey n) fun key => isWellFormed key = true := by
  refine .unless (fun _ => Fault.legible_of_none nofun rfl) fun _ => ?_
  refine .bind (Q := fun _ => True) ?_ fun key _ =>
    Act.upholds_pure (isWellFormed_hex key)
  refine .bind Act.upholds_get fun source hsource =>
    .ite (fun _ => ?_) fun _ => ?_
  · refine .bind (Act.upholds_set hsource) fun _ _ => ?_
    exact .bind (Q := fun _ => False)
      (Act.upholds_throw (Fault.legible_of_one rfl hsource)) nofun
  · exact .bind (Act.upholds_set hsource) fun _ _ => Act.upholds_pure trivial

end Entropy

namespace Request

/-- A refusal with a well-formed message can be printed. -/
theorem isPrintable_refusal (error : String) {message : Text}
    (h : isWellFormed message = true) :
    (refusal error message).isPrintable = true := by
  apply Json.isPrintable_ofEntries
  intro entry hentry
  simp only [List.mem_cons, List.not_mem_nil, or_false] at hentry
  rcases hentry with rfl | rfl | rfl
  · exact ⟨isWellFormed_text _, isWellFormed_text _⟩
  · exact ⟨isWellFormed_text _, isWellFormed_text _⟩
  · exact ⟨isWellFormed_text _, h⟩

theorem isWellFormed_name (operation : Operation) :
    isWellFormed operation.name = true := by
  cases operation <;> exact isWellFormed_text _

theorem isPrintable_success (operation : Operation)
    {results : List (Text × Json)}
    (h : ∀ entry ∈ results, isWellFormed entry.1 = true ∧
      entry.2.isPrintable = true) :
    (success operation results).isPrintable = true := by
  apply Json.isPrintable_ofEntries
  intro entry hentry
  simp only [List.mem_append, List.mem_cons, List.not_mem_nil, or_false]
    at hentry
  rcases hentry with hentry | rfl | rfl
  · exact h entry hentry
  · exact ⟨isWellFormed_text _, isWellFormed_text _⟩
  · exact ⟨isWellFormed_text _, isWellFormed_name operation⟩

theorem isWellFormed_requestedName {entries : Dict Json}
    (hentries : (Json.object entries).isPrintable = true) :
    isWellFormed (Session.requestedName entries) = true := by
  unfold Session.requestedName
  cases hfound : (entries.get? (text "op")).bind Json.text? with
  | none => rfl
  | some name =>
    obtain ⟨value, hvalue, hname⟩ := Option.bind_eq_some_iff.mp hfound
    exact Json.isWellFormed_of_text?
      (Json.isPrintable_of_member? hentries hvalue) hname

end Request

namespace Session

variable {limit : Nat} {source : Entropy} {s : Session}

/-- All texts of the session are well formed, its keys have an admitted
length, and the source has been asked for no other ones since it was in the
given state. -/
structure Orderly (limit : Nat) (source : Entropy) (s : Session) : Prop where
  fleet : s.fleet.Legible
  userId : isWellFormed s.userId = true
  robots : ∀ entry ∈ s.robots, isWellFormed entry.1 = true
  containers : ∀ entry ∈ s.containers, isWellFormed entry.1 = true
  keyBytes_pos : 0 < s.limits.keyBytes
  keyBytes_le : s.limits.keyBytes ≤ limit
  entropy : Entropy.Asked limit source s.entropy
  reason : isWellFormed s.entropy.reason = true

namespace Orderly

theorem withFleet (h : s.Orderly limit source) {f : Fleet} (hf : f.Legible) :
    Orderly limit source { s with fleet := f } :=
  ⟨hf, h.userId, h.robots, h.containers, h.keyBytes_pos, h.keyBytes_le,
    h.entropy, h.reason⟩

theorem logged (h : s.Orderly limit source) (level : Log.Level) {message : Text}
    (hmessage : isWellFormed message = true) :
    (s.logged level message).Orderly limit source :=
  h.withFleet (h.fleet.log level hmessage)

theorem remark (h : s.Orderly limit source) {what : Text}
    (hwhat : isWellFormed what = true) :
    isWellFormed (s.remark what) = true := by
  simp [Session.remark, h.userId, hwhat]

theorem withRobots (h : s.Orderly limit source) {robots : Dict EndpointId}
    (hrobots : ∀ entry ∈ robots, isWellFormed entry.1 = true) :
    Orderly limit source { s with robots := robots } :=
  ⟨h.fleet, h.userId, hrobots, h.containers, h.keyBytes_pos, h.keyBytes_le,
    h.entropy, h.reason⟩

theorem withContainers (h : s.Orderly limit source)
    {containers : Dict EndpointId}
    (hcontainers : ∀ entry ∈ containers, isWellFormed entry.1 = true) :
    Orderly limit source { s with containers := containers } :=
  ⟨h.fleet, h.userId, h.robots, hcontainers, h.keyBytes_pos, h.keyBytes_le,
    h.entropy, h.reason⟩

theorem erase {d : Dict EndpointId}
    (h : ∀ entry ∈ d, isWellFormed entry.1 = true)
    (key : Text) : ∀ entry ∈ d.erase key, isWellFormed entry.1 = true :=
  fun entry hentry => h entry (List.mem_filter.mp hentry).1

theorem insert {d : Dict EndpointId}
    (h : ∀ entry ∈ d, isWellFormed entry.1 = true) {key : Text}
    (hkey : isWellFormed key = true) (e : EndpointId) :
    ∀ entry ∈ d.insert key e, isWellFormed entry.1 = true := by
  intro entry hentry
  rcases Dict.mem_insert hentry with rfl | hentry
  · exact hkey
  · exact h entry hentry

theorem dropInterfaces {f : Fleet} (h : f.Legible)
    (dropped : Dict InterfaceId) :
    Fleet.Legible
      (dropped.foldl (fun fleet entry => fleet.dropInterface entry.2) f) :=
  List.foldlRecOn dropped _ h fun _ hg entry _ => hg.dropInterface entry.2

theorem dropEndpoints {f : Fleet} (h : f.Legible) (dropped : Dict EndpointId) :
    (dropped.foldl (fun fleet entry => fleet.dropEndpoint entry.2) f).Legible :=
  List.foldlRecOn dropped _ h fun _ hg entry _ => hg.dropEndpoint entry.2

theorem forget (h : s.Orderly limit source) (e : EndpointId) :
    (s.forget e).Orderly limit source where
  fleet := (dropInterfaces h.fleet _).dropEndpoint e
  userId := h.userId
  robots := h.robots
  containers := h.containers
  keyBytes_pos := h.keyBytes_pos
  keyBytes_le := h.keyBytes_le
  entropy := h.entropy
  reason := h.reason

theorem emptied (h : s.Orderly limit source) :
    s.emptied.Orderly limit source where
  fleet := dropEndpoints (dropEndpoints (dropInterfaces h.fleet _) _) _
  userId := h.userId
  robots := nofun
  containers := nofun
  keyBytes_pos := h.keyBytes_pos
  keyBytes_le := h.keyBytes_le
  entropy := h.entropy
  reason := h.reason

end Orderly

/-! ## What is asked of a session -/

theorem orderly_onFleet {α : Type} {act : Act Fleet α} {Q : α → Prop}
    (hact : Act.Upholds Fleet.Legible Fault.Legible act Q) :
    Act.Upholds (Orderly limit source) Fault.Legible (onFleet act) Q :=
  hact.zoom (fun _ hs => hs.fleet) fun _ _ hs hf => hs.withFleet hf

theorem orderly_note (level : Log.Level) {message : Text}
    (h : isWellFormed message = true) :
    Act.Upholds (Orderly limit source) Fault.Legible (note level message)
      fun _ => True :=
  orderly_onFleet (Fleet.legible_note level h)

theorem orderly_ensureActive :
    Act.Upholds (Orderly limit source) Fault.Legible ensureActive
      fun _ => True := by
  refine .bind Act.upholds_get fun s hs => .ite (fun _ => ?_) fun _ =>
    Act.upholds_pure trivial
  exact Act.upholds_throw (Fault.legible_of_one rfl hs.userId)

theorem orderly_robot {id : Text} (hid : isWellFormed id = true) :
    Act.Upholds (Orderly limit source) Fault.Legible (robot id)
      fun _ => True := by
  refine .bind Act.upholds_get fun s _ => ?_
  split
  · exact Act.upholds_pure trivial
  · exact Act.upholds_throw (Fault.legible_of_one rfl hid)

theorem orderly_container {tag : Text} (htag : isWellFormed tag = true) :
    Act.Upholds (Orderly limit source) Fault.Legible (container tag)
      fun _ => True := by
  refine .bind Act.upholds_get fun s _ => ?_
  split
  · exact Act.upholds_pure trivial
  · exact Act.upholds_throw (Fault.legible_of_one rfl htag)

theorem orderly_interface {tag : Text} (htag : isWellFormed tag = true) :
    Act.Upholds (Orderly limit source) Fault.Legible (interface tag)
      fun _ => True := by
  refine .bind Act.upholds_get fun s _ => ?_
  split
  · exact Act.upholds_pure trivial
  · exact Act.upholds_throw (Fault.legible_of_one rfl htag)

theorem orderly_retire (e : EndpointId) :
    Act.Upholds (Orderly limit source) Fault.Legible (retire e)
      fun _ => True := by
  have hforget := Act.upholds_modify (E := Fault.Legible)
    fun (s : Session) (hs : s.Orderly limit source) => hs.forget e
  refine .bind
    (.tryCatch (orderly_onFleet (Fleet.legible_destroyEndpoint e)) ?_)
    fun _ _ => hforget
  exact fun fault hfault => hforget.bind fun _ _ => Act.upholds_throw hfault

/-- A session asks for keys of its own length, which is an admitted one. -/
theorem orderly_newKey {n : Nat} (hpos : 0 < n) (hle : n ≤ limit) :
    Act.Upholds (Orderly limit source) Fault.Legible
      (onEntropy (Entropy.newKey n)) fun key => isWellFormed key = true := by
  intro s hs
  have hkey := Entropy.upholds_newKey n s.entropy hs.reason
  refine ⟨?_, hkey.2⟩
  exact ⟨hs.fleet, hs.userId, hs.robots, hs.containers, hs.keyBytes_pos,
    hs.keyBytes_le, hs.entropy.key hpos hle, hkey.1⟩

theorem orderly_addRobot {id commId : Text} (hid : isWellFormed id = true)
    (hcommId : isWellFormed commId = true) :
    Act.Upholds (Orderly limit source) Fault.Legible (addRobot id commId)
      fun key => isWellFormed key = true := by
  refine .bind orderly_ensureActive fun _ _ =>
    .bind Act.upholds_get fun s hs => ?_
  refine .unless (fun _ => Fault.legible_of_one rfl hid) fun _ => ?_
  refine .unless (fun _ => Fault.legible_of_none nofun rfl) fun _ => ?_
  refine .bind (orderly_newKey hs.keyBytes_pos hs.keyBytes_le)
    fun key hkey => ?_
  refine .bind
    (orderly_onFleet (Fleet.legible_newRobot true _ hid hcommId hkey))
    fun e _ => ?_
  refine .bind (Act.upholds_modify fun t ht =>
    ht.withRobots (Orderly.insert ht.robots hid e))
    fun _ _ => ?_
  exact .bind (orderly_note _ (hs.remark (by simp [hid]))) fun _ _ =>
    Act.upholds_pure hkey

theorem orderly_removeRobot {id : Text} (hid : isWellFormed id = true) :
    Act.Upholds (Orderly limit source) Fault.Legible (removeRobot id)
      fun _ => True := by
  refine .bind orderly_ensureActive fun _ _ =>
    .bind (orderly_robot hid) fun e _ => ?_
  refine .bind (Act.upholds_modify fun t ht =>
    ht.withRobots (Orderly.erase ht.robots id))
    fun _ _ => ?_
  refine .bind (orderly_retire e) fun _ _ =>
    .bind Act.upholds_get fun s hs => ?_
  exact orderly_note _ (hs.remark (by simp [hid]))

theorem orderly_addContainer {tag commId : Text}
    (htag : isWellFormed tag = true) (hcommId : isWellFormed commId = true) :
    Act.Upholds (Orderly limit source) Fault.Legible (addContainer tag commId)
      fun _ => True := by
  refine .bind orderly_ensureActive fun _ _ =>
    .bind Act.upholds_get fun s hs => ?_
  refine .unless (fun _ => Fault.legible_of_one rfl htag) fun _ => ?_
  refine .unless (fun _ => Fault.legible_of_none nofun rfl) fun _ => ?_
  refine .bind
    (orderly_onFleet (Fleet.legible_newContainer true _ htag hcommId))
    fun e _ => ?_
  refine .bind (Act.upholds_modify fun t ht =>
    ht.withContainers (Orderly.insert ht.containers htag e)) fun _ _ => ?_
  exact orderly_note _ (hs.remark (by simp [htag]))

theorem orderly_removeContainer {tag : Text} (htag : isWellFormed tag = true) :
    Act.Upholds (Orderly limit source) Fault.Legible (removeContainer tag)
      fun _ => True := by
  refine .bind orderly_ensureActive fun _ _ =>
    .bind (orderly_container htag) fun e _ => ?_
  refine .bind (Act.upholds_modify fun t ht =>
    ht.withContainers (Orderly.erase ht.containers tag)) fun _ _ => ?_
  refine .bind (orderly_retire e) fun _ _ =>
    .bind Act.upholds_get fun s hs => ?_
  exact orderly_note _ (hs.remark (by simp [htag]))

theorem orderly_registerOrDrop (e : EndpointId) (i : InterfaceId)
    {address : Text} (haddress : isWellFormed address = true) :
    Act.Upholds (Orderly limit source) Fault.Legible
      (registerOrDrop e i address) fun _ => True := by
  refine .tryCatch (orderly_onFleet (Fleet.legible_register e i))
    fun fault hfault => ?_
  refine .bind (.attempt (orderly_onFleet (Fleet.legible_free e haddress))
    fun _ _ => Act.upholds_pure trivial) fun another hanother => ?_
  refine .bind (Act.upholds_modify fun t ht => ?_) fun _ _ => ?_
  · exact ht.withFleet (ht.fleet.dropInterface i)
  · cases another with
    | none => exact Act.upholds_throw hfault
    | some found => exact Act.upholds_throw (hanother found rfl)

theorem orderly_addInterface {containerTag tag address : Text}
    (hcontainer : isWellFormed containerTag = true)
    (htag : isWellFormed tag = true) (haddress : isWellFormed address = true) :
    Act.Upholds (Orderly limit source) Fault.Legible
      (addInterface containerTag tag address) fun _ => True := by
  refine .bind orderly_ensureActive fun _ _ =>
    .bind Act.upholds_get fun _ _ => ?_
  refine .unless (fun _ => Fault.legible_of_one rfl htag) fun _ => ?_
  refine .bind (orderly_container hcontainer) fun e _ => ?_
  refine .bind (orderly_onFleet (Fleet.legible_newInterface e htag haddress))
    fun i _ => ?_
  refine .bind (orderly_registerOrDrop e i haddress) fun _ _ => ?_
  refine .bind (Act.upholds_modify fun t ht => ?_) fun _ _ =>
    .bind Act.upholds_get fun s hs => ?_
  · exact ⟨ht.fleet, ht.userId, ht.robots, ht.containers, ht.keyBytes_pos,
      ht.keyBytes_le, ht.entropy, ht.reason⟩
  · exact orderly_note _ (hs.remark (by simp [htag, haddress, hcontainer]))

theorem orderly_removeInterface {tag : Text} (htag : isWellFormed tag = true) :
    Act.Upholds (Orderly limit source) Fault.Legible (removeInterface tag)
      fun _ => True := by
  refine .bind orderly_ensureActive fun _ _ =>
    .bind (orderly_interface htag) fun i _ => ?_
  have hrest : Act.Upholds (Orderly limit source) Fault.Legible (do
      modify fun session =>
        { session with
          interfaces := session.interfaces.erase tag
          fleet := session.fleet.dropInterface i }
      note .info ((← get).remark (text "removed interface " ++ tag.quoted)))
        fun _ => True := by
    refine .bind (Act.upholds_modify fun t ht => ?_) fun _ _ =>
      .bind Act.upholds_get fun s hs =>
        orderly_note _ (hs.remark (by simp [htag]))
    exact ⟨ht.fleet.dropInterface i, ht.userId, ht.robots, ht.containers,
      ht.keyBytes_pos, ht.keyBytes_le, ht.entropy, ht.reason⟩
  refine .bind Act.upholds_get fun s _ => .ite (fun _ => ?_) fun _ => hrest
  exact .bind (orderly_onFleet (Fleet.legible_destroyInterface i))
    fun _ _ => hrest

/-! ## Requests -/

open Request

variable {entries : Dict Json}

theorem orderly_field (hentries : (Json.object entries).isPrintable = true)
    (key : String) :
    Act.Upholds (Orderly limit source) Fault.Legible (liftM (field entries key))
      fun t => isWellFormed t = true := by
  unfold field
  split
  · next t hfound =>
    obtain ⟨value, hvalue, ht⟩ := Option.bind_eq_some_iff.mp hfound
    exact Act.upholds_lift (Json.isWellFormed_of_text?
      (Json.isPrintable_of_member? hentries hvalue) ht)
  · exact Act.upholds_lift (Fault.legible_of_one rfl (isWellFormed_text key))

theorem orderly_optionalField
    (hentries : (Json.object entries).isPrintable = true) (key : String) :
    Act.Upholds (Orderly limit source) Fault.Legible
      (liftM (optionalField entries key)) fun t => isWellFormed t = true := by
  unfold optionalField
  split
  · exact Act.upholds_lift rfl
  · exact Act.upholds_lift rfl
  · next t hvalue =>
    have ht : (Json.string t).isPrintable = true :=
      Json.isPrintable_of_member? hentries hvalue
    exact Act.upholds_lift ht
  · exact Act.upholds_lift (Fault.legible_of_one rfl (isWellFormed_text key))

theorem orderly_flag (key : String) :
    Act.Upholds (Orderly limit source) Fault.Legible (liftM (flag entries key))
      fun _ => True := by
  unfold flag
  split
  · exact Act.upholds_lift trivial
  · exact Act.upholds_lift (Fault.legible_of_one rfl (isWellFormed_text key))

theorem orderly_value (key : String) :
    Act.Upholds (Orderly limit source) Fault.Legible (liftM (value entries key))
      fun _ => True := by
  unfold value
  split
  · exact Act.upholds_lift trivial
  · exact Act.upholds_lift (Fault.legible_of_one rfl (isWellFormed_text key))

/-- What the answer to a request holds beyond its status can be printed. -/
theorem orderly_perform (operation : Operation)
    (hentries : (Json.object entries).isPrintable = true) :
    Act.Upholds (Orderly limit source) Fault.Legible (perform operation entries)
      fun results => ∀ entry ∈ results,
        isWellFormed entry.1 = true ∧ entry.2.isPrintable = true := by
  have hnothing : Act.Upholds (Orderly limit source) Fault.Legible
      (return [] : Act Session (List (Text × Json)))
      fun results => ∀ entry ∈ results,
        isWellFormed entry.1 = true ∧ entry.2.isPrintable = true :=
    Act.upholds_pure nofun
  have hfield : ∀ key, Act.Upholds (Orderly limit source) Fault.Legible
      (liftM (field entries key)) fun t => isWellFormed t = true :=
    orderly_field hentries
  cases operation with
  | addRobot =>
    refine .bind (hfield _) fun id hid =>
      .bind (hfield _) fun commId hcommId => ?_
    refine .bind (orderly_addRobot hid hcommId) fun key hkey =>
      Act.upholds_pure ?_
    intro entry hentry
    rw [List.mem_singleton.mp hentry]
    exact ⟨isWellFormed_text _, hkey⟩
  | removeRobot =>
    exact .bind (hfield _) fun id hid =>
      .bind (orderly_removeRobot hid) fun _ _ => hnothing
  | addContainer =>
    refine .bind (hfield _) fun tag htag =>
      .bind (hfield _) fun commId hcommId => ?_
    exact .bind (orderly_addContainer htag hcommId) fun _ _ => hnothing
  | removeContainer =>
    exact .bind (hfield _) fun tag htag =>
      .bind (orderly_removeContainer htag) fun _ _ => hnothing
  | setContainerConnected =>
    refine .bind (orderly_flag _) fun connected _ =>
      .bind (hfield _) fun tag htag => ?_
    refine .bind (orderly_container htag) fun e _ => ?_
    exact .bind (orderly_onFleet (Fleet.legible_setConnected e connected))
      fun _ _ => hnothing
  | addNode =>
    refine .bind (hfield _) fun container hcontainer => ?_
    refine .bind (orderly_container hcontainer) fun e _ => ?_
    refine .bind (hfield _) fun tag htag =>
      .bind (hfield _) fun package hpackage => ?_
    refine .bind (hfield _) fun executable hexecutable => ?_
    refine .bind (orderly_optionalField hentries _) fun args hargs => ?_
    refine .bind (orderly_optionalField hentries _) fun name hname => ?_
    refine .bind (orderly_optionalField hentries _)
      fun namespaceName hnamespace => ?_
    refine .bind (orderly_onFleet (Fleet.legible_addNode e ?_ ?_ ?_ ?_ ?_ ?_))
      fun _ _ => hnothing
    · exact htag
    · exact hpackage
    · exact hexecutable
    · exact hargs
    · exact hname
    · exact hnamespace
  | removeNode =>
    refine .bind (hfield _) fun container hcontainer => ?_
    refine .bind (orderly_container hcontainer) fun e _ =>
      .bind (hfield _) fun tag htag => ?_
    exact .bind (orderly_onFleet (Fleet.legible_removeNode e htag))
      fun _ _ => hnothing
  | addParameter =>
    refine .bind (orderly_value _) fun given _ =>
      .bind (hfield _) fun container hcontainer => ?_
    refine .bind (orderly_container hcontainer) fun e _ =>
      .bind (hfield _) fun name hname => ?_
    refine .bind (hfield _) fun type _ => ?_
    exact .bind
      (orderly_onFleet (Fleet.legible_addParameter e given type hname))
      fun _ _ => hnothing
  | removeParameter =>
    refine .bind (hfield _) fun container hcontainer => ?_
    refine .bind (orderly_container hcontainer) fun e _ =>
      .bind (hfield _) fun name hname => ?_
    exact .bind (orderly_onFleet (Fleet.legible_removeParameter e hname))
      fun _ _ => hnothing
  | addInterface =>
    refine .bind (hfield _) fun container hcontainer =>
      .bind (hfield _) fun tag htag => ?_
    refine .bind (hfield _) fun address haddress => ?_
    exact .bind (orderly_addInterface hcontainer htag haddress)
      fun _ _ => hnothing
  | removeInterface =>
    exact .bind (hfield _) fun tag htag =>
      .bind (orderly_removeInterface htag) fun _ _ => hnothing

theorem Orderly.refuse (hs : s.Orderly limit source) (operation : Operation)
    {fault : Fault} (hfault : fault.Legible) :
    (refuse operation fault s).1.isPrintable = true ∧
      (refuse operation fault s).2.Orderly limit source := by
  refine ⟨isPrintable_refusal _ hfault.message, hs.logged .error ?_⟩
  have hname := isWellFormed_name operation
  have hmessage := hfault.message
  split <;> simp [hname, hmessage]

/-- A request that can be printed gets an answer that can be printed, and leaves
the session in order. -/
theorem Orderly.handle (hs : s.Orderly limit source) {request : Json}
    (hrequest : request.isPrintable = true) :
    (Session.handle request s).1.isPrintable = true ∧
      (Session.handle request s).2.Orderly limit source := by
  cases request with
  | object entries =>
    simp only [Session.handle]
    split
    · have hname := isWellFormed_requestedName hrequest
      exact ⟨isPrintable_refusal _ (by simp [hname]), hs⟩
    · next operation _ =>
      have hperforms := orderly_perform operation hrequest s hs
      rcases hrun : Act.run (perform operation entries) s with ⟨answer, t⟩
      rw [hrun] at hperforms
      cases answer with
      | ok results =>
        exact ⟨isPrintable_success operation hperforms.2, hperforms.1⟩
      | error fault => exact Orderly.refuse hperforms.1 operation hperforms.2
  | _ => exact ⟨isPrintable_refusal _ (isWellFormed_text _), hs⟩

theorem Orderly.handleEach (hs : s.Orderly limit source) {requests : List Json}
    (hrequests : ∀ request ∈ requests, request.isPrintable = true) :
    (∀ answer ∈ (Session.handleEach requests s).1, answer.isPrintable = true) ∧
      (Session.handleEach requests s).2.Orderly limit source := by
  induction requests generalizing s with
  | nil => exact ⟨nofun, hs⟩
  | cons request rest ih =>
    obtain ⟨hanswer, ht⟩ := hs.handle (hrequests request List.mem_cons_self)
    obtain ⟨hanswers, hlast⟩ := ih ht fun other hother =>
      hrequests other (List.mem_cons_of_mem request hother)
    rw [handleEach_cons]
    refine ⟨?_, hlast⟩
    intro found hfound
    rcases List.mem_cons.mp hfound with rfl | hfound
    · exact hanswer
    · exact hanswers found hfound

/-! ## The end of a session -/

theorem orderly_reportEntry (what : String) {entry : Text × EndpointId}
    {fault : Fault}
    (hentry : isWellFormed entry.1 = true) (hfault : fault.Legible) :
    Act.Upholds (Orderly limit source) Fault.Legible
      (reportEntry what entry fault) fun _ => True :=
  orderly_note _ (by simp [hentry, hfault.message])

theorem orderly_destroyAll (what : String) {d : Dict EndpointId}
    (hd : ∀ entry ∈ d, isWellFormed entry.1 = true) :
    Act.Upholds (Orderly limit source) Fault.Legible
      (Act.sweep destroyEntry (reportEntry what) d)
      fun faults => ∀ fault ∈ faults, fault.Legible :=
  .sweep (fun entry _ =>
    orderly_onFleet (Fleet.legible_destroyEndpoint entry.2))
    fun entry hentry _ hfault =>
      orderly_reportEntry what (hd entry hentry) hfault

theorem orderly_destroy :
    Act.Upholds (Orderly limit source) Fault.Legible destroy fun _ => True := by
  refine .bind orderly_ensureActive fun _ _ =>
    .bind Act.upholds_get fun s hs => ?_
  refine .bind (orderly_destroyAll "container" hs.containers)
    fun first hfirst => ?_
  refine .bind Act.upholds_get fun t ht => ?_
  refine .bind (orderly_destroyAll "robot" ht.robots) fun later hlater => ?_
  refine .bind (Act.upholds_modify fun u hu => hu.emptied) fun _ _ => ?_
  refine .bind Act.upholds_get fun u hu => ?_
  refine .bind (orderly_note _ (hu.remark (isWellFormed_text _))) fun _ _ => ?_
  apply Act.upholds_raiseStructural
  intro fault hfault
  rcases List.mem_append.mp hfault with hfault | hfault
  · exact hfirst fault hfault
  · exact hlater fault hfault

end Session
end FleetControl

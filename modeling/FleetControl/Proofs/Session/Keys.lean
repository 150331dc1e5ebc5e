import FleetControl.Proofs.Request.Handle
import FleetControl.Proofs.Text.Hex
import FleetControl.Proofs.Upholds

/-!
# The keys of a session

A session takes random bytes for the key of a robot that it admits, and for
nothing else.  Whatever is done with it, in any order and with any failures of
the random bytes and of the delegates, the keys that it makes are the
hexadecimal digits of the blocks of the stream, one block after the other:
`Session.KeyAccount`.  No byte is in two keys.

A key that has been made is spent, also when the delegate then
refuses the robot.
-/

namespace FleetControl
namespace Session

variable {s t u : Session} {id commId : Text}

/-! ## What keeps the random bytes -/

/-- No random bytes have been taken, and the limits are the same. -/
structure SameBytes (s t : Session) : Prop where
  limits_eq : t.limits = s.limits
  entropy_eq : t.entropy = s.entropy

namespace SameBytes

theorem refl (s : Session) : SameBytes s s :=
  ⟨rfl, rfl⟩

theorem trans (hst : SameBytes s t) (htu : SameBytes t u) : SameBytes s u :=
  ⟨htu.limits_eq.trans hst.limits_eq, htu.entropy_eq.trans hst.entropy_eq⟩

end SameBytes

theorem keeps_modify {change : Session → Session}
    (h : ∀ t, SameBytes t (change t)) :
    Act.Keeps (SameBytes s) (modify change) :=
  Act.upholds_modify fun t ht => ht.trans (h t)

theorem keeps_onFleet {α : Type} (act : Act Fleet α) :
    Act.Keeps (SameBytes s) (onFleet act) :=
  Act.keeps_of_run fun _ ht => ht.trans ⟨rfl, rfl⟩

theorem keeps_note (level : Log.Level) (message : Text) :
    Act.Keeps (SameBytes s) (note level message) :=
  keeps_onFleet _

theorem keeps_remark (what : Text) :
    Act.Keeps (SameBytes s) (do note .info ((← get).remark what)) :=
  .bind Act.upholds_get fun _ _ => keeps_note _ _

theorem keeps_ensureActive : Act.Keeps (SameBytes s) ensureActive :=
  .bind Act.upholds_get fun _ _ =>
    .ite (fun _ => Act.upholds_throw trivial) fun _ => Act.upholds_pure trivial

theorem keeps_robot (id : Text) : Act.Keeps (SameBytes s) (robot id) := by
  refine .bind Act.upholds_get fun t _ => ?_
  split
  · exact Act.upholds_pure trivial
  · exact Act.upholds_throw trivial

theorem keeps_container (tag : Text) :
    Act.Keeps (SameBytes s) (container tag) := by
  refine .bind Act.upholds_get fun t _ => ?_
  split
  · exact Act.upholds_pure trivial
  · exact Act.upholds_throw trivial

theorem keeps_interface (tag : Text) :
    Act.Keeps (SameBytes s) (interface tag) := by
  refine .bind Act.upholds_get fun t _ => ?_
  split
  · exact Act.upholds_pure trivial
  · exact Act.upholds_throw trivial

theorem keeps_retire (e : EndpointId) : Act.Keeps (SameBytes s) (retire e) := by
  have hforget : Act.Keeps (SameBytes s) (modify (·.forget e)) :=
    keeps_modify fun _ => ⟨rfl, rfl⟩
  refine .bind (.tryCatch (keeps_onFleet _) fun fault _ => ?_)
    fun _ _ => hforget
  exact hforget.bind fun _ _ => Act.upholds_throw trivial

theorem keeps_removeRobot (id : Text) :
    Act.Keeps (SameBytes s) (removeRobot id) := by
  refine .bind keeps_ensureActive fun _ _ =>
    .bind (keeps_robot id) fun e _ => ?_
  refine .bind (keeps_modify fun _ => ⟨rfl, rfl⟩) fun _ _ => ?_
  exact .bind (keeps_retire e) fun _ _ => keeps_remark _

theorem keeps_addContainer (tag commId : Text) :
    Act.Keeps (SameBytes s) (addContainer tag commId) := by
  refine .bind keeps_ensureActive fun _ _ => .bind Act.upholds_get fun t _ => ?_
  refine .unless (fun _ => trivial) fun _ =>
    .unless (fun _ => trivial) fun _ => ?_
  refine .bind (keeps_onFleet _) fun e _ => ?_
  exact .bind (keeps_modify fun _ => ⟨rfl, rfl⟩) fun _ _ => keeps_note _ _

theorem keeps_removeContainer (tag : Text) :
    Act.Keeps (SameBytes s) (removeContainer tag) := by
  refine .bind keeps_ensureActive fun _ _ =>
    .bind (keeps_container tag) fun e _ => ?_
  refine .bind (keeps_modify fun _ => ⟨rfl, rfl⟩) fun _ _ => ?_
  exact .bind (keeps_retire e) fun _ _ => keeps_remark _

theorem keeps_registerOrDrop (e : EndpointId) (i : InterfaceId)
    (address : Text) :
    Act.Keeps (SameBytes s) (registerOrDrop e i address) := by
  refine .tryCatch (keeps_onFleet _) fun fault _ => ?_
  refine .bind (.attempt (keeps_onFleet _) fun _ _ => Act.upholds_pure trivial)
    fun _ _ => ?_
  exact .bind (keeps_modify fun _ => ⟨rfl, rfl⟩) fun _ _ =>
    Act.upholds_throw trivial

theorem keeps_addInterface (containerTag tag address : Text) :
    Act.Keeps (SameBytes s) (addInterface containerTag tag address) := by
  refine .bind keeps_ensureActive fun _ _ => .bind Act.upholds_get fun t _ => ?_
  refine .unless (fun _ => trivial) fun _ =>
    .bind (keeps_container containerTag) fun e _ => ?_
  refine .bind (keeps_onFleet _) fun i _ =>
    .bind (keeps_registerOrDrop e i address) fun _ _ => ?_
  exact .bind (keeps_modify fun _ => ⟨rfl, rfl⟩) fun _ _ => keeps_remark _

theorem keeps_removeInterface (tag : Text) :
    Act.Keeps (SameBytes s) (removeInterface tag) := by
  refine .bind keeps_ensureActive fun _ _ =>
    .bind (keeps_interface tag) fun i _ => ?_
  have hrest : Act.Keeps (SameBytes s) (do
      modify fun session =>
        { session with
          interfaces := session.interfaces.erase tag
          fleet := session.fleet.dropInterface i }
      note .info ((← get).remark (text "removed interface " ++ tag.quoted))) :=
    .bind (keeps_modify fun _ => ⟨rfl, rfl⟩) fun _ _ => keeps_remark _
  refine .bind Act.upholds_get fun t _ => .ite (fun _ => ?_) fun _ => hrest
  exact .bind (keeps_onFleet _) fun _ _ => hrest

theorem keeps_destroyAll (what : String) (d : Dict EndpointId) :
    Act.Keeps (SameBytes s) (Act.sweep destroyEntry (reportEntry what) d) := by
  have hsweep : Act.Upholds (SameBytes s) (fun _ => True)
      (Act.sweep destroyEntry (reportEntry what) d) fun faults => ∀ fault ∈
      faults, True :=
    .sweep (fun _ _ => keeps_onFleet _) fun _ _ _ _ => keeps_note _ _
  exact Act.keeps_of_run fun t ht => (hsweep t ht).1

theorem keeps_destroy : Act.Keeps (SameBytes s) destroy := by
  refine .bind keeps_ensureActive fun _ _ => .bind Act.upholds_get fun t _ => ?_
  refine .bind (keeps_destroyAll "container" _) fun first _ =>
    .bind Act.upholds_get fun v _ => ?_
  refine .bind (keeps_destroyAll "robot" _) fun later _ => ?_
  refine .bind (keeps_modify fun _ => ⟨rfl, rfl⟩) fun _ _ =>
    .bind Act.upholds_get fun v _ => ?_
  exact .bind (keeps_note _ _) fun _ _ =>
    Act.upholds_raiseStructural fun _ _ => trivial

theorem keeps_close (s : Session) : SameBytes s s.close := by
  have hdestroy := (keeps_destroy s (.refl s)).1
  unfold close
  split
  · exact .refl s
  · rcases hrun : Act.run destroy s with ⟨answer, t⟩
    rw [hrun] at hdestroy
    cases answer with
    | ok _ => exact hdestroy
    | error fault => exact hdestroy.trans ⟨rfl, rfl⟩

/-- The key that a robot gets if it is asked for now, whether or not its
delegate accepts it. -/
def key? (s : Session) : Ask → Option Text
  | .addRobot id _ =>
    if s.Admits id then
      (Act.run (Entropy.newKey s.limits.keyBytes) s.entropy).1.toOption
    else none
  | _ => none

/-! ## Runs -/

/-- What may be done with a session: whatever can be asked of it, directly or
by a request, anything with its robots, containers and interfaces themselves,
and its end. -/
inductive Doing where
  | ask (ask : Ask)
  | request (request : Json)
  | onFleet (act : Act Fleet Unit)
  | destroy
  | close

namespace Doing

/-- The session afterwards, also if it has failed. -/
def after (s : Session) : Doing → Session
  | .ask asked => (Act.run asked.perform s).2
  | .request given => (Session.handle given s).2
  | .onFleet act => (Act.run (Session.onFleet act) s).2
  | .destroy => (Act.run Session.destroy s).2
  | .close => s.close

/-- The key that is made on the way. -/
def key? (s : Session) : Doing → Option Text
  | .ask asked => s.key? asked
  | .request given => given.ask?.bind s.key?
  | _ => none

end Doing

/-- All keys that are made on the way, in their order. -/
def keys : List Doing → Session → List Text
  | [], _ => []
  | doing :: rest, s => (doing.key? s).toList ++ keys rest (doing.after s)

/-- The bytes of the `k`-th key to come. -/
def keyBlock (s : Session) (k : Nat) : Text :=
  s.entropy.bytes (s.entropy.taken + k * s.limits.keyBytes) s.limits.keyBytes

/-- The keys have been made on the way from one session to the other, of one
block of the stream each. -/
structure Spends (s : Session) (keys : List Text) (t : Session) : Prop where
  limits_eq : t.limits = s.limits
  stream_eq : t.entropy.stream = s.entropy.stream
  taken_eq : t.entropy.taken = s.entropy.taken + keys.length * s.limits.keyBytes
  key_eq : ∀ k (hk : k < keys.length), keys[k] = Text.hex (s.keyBlock k)

namespace Spends

theorem of_taken (hlimits : t.limits = s.limits)
    (hstream : t.entropy.stream = s.entropy.stream)
    (htaken : t.entropy.taken = s.entropy.taken) : Spends s [] t where
  limits_eq := hlimits
  stream_eq := hstream
  taken_eq := by rw [htaken, List.length_nil, Nat.zero_mul, Nat.add_zero]
  key_eq := nofun

theorem of_sameBytes (h : SameBytes s t) : Spends s [] t :=
  of_taken h.limits_eq (by rw [h.entropy_eq]) (by rw [h.entropy_eq])

/-- The blocks to come are the same ones, counted from further on. -/
theorem keyBlock_eq {keys : List Text} (h : Spends s keys t) (k : Nat) :
    t.keyBlock k = s.keyBlock (keys.length + k) := by
  have hstart :
      s.entropy.taken + keys.length * s.limits.keyBytes +
        k * s.limits.keyBytes =
      s.entropy.taken + (keys.length + k) * s.limits.keyBytes := by
    rw [Nat.add_mul, Nat.add_assoc]
  simp only [keyBlock, Entropy.bytes, h.limits_eq, h.stream_eq, h.taken_eq,
    hstart]

theorem trans {first later : List Text} (hst : Spends s first t)
    (htu : Spends t later u) :
    Spends s (first ++ later) u where
  limits_eq := htu.limits_eq.trans hst.limits_eq
  stream_eq := htu.stream_eq.trans hst.stream_eq
  taken_eq := by
    rw [htu.taken_eq, hst.taken_eq, hst.limits_eq, List.length_append,
      Nat.add_mul, Nat.add_assoc]
  key_eq := by
    intro k hk
    rw [List.length_append] at hk
    by_cases hfirst : k < first.length
    · rw [List.getElem_append_left hfirst]
      exact hst.key_eq k hfirst
    · have hlater : k - first.length < later.length := by omega
      have hsum : first.length + (k - first.length) = k := by omega
      rw [List.getElem_append_right (Nat.not_lt.mp hfirst), htu.key_eq _ hlater,
        hst.keyBlock_eq, hsum]

theorem logged {keys : List Text} (h : Spends s keys t) (level : Log.Level)
    (message : Text) :
    Spends s keys (t.logged level message) :=
  ⟨h.limits_eq, h.stream_eq, h.taken_eq, h.key_eq⟩

/-- A key has been made of the next block. -/
theorem one (hlimits : t.limits = s.limits)
    (hentropy : t.entropy = s.entropy.drawn s.limits.keyBytes) :
    Spends s [Text.hex (s.keyBlock 0)] t where
  limits_eq := hlimits
  stream_eq := by rw [hentropy]; rfl
  taken_eq := by simp [hentropy, Entropy.drawn]
  key_eq := by
    intro k hk
    obtain rfl : k = 0 := by simpa using hk
    rfl

end Spends

/-- Adding a robot spends the key that it makes, and nothing else. -/
theorem spends_addRobot (s : Session) (id commId : Text) :
    Spends s (s.key? (.addRobot id commId)).toList
      (Act.run (addRobot id commId) s).2 := by
  by_cases hadmits : s.Admits id
  · rw [key?, if_pos hadmits, run_addRobot hadmits]
    by_cases hlength : Entropy.IsKeyLength s.limits.keyBytes
    · cases hfails : s.entropy.fails s.entropy.calls with
      | true =>
        rw [Entropy.run_newKey_of_fails hlength hfails]
        exact .of_taken rfl rfl rfl
      | false =>
        rw [Entropy.run_newKey_of_not_fails hlength hfails]
        have hblock : s.entropy.bytes s.entropy.taken s.limits.keyBytes =
            s.keyBlock 0 := by
          rw [keyBlock, Nat.zero_mul, Nat.add_zero]
        rw [hblock]
        dsimp only
        rcases Act.run (Fleet.newRobot true id commId (Text.hex (s.keyBlock 0))
          s.robotControl) s.fleet with ⟨fault | e, f⟩
        · exact .one rfl rfl
        · exact .one rfl rfl
    · rw [Entropy.run_newKey_of_not_isKeyLength hlength]
      exact .of_sameBytes (SameBytes.refl s)
  · obtain ⟨fault, hrun⟩ := run_addRobot_of_not_admits hadmits commId
    rw [key?, if_neg hadmits, hrun]
    exact .of_sameBytes (SameBytes.refl s)

theorem spends_of_keeps {α : Type} {act : Act Session α}
    (h : Act.Keeps (SameBytes s) act) :
    Spends s [] (Act.run act s).2 :=
  .of_sameBytes (h s (SameBytes.refl s)).1

theorem spends_ask (s : Session) (ask : Ask) :
    Spends s (s.key? ask).toList (Act.run ask.perform s).2 := by
  have hthen : ∀ {α : Type} {act : Act Session α}, Act.Keeps (SameBytes s) act →
      Act.Keeps (SameBytes s)
        (do let _ ← act; return ([] : List (Text × Json))) :=
    fun hact => .bind hact fun _ _ => Act.upholds_pure trivial
  cases ask with
  | addRobot id commId =>
    have hstate : (Act.run (Ask.perform (.addRobot id commId)) s).2 =
        (Act.run (addRobot id commId) s).2 := by
      rw [Ask.perform, Act.run_bind]
      rcases Act.run (addRobot id commId) s with ⟨fault | key, t⟩ <;> rfl
    rw [hstate]
    exact spends_addRobot s id commId
  | removeRobot id => exact spends_of_keeps (hthen (keeps_removeRobot id))
  | addContainer tag commId =>
    exact spends_of_keeps (hthen (keeps_addContainer tag commId))
  | removeContainer tag =>
    exact spends_of_keeps (hthen (keeps_removeContainer tag))
  | setConnected tag connected =>
    exact spends_of_keeps
      (.bind (keeps_container tag) fun _ _ => hthen (keeps_onFleet _))
  | graph container order =>
    exact spends_of_keeps
      (.bind (keeps_container container) fun _ _ => hthen (keeps_onFleet _))
  | addInterface container tag address =>
    exact spends_of_keeps (hthen (keeps_addInterface container tag address))
  | removeInterface tag =>
    exact spends_of_keeps (hthen (keeps_removeInterface tag))

theorem spends_request (s : Session) (request : Json) :
    Spends s (request.ask?.bind s.key?).toList (handle request s).2 := by
  cases hask : request.ask? with
  | none =>
    obtain ⟨message, t, hhandle, hsame | ⟨entry, hlogged⟩⟩ :=
      handle_of_ask?_eq_none hask s
    · rw [hhandle, hsame]
      exact .of_sameBytes (SameBytes.refl s)
    · rw [hhandle, hlogged]
      exact (Spends.of_sameBytes (SameBytes.refl s)).logged .error entry
  | some ask =>
    rw [handle_of_ask?_eq_some hask]
    have hask := spends_ask s ask
    unfold conclude
    split
    · exact hask
    · exact hask.logged _ _

/-- One doing spends the key that it makes, if it makes one. -/
theorem spends_doing (s : Session) (doing : Doing) :
    Spends s (doing.key? s).toList (doing.after s) := by
  cases doing with
  | ask ask => exact spends_ask s ask
  | request request => exact spends_request s request
  | onFleet act => exact spends_of_keeps (keeps_onFleet act)
  | destroy => exact spends_of_keeps keeps_destroy
  | close => exact .of_sameBytes (keeps_close s)

/-- A run spends the keys that are made on the way. -/
theorem spends_run (doings : List Doing) (s : Session) :
    Spends s (keys doings s) (doings.foldl Doing.after s) := by
  induction doings generalizing s with
  | nil => exact .of_sameBytes (SameBytes.refl s)
  | cons doing rest ih =>
    exact (spends_doing s doing).trans (ih (doing.after s))

/-! ## The account of the keys -/

/-- The key is the text of a block in small hexadecimal digits, from which the
block can be read. -/
structure Spells (key block : Text) : Prop where
  hex_eq : key = Text.hex block
  length_eq : key.length = 2 * block.length
  digits : ∀ b ∈ key, Text.isSmallHexDigit b = true
  unhex?_eq : Text.unhex? key = some block

theorem spells_hex (block : Text) : Spells (Text.hex block) block :=
  ⟨rfl, Text.length_hex block, fun _ => Text.isSmallHexDigit_of_mem_hex,
    Text.unhex?_hex block⟩

/-- No robot has been added and no command has been issued. -/
structure AddsNone (t u : Session) : Prop where
  robots_eq : u.robots = t.robots
  things : Fleet.SameThings t.fleet u.fleet
  commands_eq : u.fleet.commands = t.fleet.commands

/-- A robot that has been admitted has got its key: the delegate has accepted it
with this key, which the caller gets too, or there is no robot. -/
structure Provides (t : Session) (id key : Text) (result : Except Fault Text)
    (u : Session) :
    Prop where
  entropy_eq : u.entropy = t.entropy.drawn t.limits.keyBytes
  outcome : match result with
    | .ok given =>
      given = key ∧ u.robots = t.robots.insert id t.fleet.endpoints.next ∧
        ∃ c, t.robotControl = some c ∧
          u.fleet.commands = t.fleet.commands ++ [(c, .createRobot id key)]
    | .error _ => ¬ t.fleet.Obliging t.robotControl [.robot] ∧ t.AddsNone u

/-- How the keys that a session has made account for its random bytes, and what
adding a robot comes to then. -/
structure KeyAccount (s : Session) (keys : List Text) (t : Session) : Prop where
  /-- Each key has taken as many bytes as keys have, and nothing else has
  taken any. -/
  taken_eq : t.entropy.taken = s.entropy.taken + keys.length * s.limits.keyBytes
  /-- The `k`-th key spells the `k`-th block. -/
  spells : ∀ k (hk : k < keys.length), Spells keys[k] (s.keyBlock k)
  length_eq : ∀ key ∈ keys, key.length = 2 * s.limits.keyBytes
  /-- Different blocks give different keys. -/
  apart : ∀ j k (hj : j < keys.length) (hk : k < keys.length),
    s.keyBlock j ≠ s.keyBlock k → keys[j] ≠ keys[k]
  /-- A robot that is not admitted takes no bytes. -/
  refused : ∀ id commId, ¬ t.Admits id →
    ∃ fault, Act.run (addRobot id commId) t = (.error fault, t)
  /-- Keys of no valid length take no bytes. -/
  unfit : ∀ id commId, t.Admits id → ¬ Entropy.IsKeyLength s.limits.keyBytes →
    Act.run (addRobot id commId) t = (.error (.keyLength s.limits.keyBytes), t)
  /-- A failure of the random bytes takes none and leaves no robot. -/
  unlucky : ∀ id commId, t.Admits id → Entropy.IsKeyLength s.limits.keyBytes →
    t.entropy.fails t.entropy.calls = true →
      Act.run (addRobot id commId) t =
        (.error (.noRandomness t.entropy.reason), { t with
          entropy := t.entropy.failed })
  /-- Otherwise the robot gets a key of the next block. -/
  provides : ∀ id commId, t.Admits id → Entropy.IsKeyLength s.limits.keyBytes →
    t.entropy.fails t.entropy.calls = false →
      ∃ result u, Act.run (addRobot id commId) t = (result, u) ∧
        t.Provides id (Text.hex (s.keyBlock keys.length)) result u

theorem provides_of_admits (h : t.Admits id) (commId : Text)
    (hlength : Entropy.IsKeyLength t.limits.keyBytes)
    (hfails : t.entropy.fails t.entropy.calls = false) :
    ∃ result u, Act.run (addRobot id commId) t = (result, u) ∧
      t.Provides id (Text.hex (t.keyBlock 0)) result u := by
  have hblock : t.entropy.bytes t.entropy.taken t.limits.keyBytes =
      t.keyBlock 0 := by
    rw [keyBlock, Nat.zero_mul, Nat.add_zero]
  rw [run_addRobot h, Entropy.run_newKey_of_not_fails hlength hfails, hblock]
  dsimp only
  rcases Fleet.run_newRobot true id commId (Text.hex (t.keyBlock 0))
    t.robotControl t.fleet with
    ⟨c, f, hcontrol, -, hrobot, hcontinues, -, -⟩ |
    ⟨fault, f, hnot, hrobot, hcontinues, hsame⟩
  · refine ⟨_, _, by rw [hrobot], ?_⟩
    refine ⟨rfl, rfl, rfl, c, hcontrol, ?_⟩
    exact (Fleet.commands_log f _ _).trans hcontinues.commands_eq
  · refine ⟨_, _, by rw [hrobot], ?_⟩
    refine ⟨rfl, hnot, rfl, hsame, ?_⟩
    rw [hcontinues.commands_eq, List.append_nil]

/-- Whatever is done with a session, in any order and with any failures, its
keys never share a random byte: the `k`-th key that it makes spells the `k`-th
block of the stream.  The key that adding a robot gives is the one in the
command for it; without a command there is no robot, and without an admitted
robot no byte is taken. -/
theorem keyAccount_run (s : Session) (doings : List Doing) :
    KeyAccount s (keys doings s) (doings.foldl Doing.after s) := by
  have hspends := spends_run doings s
  have hspells : ∀ k (hk : k < (keys doings s).length),
      Spells (keys doings s)[k] (s.keyBlock k) := by
    intro k hk
    rw [hspends.key_eq k hk]
    exact spells_hex _
  refine ⟨hspends.taken_eq, hspells, ?_, ?_, ?_, ?_, ?_, ?_⟩
  · intro key hkey
    obtain ⟨k, hk, rfl⟩ := List.getElem_of_mem hkey
    rw [(hspells k hk).length_eq, keyBlock, Entropy.bytes, List.length_map,
      List.length_range]
  · intro j k hj hk hne heq
    apply hne
    rw [hspends.key_eq j hj, hspends.key_eq k hk] at heq
    exact Text.hex_injective heq
  · intro id commId hnot
    exact run_addRobot_of_not_admits hnot commId
  · intro id commId hadmits hlength
    rw [← hspends.limits_eq] at hlength ⊢
    rw [run_addRobot hadmits, Entropy.run_newKey_of_not_isKeyLength hlength]
  · intro id commId hadmits hlength hfails
    rw [← hspends.limits_eq] at hlength
    rw [run_addRobot hadmits, Entropy.run_newKey_of_fails hlength hfails]
  · intro id commId hadmits hlength hfails
    rw [← hspends.limits_eq] at hlength
    rw [← Nat.add_zero (keys doings s).length, ← hspends.keyBlock_eq]
    exact provides_of_admits hadmits commId hlength hfails

/-- A session with keys of two bytes.  Its first call for random bytes fails,
and its delegate refuses the second command. -/
def stinted : Session :=
  .new (text "user") (some 0) none ⟨10, 10, 2⟩
    ⟨UInt8.ofNat, fun call => call = 0, 0, 0, []⟩
    { Fleet.empty ⟨none, false, fun _ _ _ => none, 0⟩ with
      controls :=
        ⟨[(0, ⟨[.robot], fun n _ => if n = 1 then some .noControl
          else none, 0⟩)], 1⟩ }

/-- The key of a robot that is refused in the end is not used again. -/
example :
    let add := fun id => Doing.ask (.addRobot (text id) (text "m1"))
    keys [add "r1", add "r1", add "r1", add "r2", add "r2"] stinted =
      [text "0001", text "0203", text "0405"] := by
  cbv

end Session
end FleetControl

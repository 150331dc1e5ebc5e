import FleetControl.Proofs.Json.Line
import FleetControl.Proofs.Json.Reading
import FleetControl.Proofs.Log.Buffer
import FleetControl.Proofs.Program.Replay
import FleetControl.Proofs.Session.Legible
import FleetControl.Proofs.Session.Trace
import FleetControl.Proofs.Settings

/-!
# Runs that come to their end

A run whose settings and requests can be read, and whose journal can be opened,
comes to its end: it answers every request, destroys its session and sums up.
Nothing on the way can fail, because all texts have been read as JSON, so that
everything that is printed from them can be printed.
-/

namespace FleetControl

open Utf8

/-! ## Settings -/

namespace Settings

variable {settings : Settings} {key default : String} {t : Text}

end Settings

/-! ## Requests one after the other -/

namespace Session

end Session

namespace Program

/-- The settings of a run. -/
def settings (start : Start) : Settings :=
  (Settings.load start.files (settingsPath start)).1

/-- The session of a run before its requests. -/
def begun (start : Start) (userId : Text) : Session :=
  (newSession userId (settings start).limits start.entropy).logged .info
    (text "RCE master session " ++ userId.quoted ++ text " starting")

/-- The requests in a value; one that is no list has none. -/
def items : Json → List Json
  | .array items => items
  | _ => []

/-- The session of a run after the first requests. -/
def sessionAfter (start : Start) (userId : Text) (requests : Json) (n : Nat) :
    Session :=
  (Session.handleEach ((items requests).take n) (begun start userId)).2

/-- The summary of a run with a number of commands and the log entries that have
been kept. -/
def report (time : Int64) (commands : Nat) (kept : List Log.Entry) : Json :=
  .ofEntries
    [(text "commands", .ofNat commands),
      (text "errors", .ofNat (kept.countP fun entry => entry.level = .error)),
      (text "logs", .array (kept.map (Log.Entry.toJson time)))]

variable {start : Start} {userId : Text} {s t : Session}

/-- All that the session of a run is given; its only delegate is a journal, and
nobody listens. -/
def outside (start : Start) (userId : Text) : Outside where
  userId := userId
  robotControl := none
  containerControl := none
  limits := (settings start).limits
  entropy := start.entropy
  controls := .empty
  listener := ⟨none, false, fun _ _ _ => none, 0⟩

/-- The session of a run as it should be: all that is in it can be printed, and
whatever its journal has accepted has a line. -/
structure Proper (start : Start) (s : Session) : Prop where
  sound : s.Sound
  journaled : s.Journaled
  orderly : s.Orderly Settings.keyBytesLimit start.entropy
  lines : ∀ p ∈ s.fleet.commands, p.2.line?.isSome = true

/-- The end of a session calls each of its containers and robots once, and no
call raises a fault. -/
def EndsWithoutFault (s t : Session) : Prop :=
  ∃ containerCalls robotCalls, Session.EndsBy s containerCalls robotCalls t ∧
    Act.faults containerCalls = [] ∧ Act.faults robotCalls = []

namespace Proper

/-- A journal has a line for every command that it accepts. -/
theorem lines_of_continues (hs : Proper start s)
    {commands : List (ControlId × Command)}
    (h : Fleet.Continues s.fleet t.fleet commands) :
    ∀ p ∈ t.fleet.commands, p.2.line?.isSome = true := by
  intro p hp
  rw [h.commands_eq] at hp
  rcases List.mem_append.mp hp with hp | hp
  · exact hs.lines p hp
  · exact (Fleet.line?_of_accepts hs.journaled.nature_eq (h.accepted p hp)).2

theorem handleEach (hs : Proper start s) {requests : List Json}
    (h : ∀ request ∈ requests, request.isPrintable = true) :
    Proper start (Session.handleEach requests s).2 := by
  obtain ⟨commands, hcontinues, -⟩ := hs.sound.handleEach_continues requests
  exact ⟨hs.sound.handleEach requests,
    (hs.journaled.handleEach hs.sound requests).1, (hs.orderly.handleEach h).2,
    hs.lines_of_continues hcontinues.fleet⟩

theorem forgetHistory (hs : Proper start s) :
    Proper start (forgetHistory s) where
  sound :=
    ⟨hs.sound.active, hs.sound.holdings, hs.sound.manned, hs.sound.robots_le,
      hs.sound.containers_le⟩
  journaled := ⟨hs.journaled.robotControl_eq, hs.journaled.containerControl_eq,
    hs.journaled.nature_eq, hs.journaled.wellFormed⟩
  orderly :=
    hs.orderly.withFleet ⟨hs.orderly.fleet.controls, hs.orderly.fleet.endpoints,
      hs.orderly.fleet.interfaces, hs.orderly.fleet.listener, nofun⟩
  lines := nofun

theorem run_destroy (hs : Proper start s) :
    ∃ t, Act.run Session.destroy s = (.ok (), t) ∧ EndsWithoutFault s t ∧
      t.Orderly Settings.keyBytesLimit start.entropy ∧
      ∀ p ∈ t.fleet.commands, p.2.line?.isSome = true := by
  obtain ⟨t, hrun, -, -, -, -, hcontinues⟩ := hs.sound.run_destroy hs.journaled
  have hupholds := (Session.orderly_destroy s hs.orderly).1
  rw [hrun] at hupholds
  obtain ⟨containerCalls, robotCalls, u, hends, hrun'⟩ :=
    Session.run_destroy_endsBy hs.sound.active
  have hu : u = t := congrArg Prod.snd (hrun'.symm.trans hrun)
  subst hu
  exact ⟨u, hrun,
    ⟨containerCalls, robotCalls, hends,
      hs.sound.faults_eq_nil hs.journaled hends⟩,
    hupholds, hs.lines_of_continues hcontinues⟩

end Proper

/-- What the answers of a run are. -/
def Answers (start : Start) (userId : Text) : Json → List Json → Prop
  | .array list, answers => ∀ n, answers[n]? = list[n]?.map fun request =>
      (Session.handle request (sessionAfter start userId (.array list) n)).1
  | _, answers => answers =
      [Request.refusal "InvalidRequest" (text "Requests have to be a list.")]

/-- The course of the session of a run: it has given `answers` to the requests,
`s` is its state after them and `t` the one after its end. -/
structure Course (start : Start) (requests : Json) (userId : Text)
    (answers : List Json) (s t : Session) : Prop where
  /-- Each request has one answer, in the order of the requests; what is no list
  has one refusal. -/
  answers : Answers start userId requests answers
  state_eq : s = sessionAfter start userId requests (items requests).length
  /-- The end of the session raises nothing, neither as a whole nor at one of
  its things. -/
  ended : Act.run Session.destroy (forgetHistory s) = (.ok (), t)
  ends : EndsWithoutFault (forgetHistory s) t
  /-- No request fails because something could not be printed. -/
  not_json : ∀ n entries operation,
    (items requests)[n]? = some (.object entries) →
    (Act.run (Session.perform operation entries)
      (sessionAfter start userId requests n)).1 ≠ .error .json
  /-- The source of random bytes is only asked for keys of at least one byte and
  at most `Settings.keyBytesLimit` bytes, whichever request is next. -/
  keys : ∀ n, let u := sessionAfter start userId requests n
    0 < u.limits.keyBytes ∧ u.limits.keyBytes ≤ Settings.keyBytesLimit ∧
      Entropy.Asked Settings.keyBytesLimit start.entropy u.entropy
  keys_end : Entropy.Asked Settings.keyBytesLimit start.entropy t.entropy

/-- A run with a request that is carried out, one that is none, and a journal
in a file. -/
def plain : Start where
  arguments := [text "settings", text "requests"]
  files := ⟨[text "home"], [([text "home"], .folder),
    ([text "home", text "settings"], .file (text
      "\x7b\"user_id\": \"ann\", \"journal_path\": \"journal\", \"max_log_buffer\": 2\x7d")),
    ([text "home", text "requests"], .file (text
      "[\x7b\"op\": \"add_robot\", \"robot_id\": \"r\", \"comm_id\": \"c\"\x7d, 7]"))]⟩
  entropy := ⟨fun _ => 0, fun _ => false, 0, 0, text "no entropy"⟩
  time := 0

end Program
end FleetControl

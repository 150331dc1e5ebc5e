import FleetControl.Proofs.Request.Answer
import FleetControl.Proofs.Session.Perform

/-!
# What comes of a request

A request that cannot be read is answered at once, and every other one by what
its `Ask` comes to.  So each request to a sound session is a step of the session
with an answer that concludes it, and the session is sound again.
-/

namespace FleetControl

namespace Request

/-- An order to remove something is read from one field. -/
theorem exists_of_removalOrder_eq_ok {entries : Dict Json} {key : String}
    {order : Text → Order}
    {o : Order} (h : removalOrder entries key order = .ok o) :
    ∃ name, field entries key = .ok name ∧ o = order name := by
  obtain ⟨name, hname, h⟩ := exists_of_bind_eq_ok h
  cases h
  exact ⟨name, hname, rfl⟩

/-- What is asked for is the operation that is named, and the commands that it
comes to are about what the fields name. -/
theorem ask_spec {entries : Dict Json} {operation : Operation} {ask : Ask}
    (h : Request.ask entries operation = .ok ask) :
    ask.operation = operation ∧
      ask.entries = operation.entries (.object entries) := by
  cases operation with
  | addRobot =>
    obtain ⟨id, hid, h⟩ := exists_of_bind_eq_ok h
    obtain ⟨commId, -, h⟩ := exists_of_bind_eq_ok h
    cases h
    simp [Ask.operation, Ask.entries, Operation.entries, textAt_of_field hid]
  | removeRobot =>
    obtain ⟨id, hid, h⟩ := exists_of_bind_eq_ok h
    cases h
    simp [Ask.operation, Ask.entries, Operation.entries, textAt_of_field hid]
  | addContainer =>
    obtain ⟨tag, htag, h⟩ := exists_of_bind_eq_ok h
    obtain ⟨commId, -, h⟩ := exists_of_bind_eq_ok h
    cases h
    simp [Ask.operation, Ask.entries, Operation.entries, textAt_of_field htag]
  | removeContainer =>
    obtain ⟨tag, htag, h⟩ := exists_of_bind_eq_ok h
    cases h
    simp [Ask.operation, Ask.entries, Operation.entries, textAt_of_field htag]
  | setContainerConnected =>
    obtain ⟨connected, -, h⟩ := exists_of_bind_eq_ok h
    obtain ⟨tag, -, h⟩ := exists_of_bind_eq_ok h
    cases h
    exact ⟨rfl, rfl⟩
  | addNode =>
    obtain ⟨container, -, h⟩ := exists_of_bind_eq_ok h
    obtain ⟨order, horder, h⟩ := exists_of_bind_eq_ok h
    obtain ⟨tag, htag, horder⟩ := exists_of_bind_eq_ok horder
    obtain ⟨package, -, horder⟩ := exists_of_bind_eq_ok horder
    obtain ⟨executable, -, horder⟩ := exists_of_bind_eq_ok horder
    obtain ⟨args, -, horder⟩ := exists_of_bind_eq_ok horder
    obtain ⟨name, -, horder⟩ := exists_of_bind_eq_ok horder
    obtain ⟨namespaceName, -, horder⟩ := exists_of_bind_eq_ok horder
    cases horder
    cases h
    simp [Ask.operation, Order.operation, Ask.entries, Order.entry,
      Operation.entries, textAt_of_field htag]
  | removeNode =>
    obtain ⟨container, -, h⟩ := exists_of_bind_eq_ok h
    obtain ⟨order, horder, h⟩ := exists_of_bind_eq_ok h
    obtain ⟨tag, htag, rfl⟩ := exists_of_removalOrder_eq_ok horder
    cases h
    simp [Ask.operation, Order.operation, Ask.entries, Order.entry,
      Operation.entries, textAt_of_field htag]
  | addParameter =>
    obtain ⟨given, -, h⟩ := exists_of_bind_eq_ok h
    obtain ⟨container, -, h⟩ := exists_of_bind_eq_ok h
    obtain ⟨order, horder, h⟩ := exists_of_bind_eq_ok h
    obtain ⟨name, hname, horder⟩ := exists_of_bind_eq_ok horder
    obtain ⟨type, -, horder⟩ := exists_of_bind_eq_ok horder
    cases horder
    cases h
    simp [Ask.operation, Order.operation, Ask.entries, Order.entry,
      Operation.entries, textAt_of_field hname]
  | removeParameter =>
    obtain ⟨container, -, h⟩ := exists_of_bind_eq_ok h
    obtain ⟨order, horder, h⟩ := exists_of_bind_eq_ok h
    obtain ⟨name, hname, rfl⟩ := exists_of_removalOrder_eq_ok horder
    cases h
    simp [Ask.operation, Order.operation, Ask.entries, Order.entry,
      Operation.entries, textAt_of_field hname]
  | addInterface =>
    obtain ⟨container, -, h⟩ := exists_of_bind_eq_ok h
    obtain ⟨tag, -, h⟩ := exists_of_bind_eq_ok h
    obtain ⟨address, -, h⟩ := exists_of_bind_eq_ok h
    cases h
    exact ⟨rfl, rfl⟩
  | removeInterface =>
    obtain ⟨tag, -, h⟩ := exists_of_bind_eq_ok h
    cases h
    exact ⟨rfl, rfl⟩

end Request

namespace Session

open Request

variable {s t : Session}

/-- The log entry of a request that has been refused. -/
def refusalEntry (operation : Operation) (fault : Fault) : Log.Entry :=
  ⟨.error, text "[RequestHandler] " ++ operation.name
    ++ (if (answerClass fault.kind).2 then text ": " else text " failed: ")
    ++ fault.message⟩

/-- The answer to what an operation has come to, and the session after it. -/
def conclude (operation : Operation)
    (result : Except Fault (List (Text × Json))) (t : Session) :
    Json × Session :=
  match result with
  | .ok results => (success operation results, t)
  | .error fault =>
    (refusal (answerClass fault.kind).1 fault.message,
      t.logged .error (refusalEntry operation fault).message)

/-- A request that can be read is answered by what it asks for. -/
theorem handle_of_ask?_eq_some {request : Json} {ask : Ask}
    (h : request.ask? = some ask) (s : Session) :
    handle request s =
      conclude ask.operation (Act.run ask.perform s).1
        (Act.run ask.perform s).2 := by
  cases request with
  | object entries =>
    obtain ⟨operation, hname, h⟩ := Option.bind_eq_some_iff.mp h
    cases hask : Request.ask entries operation with
    | error fault => simp [hask, Except.toOption] at h
    | ok found =>
      have hfound : found = ask := by simpa [hask, Except.toOption] using h
      subst hfound
      have hrun : Act.run (perform operation entries) s =
          Act.run found.perform s := by
        have hreads := readsFirst_ask operation entries s
        rw [hask] at hreads
        exact hreads
      simp only [handle, hname, hrun, (ask_spec hask).1]
      rcases Act.run found.perform s with ⟨fault | results, t⟩
      · rfl
      · rfl
  | _ => cases h

/-- The commands that a request comes to are about what its fields name. -/
theorem entries_of_ask?_eq_some {request : Json} {ask : Ask}
    (h : request.ask? = some ask) :
    ask.entries = ask.operation.entries request := by
  cases request with
  | object entries =>
    obtain ⟨operation, -, h⟩ := Option.bind_eq_some_iff.mp h
    cases hask : Request.ask entries operation with
    | error fault => simp [hask, Except.toOption] at h
    | ok found =>
      have hfound : found = ask := by simpa [hask, Except.toOption] using h
      subst hfound
      obtain ⟨hoperation, hentries⟩ := ask_spec hask
      rw [hoperation, hentries]
  | _ => cases h

/-- A request that cannot be read is refused as invalid, and at most a log entry
is written. -/
theorem handle_of_ask?_eq_none {request : Json} (h : request.ask? = none)
    (s : Session) :
    ∃ message t, handle request s = (refusal "InvalidRequest" message, t) ∧
      (t = s ∨ ∃ entry, t = s.logged .error entry) := by
  cases request with
  | object entries =>
    cases hname : Operation.ofName? (requestedName entries) with
    | none =>
      refine ⟨text "Unknown operation " ++ (requestedName entries).quoted
        ++ text ".", s, ?_, Or.inl rfl⟩
      simp only [handle, hname]
    | some operation =>
      have hreads := readsFirst_ask operation entries s
      cases hask : Request.ask entries operation with
      | ok ask => simp [Json.ask?, hname, hask, Except.toOption] at h
      | error fault =>
        rw [hask] at hreads
        obtain ⟨found, hkind, hrun⟩ := hreads
        refine ⟨found.message,
          s.logged .error (refusalEntry operation found).message, ?_,
          Or.inr ⟨_, rfl⟩⟩
        simp only [handle, hname, hrun, refuse, refusalEntry, hkind,
          answerClass]
        rfl
  | _ => exact ⟨_, s, rfl, Or.inl rfl⟩

theorem entries_conclude {request : Json} {ask : Ask}
    (hask : request.ask? = some ask)
    (result : Except Fault (List (Text × Json))) (t : Session) :
    request.entries (conclude ask.operation result t).1 =
      entriesOf ask result := by
  cases result with
  | ok results =>
    simp only [conclude, entriesOf, entries_success]
    exact (entries_of_ask?_eq_some hask).symm
  | error fault =>
    simp only [conclude, entriesOf, entries_refusal]

theorem conclude_cases (operation : Operation)
    (result : Except Fault (List (Text × Json))) (t : Session) :
    (conclude operation result t).2 = t ∨
      ∃ message, (conclude operation result t).2 = t.logged .error message := by
  cases result with
  | ok results => exact Or.inl rfl
  | error fault => exact Or.inr ⟨_, rfl⟩

/-! ## Sound sessions -/

theorem Sound.logged (hs : s.Sound) (level : Log.Level) (message : Text) :
    (s.logged level message).Sound :=
  hs.of_holdings_eq (continues_logged s level message) rfl

/-- A request to a sound session cannot be read, or comes to a step of it. -/
theorem Sound.handle_cases (hs : s.Sound) (request : Json) :
    (∃ message t, request.ask? = none ∧
      handle request s = (refusal "InvalidRequest" message, t) ∧
      (t = s ∨ ∃ entry, t = s.logged .error entry)) ∨
    (∃ ask result t, request.ask? = some ask ∧ Step s ask result t ∧
      handle request s = conclude ask.operation result t) := by
  cases hask : request.ask? with
  | none =>
    obtain ⟨message, t, hhandle, ht⟩ := handle_of_ask?_eq_none hask s
    exact Or.inl ⟨message, t, rfl, hhandle, ht⟩
  | some ask =>
    obtain ⟨result, t, hrun, hstep⟩ := hs.performs ask
    refine Or.inr ⟨ask, result, t, rfl, hstep, ?_⟩
    rw [handle_of_ask?_eq_some hask, hrun]

/-- A request leaves a sound session sound. -/
theorem Sound.handle (hs : s.Sound) (request : Json) :
    (handle request s).2.Sound := by
  rcases hs.handle_cases request with
    ⟨message, t, -, hhandle, rfl | ⟨entry, rfl⟩⟩ |
      ⟨ask, result, t, -, hstep, hhandle⟩
  · rw [hhandle]
    exact hs
  · rw [hhandle]
    exact hs.logged .error entry
  · have ht := hstep.sound hs
    rw [hhandle]
    rcases conclude_cases ask.operation result t with heq | ⟨message, heq⟩
    · rw [heq]
      exact ht
    · rw [heq]
      exact ht.logged .error message

/-- A request goes on with the commands of its answer. -/
theorem Sound.handle_continues (hs : s.Sound) (request : Json) :
    ∃ commands, s.Continues (Session.handle request s).2 commands ∧
      commands.map (fun p => p.2.entry) =
        request.entries (Session.handle request s).1 := by
  rcases hs.handle_cases request with
    ⟨message, t, -, hhandle, ht⟩ | ⟨ask, result, t, hask, hstep, hhandle⟩
  · refine ⟨[], ?_, ?_⟩
    · rw [hhandle]
      rcases ht with rfl | ⟨entry, rfl⟩
      · exact Continues.refl t
      · exact continues_logged s .error entry
    · rw [hhandle, entries_refusal]
      rfl
  · obtain ⟨commands, hcontinues, hcommands⟩ := hstep.exists_continues
    refine ⟨commands, ?_, ?_⟩
    · rw [hhandle]
      rcases conclude_cases ask.operation result t with heq | ⟨message, heq⟩
      · rw [heq]
        exact hcontinues
      · rw [heq]
        exact hcontinues.trans_right (continues_logged t .error message)
    · rw [hhandle, entries_conclude hask, hcommands]

/-! ## Runs -/

theorem handleEach_cons (request : Json) (rest : List Json) (s : Session) :
    handleEach (request :: rest) s =
      ((Session.handle request s).1 ::
        (handleEach rest (Session.handle request s).2).1,
        (handleEach rest (Session.handle request s).2).2) :=
  rfl

theorem Sound.handleEach (hs : s.Sound) (requests : List Json) :
    (handleEach requests s).2.Sound := by
  induction requests generalizing s with
  | nil => exact hs
  | cons request rest ih =>
    rw [handleEach_cons]
    exact ih (hs.handle request)

/-- Requests go on with the commands of their answers, one request after
the other. -/
theorem Sound.handleEach_continues (hs : s.Sound) (requests : List Json) :
    ∃ commands, s.Continues (Session.handleEach requests s).2 commands ∧
      commands.map (fun p => p.2.entry) =
        (List.zipWith Json.entries requests
          (Session.handleEach requests s).1).flatten := by
  induction requests generalizing s with
  | nil => exact ⟨[], Continues.refl s, rfl⟩
  | cons request rest ih =>
    obtain ⟨first, hfirst, hentries⟩ := hs.handle_continues request
    obtain ⟨later, hlater, hentries'⟩ := ih (hs.handle request)
    refine ⟨first ++ later, ?_, ?_⟩
    · rw [handleEach_cons]
      exact hfirst.trans hlater
    · rw [handleEach_cons, List.map_append, hentries, hentries']
      rfl

end Session
end FleetControl

import FleetControl.Fleet.Endpoint
import FleetControl.Proofs.Store

/-!
# How a fleet goes on

Delegates and the listener stay who they are: between two states of a fleet only
the counts of their calls grow, and events are added to the history.
`Fleet.Continues` says this together with the commands that delegates have
accepted meanwhile; log entries and updates do not count as such.

The lemmas below follow `Fleet.issue`, `Fleet.notify` and
`Fleet.requireControl`, the only operations that meet a delegate or the
listener, and tell when each of them fails.
-/

namespace FleetControl

/-- The command that an event is about, with the delegate that has
accepted it. -/
def Event.command? : Event → Option (ControlId × Command)
  | .commanded c command => some (c, command)
  | _ => none

/-- The answer of an operation that raises the fault, if there is one. -/
def Fault.outcome : Option Fault → Except Fault Unit
  | none => .ok ()
  | some fault => .error fault

/-- The fault that those who hear the listener would raise at an update. -/
def Listener.objects (listener : Listener) (tag : Text) (connected : Bool) :
    Option Fault :=
  if listener.hears then listener.objection listener.calls tag connected
  else none

namespace Fleet

/-- The commands that delegates have accepted, oldest first. -/
def commands (fleet : Fleet) : List (ControlId × Command) :=
  fleet.history.reverse.filterMap Event.command?

/-- What a delegate can do and what it objects to, which is all of it but the
count of its calls. -/
def nature (fleet : Fleet) (c : ControlId) :
    Option (List Capability × (Nat → Command → Option Fault)) :=
  (fleet.controls.get? c).map fun delegate =>
    (delegate.capabilities, delegate.objection)

/-- The fault that a delegate would raise at a command now. -/
def objection? (fleet : Fleet) (c : ControlId) (command : Command) :
    Option Fault :=
  match fleet.controls.get? c with
  | none => some .noControl
  | some delegate => delegate.objection delegate.calls command

/-- The fleet after one more call to a delegate. -/
def called (fleet : Fleet) (c : ControlId) : Fleet :=
  { fleet with
    controls :=
      fleet.controls.modify c fun d => { d with calls := d.calls + 1 } }

/-- The fleet after the log entry of an update, if updates are logged. -/
def announced (fleet : Fleet) (tag : Text) (connected : Bool) : Fleet :=
  match fleet.listener.logsFor with
  | none => fleet
  | some userId =>
    fleet.log .info
      (text "[User] " ++ userId ++ text ": container " ++ tag.quoted
        ++ text " is now " ++ if connected then text "connected"
        else text "disconnected")

/-- The fleet after an update has been heard, if anyone hears it. -/
def heard (fleet : Fleet) (tag : Text) (connected : Bool) : Fleet :=
  if fleet.listener.hears then
    { fleet.record (.notified tag connected) with
      listener := { fleet.listener with calls := fleet.listener.calls + 1 } }
  else fleet

/-- There is a call at which the delegate would not object to the command. -/
def Accepts (fleet : Fleet) (c : ControlId) (command : Command) : Prop :=
  ∃ capabilities objection n,
    fleet.nature c = some (capabilities, objection) ∧ objection n command = none

/-- One state of a fleet comes after another one, in which delegates have
accepted the given commands meanwhile. -/
structure Continues (f g : Fleet) (commands : List (ControlId × Command)) :
    Prop where
  nature_eq : g.nature = f.nature
  logsFor_eq : g.listener.logsFor = f.listener.logsFor
  hears_eq : g.listener.hears = f.listener.hears
  objection_eq : g.listener.objection = f.listener.objection
  commands_eq : g.commands = f.commands ++ commands
  accepted : ∀ p ∈ commands, f.Accepts p.1 p.2

/-- Two states of a fleet have the same endpoints and interfaces. -/
structure SameThings (f g : Fleet) : Prop where
  endpoints_eq : g.endpoints = f.endpoints
  interfaces_eq : g.interfaces = f.interfaces

namespace SameThings

theorem refl (f : Fleet) : SameThings f f :=
  ⟨rfl, rfl⟩

theorem trans {f g h : Fleet} (hfg : SameThings f g) (hgh : SameThings g h) :
    SameThings f h :=
  ⟨hgh.endpoints_eq.trans hfg.endpoints_eq,
    hgh.interfaces_eq.trans hfg.interfaces_eq⟩

theorem endpoint_eq {f g : Fleet} (h : SameThings f g) (e : EndpointId) :
    g.endpoint e = f.endpoint e := by
  rw [endpoint, h.endpoints_eq, endpoint]

theorem interface_eq {f g : Fleet} (h : SameThings f g) (i : InterfaceId) :
    g.interface i = f.interface i := by
  rw [interface, h.interfaces_eq, interface]

end SameThings

/-! ## Events -/

@[simp]
theorem commands_log (fleet : Fleet) (level : Log.Level) (message : Text) :
    (fleet.log level message).commands = fleet.commands := by
  simp [commands, log, record, Event.command?]

@[simp]
theorem commands_record_commanded (fleet : Fleet) (c : ControlId)
    (command : Command) :
    (fleet.record (.commanded c command)).commands =
      fleet.commands ++ [(c, command)] := by
  simp [commands, record, Event.command?]

@[simp]
theorem commands_record_notified (fleet : Fleet) (tag : Text)
    (connected : Bool) :
    (fleet.record (.notified tag connected)).commands = fleet.commands := by
  simp [commands, record, Event.command?]

/-! ## Delegates -/

@[simp]
theorem nature_called (fleet : Fleet) (c : ControlId) :
    (fleet.called c).nature = fleet.nature := by
  funext other
  simp only [nature, called]
  by_cases hother : other = c
  · subst hother
    rw [Store.get?_modify_self, Option.map_map]
    rfl
  · rw [Store.get?_modify_of_ne _ hother]

/-- A delegate that does not object to a command now is there, and
accepts it. -/
theorem accepts_of_objection?_eq_none {fleet : Fleet} {c : ControlId}
    {command : Command}
    (h : fleet.objection? c command = none) : fleet.Accepts c command := by
  unfold objection? at h
  cases hget : fleet.controls.get? c with
  | none => simp [hget] at h
  | some delegate =>
    refine ⟨delegate.capabilities, delegate.objection, delegate.calls, ?_, ?_⟩
    · simp [nature, hget]
    · simpa [hget] using h

/-- A delegate that judges commands by their content does not
change its mind. -/
theorem objection?_eq {fleet : Fleet} {c : ControlId}
    {capabilities : List Capability} {objection : Command → Option Fault}
    (h : fleet.nature c = some (capabilities, fun _ => objection))
    (command : Command) :
    fleet.objection? c command = objection command := by
  obtain ⟨delegate, hget, heq⟩ := Option.map_eq_some_iff.mp h
  have hobjection : delegate.objection = fun _ => objection :=
    congrArg Prod.snd heq
  simp [objection?, hget, hobjection]

/-- A delegate that is there objects only for reasons of its own. -/
theorem objection?_eq_none {fleet : Fleet} {c : ControlId}
    {capabilities : List Capability}
    (h : fleet.nature c = some (capabilities, fun _ _ => none))
    (command : Command) :
    fleet.objection? c command = none :=
  objection?_eq h command

/-! ## Going on -/

namespace Continues

variable {f g h : Fleet} {first second : List (ControlId × Command)}

theorem refl (f : Fleet) : Continues f f [] :=
  ⟨rfl, rfl, rfl, rfl, by simp, by simp⟩

theorem accepts_iff (hfg : Continues f g first) (c : ControlId)
    (command : Command) :
    g.Accepts c command ↔ f.Accepts c command := by
  simp only [Accepts, hfg.nature_eq]

theorem trans (hfg : Continues f g first) (hgh : Continues g h second) :
    Continues f h (first ++ second) where
  nature_eq := hgh.nature_eq.trans hfg.nature_eq
  logsFor_eq := hgh.logsFor_eq.trans hfg.logsFor_eq
  hears_eq := hgh.hears_eq.trans hfg.hears_eq
  objection_eq := hgh.objection_eq.trans hfg.objection_eq
  commands_eq := by rw [hgh.commands_eq, hfg.commands_eq, List.append_assoc]
  accepted := by
    intro p hp
    rcases List.mem_append.mp hp with hp | hp
    · exact hfg.accepted p hp
    · exact (hfg.accepts_iff p.1 p.2).mp (hgh.accepted p hp)

theorem trans_left (hfg : Continues f g []) (hgh : Continues g h second) :
    Continues f h second := by
  simpa using hfg.trans hgh

theorem trans_right (hfg : Continues f g first) (hgh : Continues g h []) :
    Continues f h first := by
  simpa using hfg.trans hgh

end Continues

/-- A fleet goes on without a command when its delegates, its listener and its
history stay. -/
theorem continues_of_eq {f g : Fleet} (hcontrols : g.controls = f.controls)
    (hlistener : g.listener = f.listener) (hhistory : g.history = f.history) :
    Continues f g [] where
  nature_eq := by funext c; simp [nature, hcontrols]
  logsFor_eq := by rw [hlistener]
  hears_eq := by rw [hlistener]
  objection_eq := by rw [hlistener]
  commands_eq := by simp [commands, hhistory]
  accepted := by simp

theorem continues_log (f : Fleet) (level : Log.Level) (message : Text) :
    Continues f (f.log level message) [] :=
  ⟨rfl, rfl, rfl, rfl, by simp, by simp⟩

theorem continues_called (f : Fleet) (c : ControlId) :
    Continues f (f.called c) [] :=
  ⟨nature_called f c, rfl, rfl, rfl, by simp [called, commands], by simp⟩

theorem continues_commanded {f : Fleet} {c : ControlId} {command : Command}
    (h : f.objection? c command = none) :
    Continues f ((f.called c).record (.commanded c command))
      [(c, command)] where
  nature_eq := nature_called f c
  logsFor_eq := rfl
  hears_eq := rfl
  objection_eq := rfl
  commands_eq := by
    rw [commands_record_commanded]
    rfl
  accepted := by
    intro p hp
    rw [List.mem_singleton.mp hp]
    exact accepts_of_objection?_eq_none h

theorem continues_update (f : Fleet) (tag : Text) (connected : Bool) :
    Continues f ((f.announced tag connected).heard tag connected) [] := by
  have hannounced : Continues f (f.announced tag connected) [] := by
    unfold announced
    split
    · exact Continues.refl f
    · exact continues_log f _ _
  have hheard : ∀ g : Fleet, Continues g (g.heard tag connected) [] := by
    intro g
    unfold heard
    split
    · refine ⟨rfl, rfl, rfl, rfl, ?_, by simp⟩
      rw [List.append_nil]
      exact commands_record_notified g tag connected
    · exact Continues.refl g
  exact hannounced.trans_left (hheard _)

theorem sameThings_update (f : Fleet) (tag : Text) (connected : Bool) :
    SameThings f ((f.announced tag connected).heard tag connected) := by
  have hannounced : SameThings f (f.announced tag connected) := by
    unfold announced
    split
    · exact SameThings.refl f
    · exact ⟨rfl, rfl⟩
  have hheard : ∀ g : Fleet, SameThings g (g.heard tag connected) := by
    intro g
    unfold heard
    split
    · exact ⟨rfl, rfl⟩
    · exact SameThings.refl g
  exact hannounced.trans (hheard _)

/-! ## Meeting delegates and the listener -/

@[simp]
theorem run_note (level : Log.Level) (message : Text) (f : Fleet) :
    Act.run (note level message) f = (.ok (), f.log level message) :=
  rfl

/-- A command is recorded when the delegate accepts it; in both cases the
call counts. -/
theorem run_issue (c : ControlId) (command : Command) (f : Fleet) :
    Act.run (issue c command) f =
      match f.objection? c command with
      | none => (.ok (), (f.called c).record (.commanded c command))
      | some fault => (.error fault, f.called c) := by
  simp only [issue, Act.run_bind, Act.run_get, objection?]
  cases hget : f.controls.get? c with
  | none =>
    have hcalled : f.called c = f := by
      rw [called, Store.modify_of_get?_eq_none _ hget]
    simp [hcalled]
  | some delegate =>
    cases hobjection : delegate.objection delegate.calls command with
    | none => simp [Act.run_bind, hobjection, called]
    | some fault => simp [Act.run_bind, hobjection, called]

/-- An update is logged, then heard, and answered by those who hear it. -/
theorem run_notify (tag : Text) (connected : Bool) (f : Fleet) :
    Act.run (notify tag connected) f =
      (Fault.outcome (f.listener.objects tag connected),
        (f.announced tag connected).heard tag connected) := by
  simp only [notify, Act.run_bind, Act.run_get, announced, Listener.objects]
  cases hlogs : f.listener.logsFor with
  | none =>
    cases hhears : f.listener.hears with
    | false => simp [Fault.outcome, heard, hhears]
    | true =>
      cases hobjection :
          f.listener.objection f.listener.calls tag connected with
      | none => simp [Fault.outcome, heard, hhears]
      | some fault => simp [Fault.outcome, Act.run_bind, heard, hhears]
  | some userId =>
    cases hhears : f.listener.hears with
    | false => simp [Fault.outcome, heard, hhears, log, record]
    | true =>
      cases hobjection :
          f.listener.objection f.listener.calls tag connected with
      | none => simp [Fault.outcome, Act.run_bind, heard, hhears, log, record]
      | some fault =>
        simp [Fault.outcome, Act.run_bind, heard, hhears, log, record]

/-! ## The delegate of an endpoint -/

/-- The delegate is there, can do all that is needed, and objects to nothing. -/
def Obliging (fleet : Fleet) (control : Option ControlId)
    (needs : List Capability) : Prop :=
  ∃ c capabilities, control = some c ∧
    fleet.nature c = some (capabilities, fun _ _ => none) ∧
    ∀ need ∈ needs, need ∈ capabilities

/-- Asking for a delegate changes nothing, and an obliging one is
not refused. -/
theorem run_requireControl (needs : List Capability)
    (control : Option ControlId) (f : Fleet) :
    (∃ c, control = some c ∧ (f.nature c).isSome ∧
      Act.run (requireControl needs control) f = (.ok c, f)) ∨
    (∃ fault, ¬ f.Obliging control needs ∧
      Act.run (requireControl needs control) f = (.error fault, f)) := by
  simp only [requireControl, Act.run_bind, Act.run_get]
  cases control with
  | none =>
    refine Or.inr ⟨.noControl, ?_, by simp⟩
    rintro ⟨c, capabilities, hnone, -⟩
    simp at hnone
  | some c =>
    cases hget : f.controls.get? c with
    | none =>
      refine Or.inr ⟨.noControl, ?_, by simp [hget]⟩
      rintro ⟨c', capabilities, hc, hnature, -⟩
      cases hc
      simp [nature, hget] at hnature
    | some delegate =>
      simp only [Option.bind_some, hget, Option.map_some]
      cases hfind : needs.find? fun need => need ∉ delegate.capabilities with
      | none => exact Or.inl ⟨c, rfl, by simp [nature, hget], rfl⟩
      | some need =>
        refine Or.inr ⟨.lacks need, ?_, rfl⟩
        rintro ⟨c', capabilities, hc, hnature, hneeds⟩
        cases hc
        have hcapabilities : delegate.capabilities = capabilities := by
          simp only [nature, hget, Option.map_some, Option.some.injEq]
            at hnature
          exact congrArg Prod.fst hnature
        have hmissing : need ∉ delegate.capabilities := by
          simpa using List.find?_some hfind
        exact hmissing
          (hcapabilities ▸ hneeds need (List.mem_of_find?_eq_some hfind))

end Fleet
end FleetControl

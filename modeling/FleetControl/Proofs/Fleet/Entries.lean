import FleetControl.Proofs.Fleet.Endpoints

/-!
# The log of a fleet

The log entries of a fleet are those in its history.  `Fleet.Writes` says that
between two states only entries of a certain kind have been added.  Messages are
told apart by their beginnings, which name who is speaking: a session, one of
its endpoints, or an environment.
-/

namespace FleetControl

/-- The entry that an event adds to the log. -/
def Event.entry? : Event → Option Log.Entry
  | .logged entry => some entry
  | _ => none

/-- The message of an entry begins with the given words. -/
def Log.Entry.opensWith (words : String) (entry : Log.Entry) : Bool :=
  (text words).isPrefixOf entry.message

namespace Text

/-- Only as much of a text counts as what it is compared with is long. -/
theorem isPrefixOf_append {p t : Text} (h : p.length ≤ t.length) (rest : Text) :
    p.isPrefixOf (t ++ rest) = p.isPrefixOf t := by
  induction p generalizing t with
  | nil => rfl
  | cons b p ih =>
    cases t with
    | nil => simp at h
    | cons c t =>
      simp only [List.cons_append, List.isPrefixOf]
      rw [ih (by simpa using h)]

end Text

namespace Fleet

/-- The log entries of the fleet, oldest first. -/
def entries (fleet : Fleet) : List Log.Entry :=
  fleet.history.reverse.filterMap Event.entry?

@[simp]
theorem entries_log (f : Fleet) (level : Log.Level) (message : Text) :
    (f.log level message).entries = f.entries ++ [⟨level, message⟩] := by
  simp [entries, log, record, Event.entry?]

@[simp]
theorem entries_asked (f : Fleet) (message : Text) (c : ControlId) :
    (f.asked message c).entries = f.entries ++ [⟨.info, message⟩] :=
  entries_log f .info message

@[simp]
theorem entries_granted (f : Fleet) (message : Text) (c : ControlId)
    (command : Command) :
    (f.granted message c command).entries =
      f.entries ++ [⟨.info, message⟩] := by
  rw [← entries_asked f message c]
  simp [entries, granted, record, Event.entry?]

/-- Between the two states only log entries of a kind have been added
to the log. -/
def Writes (kind : Log.Entry → Prop) (f g : Fleet) : Prop :=
  ∃ added, g.entries = f.entries ++ added ∧ ∀ entry ∈ added, kind entry

variable {kind other : Log.Entry → Prop} {f g h : Fleet}

theorem writes_of_eq (heq : g.entries = f.entries) : Writes kind f g :=
  ⟨[], by simp [heq], nofun⟩

theorem writes_one {entry : Log.Entry} (heq : g.entries = f.entries ++ [entry])
    (hkind : kind entry) : Writes kind f g := by
  refine ⟨[entry], heq, ?_⟩
  intro found hfound
  rwa [List.mem_singleton.mp hfound]

theorem Writes.trans (hfg : Writes kind f g) (hgh : Writes kind g h) :
    Writes kind f h := by
  obtain ⟨first, hfirst, hkind⟩ := hfg
  obtain ⟨later, hlater, hkind'⟩ := hgh
  refine ⟨first ++ later, by rw [hlater, hfirst, List.append_assoc], ?_⟩
  intro entry hentry
  rcases List.mem_append.mp hentry with hentry | hentry
  · exact hkind entry hentry
  · exact hkind' entry hentry

theorem Writes.mono (hfg : Writes kind f g)
    (hkind : ∀ entry, kind entry → other entry) :
    Writes other f g := by
  obtain ⟨added, hadded, hall⟩ := hfg
  exact ⟨added, hadded, fun entry hentry => hkind entry (hall entry hentry)⟩

end Fleet
end FleetControl

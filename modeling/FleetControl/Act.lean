import FleetControl.Fault

/-!
# Operations that may fail

An operation on a state gives an answer or a fault, and in both cases the state
that it leaves: what it has changed before it fails stays changed.

`Act.sweep` runs an operation on each of several things, whatever it raises on
the earlier ones, and gives all faults in their order.  It is how endpoints and
sessions are torn down: every part gets its turn, and `Act.raiseStructural`
raises what is worth raising when all is done.
-/

namespace FleetControl

/-- An operation on states `σ` with answers `α`. -/
abbrev Act (σ α : Type) :=
  ExceptT Fault (StateM σ) α

namespace Act

variable {σ τ α β ι : Type}

/-- What an operation answers on a state, and the state that it leaves. -/
def run (act : Act σ α) (s : σ) : Except Fault α × σ :=
  StateT.run (ExceptT.run act) s

/-- The operation with the given answer and state. -/
def of (step : σ → Except Fault α × σ) : Act σ α :=
  ExceptT.mk step

/-- An operation on a part of the state. -/
def zoom (part : σ → τ) (put : τ → σ → σ) (act : Act τ α) : Act σ α :=
  of fun s =>
    let (answer, t) := run act (part s)
    (answer, put t s)

/-- The fault of an operation that has failed, after it has been reported;
nothing if it has not failed. -/
def attempt (act : Act σ Unit) (report : Fault → Act σ Unit) :
    Act σ (Option Fault) :=
  tryCatch (do act; pure none) fun fault => do
    report fault
    pure (some fault)

/-- Runs an operation on each of the things in turn, and gives the faults that
it has raised, each of which is reported at once. -/
def sweep (act : ι → Act σ Unit) (report : ι → Fault → Act σ Unit) :
    List ι → Act σ (List Fault)
  | [] => return []
  | i :: rest => do
    let first ← attempt (act i) (report i)
    let later ← sweep act report rest
    return first.toList ++ later

/-- Raises the first fault that shows a mismatch of registrations, if
there is one. -/
def raiseStructural (faults : List Fault) : Act σ Unit :=
  match faults.find? Fault.isStructural with
  | some fault => throw fault
  | none => return

@[simp]
theorem run_pure (a : α) (s : σ) : run (pure a : Act σ α) s = (.ok a, s) :=
  rfl

@[simp]
theorem run_throw (fault : Fault) (s : σ) :
    run (throw fault : Act σ α) s = (.error fault, s) :=
  rfl

@[simp]
theorem run_get (s : σ) : run (get : Act σ σ) s = (.ok s, s) :=
  rfl

@[simp]
theorem run_set (t s : σ) : run (set t : Act σ PUnit) s = (.ok ⟨⟩, t) :=
  rfl

@[simp]
theorem run_modify (f : σ → σ) (s : σ) :
    run (modify f : Act σ PUnit) s = (.ok ⟨⟩, f s) :=
  rfl

@[simp]
theorem run_of (step : σ → Except Fault α × σ) (s : σ) :
    run (of step) s = step s :=
  rfl

/-- An operation on a part answers as it does alone, and leaves the
other parts. -/
@[simp]
theorem run_zoom (part : σ → τ) (put : τ → σ → σ) (act : Act τ α) (s : σ) :
    run (zoom part put act) s =
      ((run act (part s)).1, put (run act (part s)).2 s) :=
  rfl

/-- An answer or a fault that is given already leaves the state. -/
@[simp]
theorem run_lift (answer : Except Fault α) (s : σ) :
    run (liftM answer : Act σ α) s = (answer, s) := by
  cases answer <;> rfl

/-- The second operation starts from what the first one leaves, and does not
start if that one fails. -/
theorem run_bind (act : Act σ α) (next : α → Act σ β) (s : σ) :
    run (act >>= next) s =
      match run act s with
      | (.ok a, t) => run (next a) t
      | (.error fault, t) => (.error fault, t) := by
  simp only [run, ExceptT.run_bind, StateT.run_bind]
  rcases StateT.run (ExceptT.run act) s with ⟨_ | _, _⟩ <;> rfl

/-- The answer is changed, and a fault stays. -/
@[simp]
theorem run_map (f : α → β) (act : Act σ α) (s : σ) :
    run (f <$> act) s =
      match run act s with
      | (.ok a, t) => (.ok (f a), t)
      | (.error fault, t) => (.error fault, t) := by
  rw [← bind_pure_comp, run_bind]
  rcases run act s with ⟨_ | _, _⟩ <;> rfl

/-- A handler starts from what the failed operation leaves. -/
theorem run_tryCatch (act : Act σ α) (handler : Fault → Act σ α) (s : σ) :
    run (tryCatch act handler) s =
      match run act s with
      | (.ok a, t) => (.ok a, t)
      | (.error fault, t) => run (handler fault) t := by
  show StateT.run (ExceptT.tryCatch act handler) s = _
  simp only [ExceptT.tryCatch, ExceptT.mk, StateT.run_bind]
  change (run act s >>= _ : Id _) = _
  rcases run act s with ⟨_ | _, _⟩ <;> rfl

/-- An attempt fails only if its report does. -/
theorem run_attempt (act : Act σ Unit) (report : Fault → Act σ Unit) (s : σ) :
    run (attempt act report) s =
      match run act s with
      | (.ok _, t) => (.ok none, t)
      | (.error fault, t) =>
        match run (report fault) t with
        | (.ok _, u) => (.ok (some fault), u)
        | (.error other, u) => (.error other, u) := by
  simp only [attempt, run_tryCatch, run_bind]
  rcases run act s with ⟨fault | _, t⟩
  · dsimp only
    rcases run (report fault) t with ⟨_ | _, _⟩ <;> rfl
  · rfl

end Act
end FleetControl

import FleetControl.Proofs.Fleet.Continues

/-!
# The calls of a sweep

A sweep calls its operation on each thing once and goes on whatever the call
answers: `Act.Swept` lists the calls, each of which starts from what the call
before it and its report have left.

What a sweep adds to a log is told by its calls.  If the calls write nothing of
a certain kind, then all that is written of that kind are the reports of the
calls that have failed, in their order.
-/

namespace FleetControl
namespace Act

variable {σ ι : Type} {act : ι → Act σ Unit} {report : ι → Fault → Act σ Unit}

/-- A call of an operation on a thing, and what it answers. -/
structure Call (ι : Type) where
  target : ι
  answer : Except Fault Unit

/-- The fault that a call has raised. -/
def Call.fault? (call : Call ι) : Option Fault :=
  match call.answer with
  | .ok _ => none
  | .error fault => some fault

/-- The faults that calls have raised, in the order of the calls. -/
def faults (calls : List (Call ι)) : List Fault :=
  calls.filterMap Call.fault?

@[simp]
theorem faults_cons_ok (i : ι) (done : Unit) (calls : List (Call ι)) :
    faults (⟨i, .ok done⟩ :: calls) = faults calls :=
  rfl

@[simp]
theorem faults_cons_error (i : ι) (fault : Fault) (calls : List (Call ι)) :
    faults (⟨i, .error fault⟩ :: calls) = fault :: faults calls :=
  rfl

/-- The state after an answer has been reported; only faults are. -/
def reported (report : ι → Fault → Act σ Unit) (i : ι)
    (answer : Except Fault Unit) (s : σ) : σ :=
  match answer with
  | .ok _ => s
  | .error fault => (run (report i fault) s).2

/-- The calls come one after the other, from the first state to the last one,
and each answer is reported before the next call. -/
inductive Swept (act : ι → Act σ Unit) (report : ι → Fault → Act σ Unit) :
    σ → List (Call ι) → σ → Prop where
  | done (s : σ) : Swept act report s [] s
  | call {i answer s t calls u} (hrun : run (act i) s = (answer, t))
      (hlater : Swept act report (reported report i answer t) calls u) :
      Swept act report s (⟨i, answer⟩ :: calls) u

/-- Reports that never fail. -/
def Reports (report : ι → Fault → Act σ Unit) : Prop :=
  ∀ i fault s, (run (report i fault) s).1 = .ok ()

/-- There are calls on all things in their order, from any state. -/
theorem exists_swept (is : List ι) (s : σ) :
    ∃ calls t, Swept act report s calls t ∧ calls.map Call.target = is := by
  induction is generalizing s with
  | nil => exact ⟨[], s, .done s, rfl⟩
  | cons i rest ih =>
    rcases hrun : run (act i) s with ⟨answer, t⟩
    obtain ⟨calls, u, hswept, htargets⟩ := ih (reported report i answer t)
    exact ⟨⟨i, answer⟩ :: calls, u, .call hrun hswept, by
      rw [List.map_cons, htargets]⟩

/-- A sweep gives the faults of its calls. -/
theorem Swept.run_sweep (hreport : Reports report) {s t : σ}
    {calls : List (Call ι)} (h : Swept act report s calls t) :
    run (sweep act report (calls.map Call.target)) s =
      (.ok (faults calls), t) := by
  induction h with
  | done s => rfl
  | @call i answer s t calls u hrun _ ih =>
    rw [List.map_cons]
    cases answer with
    | ok _ =>
      have hnext : run (sweep act report (calls.map Call.target)) t =
          (.ok (faults calls), u) := ih
      simp [sweep, run_bind, run_attempt, hrun, hnext]
    | error fault =>
      have hreported : run (report i fault) t =
          (.ok (), reported report i (.error fault) t) :=
        Prod.ext (hreport i fault t) rfl
      simp [sweep, run_bind, run_attempt, hrun, hreported, ih]

/-- A sweep calls its operation exactly once on each thing, in the order of
the things. -/
theorem run_sweep (hreport : Reports report) (is : List ι) (s : σ) :
    ∃ calls t, run (sweep act report is) s = (.ok (faults calls), t) ∧
      Swept act report s calls t ∧ calls.map Call.target = is := by
  obtain ⟨calls, t, hswept, htargets⟩ := exists_swept is s
  exact ⟨calls, t, htargets ▸ hswept.run_sweep hreport, hswept, htargets⟩

/-- The first fault that shows a mismatch of registrations is raised, and
nothing changes. -/
theorem run_raiseStructural (found : List Fault) (s : σ) :
    run (raiseStructural found) s =
      (Fault.outcome (found.find? Fault.isStructural), s) := by
  unfold raiseStructural
  cases found.find? Fault.isStructural with
  | none => rfl
  | some fault => rfl

/-- What calls and reports keep, a sweep keeps. -/
theorem Swept.keeps {P : σ → Prop} (hact : ∀ i s, P s → P (run (act i) s).2)
    (hreport : ∀ i fault s, P s → P (run (report i fault) s).2) {s t : σ}
    {calls : List (Call ι)}
    (h : Swept act report s calls t) (hs : P s) : P t := by
  induction h with
  | done s => exact hs
  | @call i answer s t calls u hrun hlater ih =>
    have ht : P t := by
      have hcalled := hact i s hs
      rwa [hrun] at hcalled
    apply ih
    cases answer with
    | ok _ => exact ht
    | error fault => exact hreport i fault t ht

/-- Of a certain kind of log entries, a sweep writes exactly the reports of its
faults, provided that the calls write none of that kind. -/
theorem Swept.filter_entries {entries : σ → List Log.Entry}
    {kind : Log.Entry → Bool} (wording : ι → Fault → Log.Entry) {P : σ → Prop}
    (hact : ∀ i s, P s → P (run (act i) s).2 ∧
      ∃ added, entries (run (act i) s).2 = entries s ++ added ∧
      added.filter kind = [])
    (hreport : ∀ i fault s, P s → P (run (report i fault) s).2 ∧
      entries (run (report i fault) s).2 = entries s ++ [wording i fault] ∧
      kind (wording i fault) = true)
    {s t : σ} {calls : List (Call ι)} (h : Swept act report s calls t)
    (hs : P s) :
    ∃ added, entries t = entries s ++ added ∧
      added.filter kind = calls.filterMap fun call =>
        call.fault?.map (wording call.target) := by
  induction h with
  | done s => exact ⟨[], by simp, rfl⟩
  | @call i answer s t calls u hrun hlater ih =>
    obtain ⟨ht, own, hown, hnone⟩ := hact i s hs
    rw [hrun] at ht hown
    cases answer with
    | ok _ =>
      obtain ⟨later, hlater, hfilter⟩ := ih ht
      refine ⟨own ++ later, ?_, ?_⟩
      · rw [hlater, ← List.append_assoc, ← hown]
        rfl
      · rw [List.filter_append, hnone, hfilter]
        rfl
    | error fault =>
      obtain ⟨hreported, hentry, hkind⟩ := hreport i fault t ht
      obtain ⟨later, hlater, hfilter⟩ := ih hreported
      refine ⟨own ++ [wording i fault] ++ later, ?_, ?_⟩
      · rw [hlater, ← List.append_assoc, ← List.append_assoc, ← hown, ← hentry]
        rfl
      · rw [List.filter_append, List.filter_append, hnone, hfilter,
          List.filter_cons, hkind]
        rfl

end Act
end FleetControl

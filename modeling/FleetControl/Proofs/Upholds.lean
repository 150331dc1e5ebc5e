import FleetControl.Act

/-!
# What operations uphold

`Act.Upholds` says of an operation that it keeps a property of the state,
whatever becomes of it, and tells what its answers and its faults are like.
There is a rule for each way in which operations are put together.
-/

namespace FleetControl
namespace Act

variable {σ τ α β ι : Type} {P : σ → Prop} {E : Fault → Prop}

/-- The operation keeps the property of the state; its answers have another
property, and so have the faults that it raises. -/
def Upholds (P : σ → Prop) (E : Fault → Prop) (act : Act σ α) (Q : α → Prop) :
    Prop :=
  ∀ s, P s → P (run act s).2 ∧
    match (run act s).1 with
    | .ok a => Q a
    | .error fault => E fault

/-- The operation keeps the property of the state, whatever it answers. -/
abbrev Keeps (P : σ → Prop) (act : Act σ α) : Prop :=
  Upholds P (fun _ => True) act fun _ => True

theorem keeps_of_run {act : Act σ α} (h : ∀ s, P s → P (run act s).2) :
    Keeps P act := by
  intro s hs
  refine ⟨h s hs, ?_⟩
  cases (run act s).1 with
  | ok a => trivial
  | error fault => trivial

theorem Upholds.bind {act : Act σ α} {next : α → Act σ β} {Q : α → Prop}
    {R : β → Prop}
    (hact : Upholds P E act Q) (hnext : ∀ a, Q a → Upholds P E (next a) R) :
    Upholds P E (act >>= next) R := by
  intro s hs
  have hfirst := hact s hs
  rw [run_bind]
  rcases hrun : run act s with ⟨answer, t⟩
  rw [hrun] at hfirst
  cases answer with
  | ok a => exact hnext a hfirst.2 t hfirst.1
  | error fault => exact hfirst

theorem upholds_pure {Q : α → Prop} {a : α} (h : Q a) :
    Upholds P E (pure a) Q :=
  fun _ hs => ⟨hs, h⟩

theorem upholds_throw {Q : α → Prop} {fault : Fault} (h : E fault) :
    Upholds P E (throw fault) Q :=
  fun _ hs => ⟨hs, h⟩

/-- The state that is read has the property that all states have. -/
theorem upholds_get : Upholds P E get P :=
  fun _ hs => ⟨hs, hs⟩

theorem upholds_set {t : σ} (h : P t) : Upholds P E (set t) fun _ => True :=
  fun _ _ => ⟨h, trivial⟩

theorem upholds_modify {change : σ → σ} (h : ∀ s, P s → P (change s)) :
    Upholds P E (modify change) fun _ => True :=
  fun s hs => ⟨h s hs, trivial⟩

theorem upholds_lift {Q : α → Prop} {answer : Except Fault α}
    (h : match answer with | .ok a => Q a | .error fault => E fault) :
    Upholds P E (liftM answer) Q := by
  intro s hs
  rw [run_lift]
  exact ⟨hs, h⟩

theorem Upholds.ite {c : Prop} [Decidable c] {yes no : Act σ α} {Q : α → Prop}
    (hyes : c → Upholds P E yes Q) (hno : ¬ c → Upholds P E no Q) :
    Upholds P E (if c then yes else no) Q := by
  split
  · next hc => exact hyes hc
  · next hc => exact hno hc

/-- A check comes before what it guards. -/
theorem Upholds.unless {c : Prop} [Decidable c] {fault : Fault}
    {next : PUnit → Act σ α} {Q : α → Prop} (hfault : c → E fault)
    (hnext : ¬ c → Upholds P E (next ⟨⟩) Q) :
    Upholds P E (if c then throw fault >>= next else next ⟨⟩) Q :=
  .ite (fun hc => .bind (Q := fun _ => False) (upholds_throw (hfault hc)) nofun)
    hnext

theorem Upholds.zoom {part : σ → τ} {put : τ → σ → σ} {act : Act τ α}
    {R : τ → Prop}
    {Q : α → Prop} (hact : Upholds R E act Q) (hpart : ∀ s, P s → R (part s))
    (hput : ∀ s t, P s → R t → P (put t s)) :
    Upholds P E (zoom part put act) Q := by
  intro s hs
  have hfirst := hact (part s) (hpart s hs)
  rw [run_zoom]
  exact ⟨hput s _ hs hfirst.1, hfirst.2⟩

theorem Upholds.tryCatch {act : Act σ α} {handler : Fault → Act σ α}
    {Q : α → Prop} (hact : Upholds P E act Q)
    (hhandler : ∀ fault, E fault → Upholds P E (handler fault) Q) :
    Upholds P E (tryCatch act handler) Q := by
  intro s hs
  have hfirst := hact s hs
  rw [run_tryCatch]
  rcases hrun : run act s with ⟨answer, t⟩
  rw [hrun] at hfirst
  cases answer with
  | ok a => exact hfirst
  | error fault => exact hhandler fault hfirst.2 t hfirst.1

theorem Upholds.attempt {act : Act σ Unit} {report : Fault → Act σ Unit}
    (hact : Upholds P E act fun _ => True)
    (hreport : ∀ fault, E fault → Upholds P E (report fault) fun _ => True) :
    Upholds P E (attempt act report) fun found => ∀ fault ∈ found, E fault := by
  apply Upholds.tryCatch
  · exact hact.bind fun _ _ => upholds_pure nofun
  · intro fault hfault
    refine (hreport fault hfault).bind fun _ _ => upholds_pure ?_
    intro found hfound
    cases hfound
    exact hfault

/-- What an operation and its report uphold, the sweep upholds, and the faults
that it gives are those of the operation. -/
theorem Upholds.sweep {act : ι → Act σ Unit} {report : ι → Fault → Act σ Unit}
    {is : List ι} (hact : ∀ i ∈ is, Upholds P E (act i) fun _ => True)
    (hreport : ∀ i ∈ is, ∀ fault, E fault →
      Upholds P E (report i fault) fun _ => True) :
    Upholds P E (sweep act report is) fun faults =>
      ∀ fault ∈ faults, E fault := by
  induction is with
  | nil => exact upholds_pure nofun
  | cons i rest ih =>
    have hfirst :=
      (hact i List.mem_cons_self).attempt (hreport i List.mem_cons_self)
    have hlater := ih (fun j hj => hact j (List.mem_cons_of_mem i hj))
      fun j hj => hreport j (List.mem_cons_of_mem i hj)
    refine hfirst.bind fun first hfirst => hlater.bind fun later hlater =>
      upholds_pure ?_
    intro fault hfault
    rcases List.mem_append.mp hfault with hfault | hfault
    · exact hfirst fault (Option.mem_toList.mp hfault)
    · exact hlater fault hfault

theorem upholds_raiseStructural {faults : List Fault}
    (h : ∀ fault ∈ faults, E fault) :
    Upholds P E (raiseStructural faults : Act σ Unit) fun _ => True := by
  unfold raiseStructural
  split
  · next fault hfound =>
      exact upholds_throw (h fault (List.mem_of_find?_eq_some hfound))
  · exact upholds_pure trivial

end Act
end FleetControl

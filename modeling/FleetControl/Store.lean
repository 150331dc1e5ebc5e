/-!
# Stores

A store hands out a fresh number for each thing put into it and lists the things
in the order in which they came.  A number is never used again, also after its
thing is gone.
-/

namespace FleetControl

/-- Things under numbers that the store itself hands out. -/
structure Store (α : Type) where
  entries : List (Nat × α)
  next : Nat

namespace Store

variable {α : Type}

/-- The store without a thing. -/
def empty : Store α :=
  ⟨[], 0⟩

/-- The thing under a number, unless it is gone or has never been. -/
def get? (s : Store α) (id : Nat) : Option α :=
  (s.entries.find? fun entry => entry.1 = id).map (·.2)

/-- The store with one thing more, under the next number. -/
def insert (s : Store α) (a : α) : Store α :=
  ⟨s.entries ++ [(s.next, a)], s.next + 1⟩

/-- The store with the thing under a number changed. -/
def modify (s : Store α) (id : Nat) (f : α → α) : Store α :=
  ⟨s.entries.map fun entry => if entry.1 = id then (entry.1, f entry.2)
    else entry, s.next⟩

/-- The store without the thing under a number. -/
def erase (s : Store α) (id : Nat) : Store α :=
  ⟨s.entries.filter fun entry => entry.1 ≠ id, s.next⟩

/-- How many things have a property. -/
def count (s : Store α) (p : α → Bool) : Nat :=
  s.entries.countP fun entry => p entry.2

/-- A change shows under its own number. -/
theorem get?_modify_self (s : Store α) (id : Nat) (f : α → α) :
    (s.modify id f).get? id = (s.get? id).map f := by
  simp only [get?, modify]
  induction s.entries with
  | nil => rfl
  | cons entry rest ih =>
    by_cases h : entry.1 = id
    · simp [h]
    · simpa [h] using ih

/-- A change does not show under other numbers. -/
theorem get?_modify_of_ne (s : Store α) {id other : Nat} (h : other ≠ id)
    (f : α → α) :
    (s.modify id f).get? other = s.get? other := by
  simp only [get?, modify]
  induction s.entries with
  | nil => rfl
  | cons entry rest ih =>
    by_cases hid : entry.1 = id
    · simpa [hid, Ne.symm h] using ih
    · by_cases hother : entry.1 = other
      · simp [hother, h]
      · simpa [hid, hother] using ih

/-- Losing a property makes its count smaller. -/
theorem count_modify_lt
    (s : Store α) (id : Nat) (f : α → α) (p : α → Bool) {a : α}
    (hget : s.get? id = some a) (hp : p a = true) (hf : ∀ b, p (f b) = false) :
    (s.modify id f).count p < s.count p := by
  have hle : ∀ entries : List (Nat × α),
      (entries.map fun entry => if entry.1 = id then (entry.1, f entry.2)
        else entry).countP
        (fun entry => p entry.2) ≤ entries.countP fun entry => p entry.2 := by
    intro entries
    induction entries with
    | nil => simp
    | cons entry rest ih =>
      simp only [List.map_cons, List.countP_cons]
      by_cases h : entry.1 = id
      · simp only [h, if_true, hf]
        simp only [Bool.false_eq_true, if_false]
        omega
      · simp only [h, if_false]
        omega
  simp only [get?, modify, count] at hget ⊢
  generalize s.entries = entries at hget ⊢
  induction entries with
  | nil => simp at hget
  | cons entry rest ih =>
    simp only [List.map_cons, List.countP_cons]
    by_cases h : entry.1 = id
    · have ha : entry.2 = a := by simpa [h] using hget
      have := hle rest
      simp only [h, if_true, hf, ha, hp]
      simp only [Bool.false_eq_true, if_false]
      omega
    · have := ih (by simpa [h] using hget)
      simp only [h, if_false]
      omega

end Store
end FleetControl

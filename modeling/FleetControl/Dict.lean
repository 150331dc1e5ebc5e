import FleetControl.Text

/-!
# Dictionaries

A dictionary lists its entries in strictly increasing byte order of their keys.
The objects of JSON and the tables of a session are dictionaries, so both are
walked in that order.
-/

namespace FleetControl

/-- Entries under text keys. -/
abbrev Dict (α : Type) := List (Text × α)

namespace Dict

variable {α : Type}

/-- The value under a key. -/
def get? (key : Text) (d : Dict α) : Option α :=
  (List.find? (fun entry => entry.1 = key) d).map (·.2)

/-- The dictionary has an entry under the key. -/
def contains (key : Text) (d : Dict α) : Bool :=
  (get? key d).isSome

/-- The dictionary with a value under the key, in place of an earlier one. -/
def insert (key : Text) (value : α) : Dict α → Dict α
  | [] => [(key, value)]
  | entry :: rest =>
    if key < entry.1 then (key, value) :: entry :: rest
    else if key = entry.1 then (key, value) :: rest
    else entry :: insert key value rest

/-- The dictionary without the entry under the key. -/
def erase (key : Text) (d : Dict α) : Dict α :=
  d.filter fun entry => entry.1 ≠ key

/-- The dictionary of a list of entries; of two entries under one key the
later stays. -/
def ofList (entries : List (Text × α)) : Dict α :=
  entries.foldl (fun d entry => insert entry.1 entry.2 d) []

/-- The entries stand in strictly increasing order of their keys. -/
def Sorted (d : Dict α) : Prop :=
  d.Pairwise fun a b => a.1 < b.1

/-- An inserted value is found under its key. -/
theorem get?_insert_self (key : Text) (value : α) (d : Dict α) :
    get? key (insert key value d) = some value := by
  induction d with
  | nil => simp [insert, get?]
  | cons entry rest ih =>
    simp only [insert]
    split
    · simp [get?]
    · split
      · simp [get?]
      · next hne =>
        rw [get?, List.find?_cons_of_neg (by simpa using Ne.symm hne)]
        exact ih

/-- Insertion under one key leaves what is found under the others. -/
theorem get?_insert_of_ne {key other : Text} (h : other ≠ key) (value : α)
    (d : Dict α) :
    get? other (insert key value d) = get? other d := by
  induction d with
  | nil => simp [insert, get?, Ne.symm h]
  | cons entry rest ih =>
    simp only [insert]
    split
    · simp [get?, Ne.symm h]
    · split
      · next heq => simp [get?, ← heq, Ne.symm h]
      · by_cases hentry : entry.1 = other
        · simp [get?, hentry]
        · simpa [get?, hentry] using ih

/-- Nothing is found under an erased key. -/
theorem get?_erase_self (key : Text) (d : Dict α) :
    get? key (erase key d) = none := by
  simp [get?, erase]

/-- Erasing one key leaves what is found under the others. -/
theorem get?_erase_of_ne {key other : Text} (h : other ≠ key) (d : Dict α) :
    get? other (erase key d) = get? other d := by
  induction d with
  | nil => rfl
  | cons entry rest ih =>
    by_cases hkey : entry.1 = key
    · simpa [get?, erase, hkey, Ne.symm h] using ih
    · by_cases hother : entry.1 = other
      · simp [get?, erase, hother, h]
      · simpa [get?, erase, hkey, hother] using ih

end Dict
end FleetControl

import Mathlib.Data.List.Basic
import FleetControl.Dict

/-!
# Sorted dictionaries

Insertion, deletion and selection keep a dictionary sorted.  In a sorted
dictionary each key has at most one value, so what is found under a key and what
is listed with it are the same, and the length is the number of keys.

`Dict.mapValues` changes the values and leaves the keys; it goes through all
other operations.
-/

namespace FleetControl

open scoped List

namespace Dict

variable {α β : Type} {d : Dict α} {key : Text} {value : α}

/-- The dictionary with every value changed. -/
def mapValues (f : α → β) (d : Dict α) : Dict β :=
  d.map fun entry => (entry.1, f entry.2)

/-! ## Keys -/

theorem contains_eq_true_iff :
    contains key d = true ↔ ∃ value, get? key d = some value := by
  simp [contains, Option.isSome_iff_exists]

theorem mem_keys_iff : key ∈ d.map (·.1) ↔ contains key d = true := by
  simp [contains, get?]

theorem contains_insert_eq_true_iff {other : Text} :
    contains other (insert key value d) = true ↔
      other = key ∨ contains other d = true := by
  by_cases hother : other = key
  · simp [contains, hother, get?_insert_self]
  · simp [contains, hother, get?_insert_of_ne hother]

theorem contains_erase_eq_true_iff {other : Text} :
    contains other (erase key d) = true ↔
      other ≠ key ∧ contains other d = true := by
  by_cases hother : other = key
  · simp [contains, hother, get?_erase_self]
  · simp [contains, hother, get?_erase_of_ne hother]

theorem mem_of_get? (h : get? key d = some value) : (key, value) ∈ d := by
  unfold get? at h
  obtain ⟨entry, hfind, rfl⟩ := Option.map_eq_some_iff.mp h
  have hkey : entry.1 = key := by simpa using List.find?_some hfind
  exact hkey ▸ List.mem_of_find?_eq_some hfind

theorem mem_insert {entry : Text × α} (h : entry ∈ insert key value d) :
    entry = (key, value) ∨ entry ∈ d := by
  induction d with
  | nil => simpa [insert] using h
  | cons head rest ih =>
    simp only [insert] at h
    split at h
    · simpa using h
    · split at h
      · rcases List.mem_cons.mp h with h | h
        · exact Or.inl h
        · exact Or.inr (List.mem_cons_of_mem _ h)
      · rcases List.mem_cons.mp h with rfl | h
        · exact Or.inr List.mem_cons_self
        · rcases ih h with h | h
          · exact Or.inl h
          · exact Or.inr (List.mem_cons_of_mem _ h)

theorem mem_foldl_insert {entries : List (Text × α)} {entry : Text × α}
    (h : entry ∈ entries.foldl (fun d entry => insert entry.1 entry.2 d) d) :
    entry ∈ entries ∨ entry ∈ d := by
  induction entries generalizing d with
  | nil => exact Or.inr h
  | cons first rest ih =>
    rcases ih h with hrest | hfirst
    · exact Or.inl (List.mem_cons_of_mem _ hrest)
    · rcases mem_insert hfirst with rfl | hd
      · exact Or.inl List.mem_cons_self
      · exact Or.inr hd

/-- A dictionary has no other entries than the list that it is made from. -/
theorem mem_of_mem_ofList {entries : List (Text × α)} {entry : Text × α}
    (h : entry ∈ ofList entries) : entry ∈ entries := by
  rcases mem_foldl_insert h with hmem | hnil
  · exact hmem
  · cases hnil

/-! ## Order -/

theorem sorted_nil : Sorted ([] : Dict α) :=
  List.Pairwise.nil

theorem Sorted.insert (h : Sorted d) (key : Text) (value : α) :
    Sorted (insert key value d) := by
  induction d with
  | nil => exact List.pairwise_singleton _ _
  | cons head rest ih =>
    have hhead : ∀ entry ∈ rest, head.1 < entry.1 := (List.pairwise_cons.mp h).1
    have hrest : Sorted rest := (List.pairwise_cons.mp h).2
    simp only [Dict.insert]
    split
    · next hlt =>
      refine List.pairwise_cons.mpr ⟨?_, h⟩
      intro entry hentry
      rcases List.mem_cons.mp hentry with rfl | hentry
      · exact hlt
      · exact List.lt_trans hlt (hhead entry hentry)
    · next hnlt =>
      split
      · next heq =>
        refine List.pairwise_cons.mpr ⟨?_, hrest⟩
        intro entry hentry
        exact heq ▸ hhead entry hentry
      · next hne =>
        refine List.pairwise_cons.mpr ⟨?_, ih hrest⟩
        intro entry hentry
        rcases mem_insert hentry with rfl | hentry
        · exact Std.lt_of_le_of_ne hnlt (Ne.symm hne)
        · exact hhead entry hentry

theorem Sorted.filter (h : Sorted d) (p : Text × α → Bool) :
    Sorted (List.filter p d) :=
  List.Pairwise.filter p h

theorem Sorted.mapValues (h : Sorted d) (f : α → β) : Sorted (mapValues f d) :=
  List.Pairwise.map _ (fun _ _ hlt => hlt) h

theorem Sorted.erase (h : Sorted d) (key : Text) : Sorted (erase key d) :=
  h.filter _

/-- In a sorted dictionary all that is listed is found. -/
theorem Sorted.get?_of_mem (h : Sorted d) (hmem : (key, value) ∈ d) :
    get? key d = some value := by
  induction d with
  | nil => simp at hmem
  | cons head rest ih =>
    have hhead := (List.pairwise_cons.mp h).1
    rcases List.mem_cons.mp hmem with rfl | hmem
    · simp [get?]
    · have hne : head.1 ≠ key := by
        intro heq
        exact List.lt_irrefl _ (heq ▸ hhead _ hmem)
      simpa [get?, hne] using ih (List.pairwise_cons.mp h).2 hmem

theorem Sorted.get?_eq_some_iff (h : Sorted d) :
    get? key d = some value ↔ (key, value) ∈ d :=
  ⟨mem_of_get?, h.get?_of_mem⟩

theorem Sorted.nodup_keys (h : Sorted d) : (d.map (·.1)).Nodup := by
  refine List.Pairwise.map _ ?_ h
  intro a b hlt heq
  exact List.lt_irrefl _ (heq ▸ hlt)

/-- Values that stand under one key each differ from each other. -/
theorem Sorted.nodup_values (h : Sorted d)
    (hinj : ∀ {key key' value}, get? key d = some value →
      get? key' d = some value → key = key') :
    (d.map (·.2)).Nodup := by
  rw [List.Nodup, List.pairwise_map]
  apply h.imp_of_mem
  intro entry other hentry hother hlt heq
  have hkey := hinj (h.get?_of_mem hentry) (heq ▸ h.get?_of_mem hother)
  exact List.lt_irrefl _ (hkey ▸ hlt)

/-- Sorted dictionaries in which the same is found are equal. -/
theorem Sorted.ext {d' : Dict α} (h : Sorted d) (h' : Sorted d')
    (hget : ∀ key, get? key d = get? key d') : d = d' := by
  have hnodup : ∀ {c : Dict α}, Sorted c → c.Nodup := by
    intro c hc
    refine List.Pairwise.imp ?_ hc
    intro a b hlt heq
    exact List.lt_irrefl _ (heq ▸ hlt)
  have hperm : d.Perm d' := by
    rw [List.perm_ext_iff_of_nodup (hnodup h) (hnodup h')]
    intro entry
    rw [← h.get?_eq_some_iff, ← h'.get?_eq_some_iff, hget]
  refine hperm.eq_of_pairwise ?_ h h'
  intro a b _ _ hab hba
  exact absurd (List.lt_trans hab hba) (List.lt_irrefl _)

theorem Sorted.get?_filter (h : Sorted d) (p : Text × α → Bool) :
    get? key (List.filter p d) = some value ↔
      get? key d = some value ∧ p (key, value) = true := by
  rw [(h.filter p).get?_eq_some_iff, h.get?_eq_some_iff, List.mem_filter]

/-! ## Length -/

theorem length_insert_of_not_contains (h : contains key d = false) (value : α) :
    (insert key value d).length = d.length + 1 := by
  induction d with
  | nil => rfl
  | cons head rest ih =>
    have hne : head.1 ≠ key := by
      rintro rfl
      simp [contains, get?] at h
    have hrest : contains key rest = false := by
      simpa [contains, get?, hne] using h
    simp only [insert]
    split
    · rfl
    · rw [if_neg (Ne.symm hne), List.length_cons, List.length_cons, ih hrest]

theorem length_erase_le (key : Text) (d : Dict α) :
    (erase key d).length ≤ d.length :=
  List.length_filter_le _ _

theorem length_erase_lt (h : get? key d = some value) :
    (erase key d).length < d.length := by
  apply List.length_filter_lt_length_iff_exists.mpr
  exact ⟨(key, value), mem_of_get? h, by simp⟩

/-- What is taken out leaves room for another entry under its key. -/
theorem room_erase {limit : Nat} (h : get? key d = some value)
    (hle : d.length ≤ limit) :
    contains key (erase key d) = false ∧ (erase key d).length < limit := by
  refine ⟨?_, Nat.lt_of_lt_of_le (length_erase_lt h) hle⟩
  rw [contains, get?_erase_self]
  rfl

/-! ## Values -/

@[simp]
theorem length_mapValues (f : α → β) (d : Dict α) :
    (mapValues f d).length = d.length := by
  simp [mapValues]

@[simp]
theorem get?_mapValues (f : α → β) (key : Text) (d : Dict α) :
    get? key (mapValues f d) = (get? key d).map f := by
  induction d with
  | nil => rfl
  | cons head rest ih =>
    by_cases hkey : head.1 = key
    · simp [get?, mapValues, hkey]
    · simpa [get?, mapValues, hkey] using ih

@[simp]
theorem contains_mapValues (f : α → β) (key : Text) (d : Dict α) :
    contains key (mapValues f d) = contains key d := by
  simp [contains]

theorem mapValues_insert (f : α → β) (key : Text) (value : α) (d : Dict α) :
    mapValues f (insert key value d) =
      insert key (f value) (mapValues f d) := by
  induction d with
  | nil => rfl
  | cons head rest ih =>
    have hcons : mapValues f (head :: rest) = (head.1, f head.2) ::
        mapValues f rest := rfl
    simp only [insert, hcons]
    split
    · rfl
    · split
      · rfl
      · rw [← ih]
        rfl

theorem mapValues_erase (f : α → β) (key : Text) (d : Dict α) :
    mapValues f (erase key d) = erase key (mapValues f d) := by
  simp [mapValues, erase, List.filter_map, Function.comp_def]

/-- A selection by the changed values can be made before the change. -/
theorem mapValues_filter (f : α → β) (p : Text × β → Bool) (d : Dict α) :
    mapValues f (List.filter (fun entry => p (entry.1, f entry.2)) d) =
      List.filter p (mapValues f d) := by
  simp [mapValues, List.filter_map, Function.comp_def]

theorem mapValues_congr {f g : α → β} (h : ∀ entry ∈ d, f entry.2 = g entry.2) :
    mapValues f d = mapValues g d := by
  apply List.map_congr_left
  intro entry hentry
  rw [h entry hentry]

/-! ## Lists of entries -/

theorem insert_perm (h : contains key d = false) (value : α) :
    insert key value d ~ (key, value) :: d := by
  induction d with
  | nil => exact .refl _
  | cons head rest ih =>
    rw [insert]
    split
    · exact .refl _
    · split
      · next heq =>
        have hfound : contains key (head :: rest) = true := by
          simp [contains, get?, heq]
        rw [hfound] at h
        cases h
      · next hne =>
        have hrest : contains key rest = false := by
          rw [← h]
          simp [contains, get?, Ne.symm hne]
        exact ((ih hrest).cons head).trans (.swap _ _ _)

theorem foldl_insert_perm {entries : List (Text × α)}
    (hkeys : (entries.map (·.1)).Nodup)
    (h : ∀ entry ∈ entries, contains entry.1 d = false) :
    entries.foldl (fun d entry => insert entry.1 entry.2 d) d ~
      entries ++ d := by
  induction entries generalizing d with
  | nil => exact .refl _
  | cons entry rest ih =>
    rw [List.map_cons, List.nodup_cons] at hkeys
    have hinsert := insert_perm (h entry List.mem_cons_self) entry.2
    have hrest : ∀ other ∈ rest,
        contains other.1 (insert entry.1 entry.2 d) = false := by
      intro other hother
      have hne : other.1 ≠ entry.1 := by
        intro heq
        exact hkeys.1 (heq ▸ List.mem_map_of_mem hother)
      rw [contains, get?_insert_of_ne hne]
      exact h other (List.mem_cons_of_mem _ hother)
    exact ((ih hkeys.2 hrest).trans (hinsert.append_left rest)).trans
      List.perm_middle

/-- Entries under keys of their own all stay in a dictionary. -/
theorem ofList_perm {entries : List (Text × α)}
    (hkeys : (entries.map (·.1)).Nodup) :
    ofList entries ~ entries := by
  have hperm := foldl_insert_perm hkeys (d := []) fun _ _ => rfl
  rwa [List.append_nil] at hperm

end Dict
end FleetControl

import FleetControl.Store

/-!
# Numbers of a store

A store is fresh when every number in use has been handed out already, and once;
then its next number stands for nothing yet.  Stores are compared through
`Store.restrict`, which keeps the things whose numbers have a property: what
happens to the other things does not show in it.
-/

namespace FleetControl
namespace Store

variable {α : Type}

/-- Every number in use has been handed out, and stands for one thing. -/
structure Fresh (s : Store α) : Prop where
  lt_next : ∀ entry ∈ s.entries, entry.1 < s.next
  nodup : (s.entries.map (·.1)).Nodup

/-- The things whose numbers have a property. -/
def restrict (s : Store α) (p : Nat → Bool) : Store α :=
  ⟨s.entries.filter fun entry => p entry.1, s.next⟩

/-! ## What is found -/

theorem mem_entries_of_get? {s : Store α} {id : Nat} {a : α}
    (h : s.get? id = some a) :
    (id, a) ∈ s.entries := by
  unfold get? at h
  obtain ⟨entry, hfind, rfl⟩ := Option.map_eq_some_iff.mp h
  have hid : entry.1 = id := by simpa using List.find?_some hfind
  exact hid ▸ List.mem_of_find?_eq_some hfind

@[simp]
theorem get?_empty (id : Nat) : (empty : Store α).get? id = none :=
  rfl

theorem get?_insert_next {s : Store α} (h : s.Fresh) (a : α) :
    (s.insert a).get? s.next = some a := by
  have hnone : s.entries.find? (fun entry => entry.1 = s.next) = none := by
    rw [List.find?_eq_none]
    intro entry hentry
    have hlt := h.lt_next entry hentry
    simp only [decide_eq_true_eq]
    omega
  simp [get?, insert, List.find?_append, hnone]

theorem get?_insert_of_ne (s : Store α) {id : Nat} (h : id ≠ s.next) (a : α) :
    (s.insert a).get? id = s.get? id := by
  simp [get?, insert, List.find?_append, Ne.symm h]

theorem get?_erase_self (s : Store α) (id : Nat) :
    (s.erase id).get? id = none := by
  simp [get?, erase]

theorem get?_restrict (s : Store α) (p : Nat → Bool) (id : Nat) :
    (s.restrict p).get? id = if p id then s.get? id else none := by
  simp only [get?, restrict]
  induction s.entries with
  | nil => simp
  | cons entry rest ih =>
    by_cases hid : entry.1 = id
    · by_cases hp : p id
      · simp [hid, hp]
      · simpa [hid, hp] using ih
    · by_cases hp : p entry.1
      · simpa [hid, hp] using ih
      · simpa [hid, hp] using ih

theorem get?_erase_of_ne (s : Store α) {id other : Nat} (h : other ≠ id) :
    (s.erase id).get? other = s.get? other := by
  have hrestrict := get?_restrict s (fun n => decide (n ≠ id)) other
  simpa [h, restrict, erase] using hrestrict

/-! ## Restricted stores -/

/-- A change does not show in a restriction that leaves its thing out. -/
theorem restrict_modify (s : Store α) {id : Nat} (f : α → α) {p : Nat → Bool}
    (h : p id = false) :
    (s.modify id f).restrict p = s.restrict p := by
  simp only [restrict, modify, mk.injEq, and_true]
  induction s.entries with
  | nil => rfl
  | cons entry rest ih =>
    by_cases hid : entry.1 = id
    · simpa [hid, h] using ih
    · by_cases hp : p entry.1
      · simpa [hid, hp] using ih
      · simpa [hid, hp] using ih

theorem restrict_erase (s : Store α) (id : Nat) (p : Nat → Bool) :
    (s.erase id).restrict p = s.restrict fun n => n ≠ id && p n := by
  simp [restrict, erase, List.filter_filter, Bool.and_comm]

/-- Stores with the same restriction have the same narrower restrictions. -/
theorem restrict_eq_of_imp {s t : Store α} {p q : Nat → Bool}
    (h : s.restrict p = t.restrict p)
    (hqp : ∀ n, q n = true → p n = true) : s.restrict q = t.restrict q := by
  have hnarrow : ∀ u : Store α, (u.restrict p).restrict q = u.restrict q := by
    intro u
    simp only [restrict, List.filter_filter, mk.injEq, and_true]
    apply List.filter_congr
    intro entry _
    cases hq : q entry.1 with
    | false => rfl
    | true => simp [hqp _ hq]
  rw [← hnarrow s, h, hnarrow t]

@[simp]
theorem restrict_true (s : Store α) : (s.restrict fun _ => true) = s := by
  have hall : s.entries.filter (fun _ => true) = s.entries := by simp
  rw [restrict, hall]

theorem erase_modify_self (s : Store α) (id : Nat) (f : α → α) :
    (s.modify id f).erase id = s.erase id := by
  have hout : decide (id ≠ id) = false := by simp
  exact restrict_modify s f (p := fun n => decide (n ≠ id)) hout

theorem modify_of_get?_eq_none {s : Store α} {n : Nat} (f : α → α)
    (h : s.get? n = none) :
    s.modify n f = s := by
  simp only [get?, Option.map_eq_none_iff, List.find?_eq_none,
    decide_eq_true_eq] at h
  have hmap : (s.entries.map fun entry =>
      if entry.1 = n then (entry.1, f entry.2) else entry) = s.entries := by
    calc
      _ = s.entries.map id := by
        apply List.map_congr_left
        intro entry hentry
        simp [h entry hentry]
      _ = s.entries := List.map_id s.entries
  rw [modify, hmap]

theorem modify_modify (s : Store α) (id : Nat) (f g : α → α) :
    (s.modify id f).modify id g = s.modify id fun a => g (f a) := by
  simp only [modify, List.map_map, mk.injEq, and_true]
  apply List.map_congr_left
  intro entry _
  by_cases hid : entry.1 = id
  · simp [hid]
  · simp [hid]

/-! ## Fresh stores -/

theorem fresh_empty : (empty : Store α).Fresh :=
  ⟨nofun, List.nodup_nil⟩

theorem Fresh.get?_next {s : Store α} (h : s.Fresh) : s.get? s.next = none := by
  cases hget : s.get? s.next with
  | none => rfl
  | some a =>
    have hlt := h.lt_next _ (mem_entries_of_get? hget)
    simp at hlt

theorem Fresh.get?_of_mem {s : Store α} (h : s.Fresh) {id : Nat} {a : α}
    (hmem : (id, a) ∈ s.entries) : s.get? id = some a := by
  have hnodup := h.nodup
  unfold get?
  generalize s.entries = entries at hmem hnodup
  induction entries with
  | nil => simp at hmem
  | cons entry rest ih =>
    obtain ⟨hnot, hrest⟩ := List.nodup_cons.mp hnodup
    rcases List.mem_cons.mp hmem with rfl | hmem
    · simp
    · have hne : entry.1 ≠ id := by
        rintro rfl
        exact hnot (List.mem_map.mpr ⟨_, hmem, rfl⟩)
      simpa [hne] using ih hmem hrest

/-- A change is what it does to the thing that is found. -/
theorem Fresh.modify_congr {s : Store α} (h : s.Fresh) {id : Nat} {a : α}
    {f g : α → α} (hget : s.get? id = some a) (hfg : f a = g a) :
    s.modify id f = s.modify id g := by
  simp only [Store.modify, mk.injEq, and_true]
  apply List.map_congr_left
  intro entry hentry
  by_cases hid : entry.1 = id
  · have heq : entry.2 = a := by
      subst hid
      exact Option.some.inj ((h.get?_of_mem hentry).symm.trans hget)
    simp [hid, heq, hfg]
  · simp [hid]

/-- A change of the newest thing shows in it alone. -/
theorem Fresh.modify_insert_next {s : Store α} (h : s.Fresh) (a : α)
    (f : α → α) :
    (s.insert a).modify s.next f = s.insert (f a) := by
  have hold : s.entries.map (fun entry =>
      if entry.1 = s.next then (entry.1, f entry.2) else entry) =
        s.entries := by
    calc
      _ = s.entries.map id := by
        apply List.map_congr_left
        intro entry hentry
        simp [Nat.ne_of_lt (h.lt_next entry hentry)]
      _ = s.entries := List.map_id s.entries
  simp [Store.modify, Store.insert, hold]

theorem Fresh.insert {s : Store α} (h : s.Fresh) (a : α) :
    (s.insert a).Fresh := by
  constructor
  · intro entry hentry
    simp only [Store.insert, List.mem_append, List.mem_singleton] at hentry ⊢
    rcases hentry with hentry | rfl
    · exact Nat.lt_succ_of_lt (h.lt_next entry hentry)
    · exact Nat.lt_succ_self _
  · simp only [Store.insert, List.map_append, List.nodup_append]
    refine ⟨h.nodup, List.pairwise_singleton _ _, ?_⟩
    intro old hold new hnew heq
    obtain ⟨entry, hentry, rfl⟩ := List.mem_map.mp hold
    have hlt := h.lt_next entry hentry
    have hnext : new = s.next := by simpa using hnew
    omega

theorem Fresh.modify {s : Store α} (h : s.Fresh) (id : Nat) (f : α → α) :
    (s.modify id f).Fresh := by
  have hkeys : (s.modify id f).entries.map (·.1) = s.entries.map (·.1) := by
    simp only [Store.modify, List.map_map]
    apply List.map_congr_left
    intro entry _
    simp only [Function.comp_apply]
    split <;> rfl
  refine ⟨?_, hkeys ▸ h.nodup⟩
  intro entry hentry
  obtain ⟨old, hold, rfl⟩ := List.mem_map.mp hentry
  have hlt := h.lt_next old hold
  split <;> exact hlt

theorem Fresh.restrict {s : Store α} (h : s.Fresh) (p : Nat → Bool) :
    (s.restrict p).Fresh := by
  refine ⟨?_, ?_⟩
  · intro entry hentry
    exact h.lt_next entry (List.mem_filter.mp hentry).1
  · exact h.nodup.sublist (List.Sublist.map _ (List.filter_sublist))

theorem Fresh.erase {s : Store α} (h : s.Fresh) (id : Nat) :
    (s.erase id).Fresh :=
  h.restrict fun n => n ≠ id

/-! ## What all things have -/

/-- All things in the store have a property. -/
def All (p : α → Prop) (s : Store α) : Prop :=
  ∀ entry ∈ s.entries, p entry.2

namespace All

variable {p : α → Prop} {s : Store α}

theorem of_get? (h : s.All p) {id : Nat} {a : α} (hget : s.get? id = some a) :
    p a :=
  h (id, a) (mem_entries_of_get? hget)

theorem getD (h : s.All p) (id : Nat) {default : α} (hdefault : p default) :
    p ((s.get? id).getD default) := by
  cases hget : s.get? id with
  | none => exact hdefault
  | some a => exact h.of_get? hget

theorem insert (h : s.All p) {a : α} (ha : p a) : (s.insert a).All p := by
  intro entry hentry
  rcases List.mem_append.mp hentry with hentry | hentry
  · exact h entry hentry
  · rw [List.mem_singleton.mp hentry]
    exact ha

theorem modify (h : s.All p) (id : Nat) {change : α → α}
    (hchange : ∀ a, p a → p (change a)) :
    (s.modify id change).All p := by
  intro entry hentry
  obtain ⟨old, hold, rfl⟩ := List.mem_map.mp hentry
  split
  · exact hchange old.2 (h old hold)
  · exact h old hold

theorem erase (h : s.All p) (id : Nat) : (s.erase id).All p :=
  fun entry hentry => h entry (List.mem_filter.mp hentry).1

end All

end Store
end FleetControl

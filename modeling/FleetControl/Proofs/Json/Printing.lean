import FleetControl.Json.Printer
import FleetControl.Proofs.Dict
import FleetControl.Proofs.Request.Answer
import FleetControl.Proofs.Text.Utf8

/-!
# Values that can be printed

A value has a written form when all strings and keys in it are well formed.  So
has everything that is found in it, and an object has one as soon as its keys
and what stands under them have.
-/

namespace FleetControl
namespace Json

@[simp]
theorem isPrintable_string (t : Text) :
    (string t).isPrintable = Utf8.isWellFormed t := by
  rw [isPrintable]

@[simp]
theorem isPrintable_str (s : String) : (str s).isPrintable = true := by
  rw [str, isPrintable_string, Utf8.isWellFormed_text]

@[simp]
theorem isPrintable_signed (n : Int64) : (signed n).isPrintable = true :=
  rfl

@[simp]
theorem isPrintable_ofNat (n : Nat) : (ofNat n).isPrintable = true :=
  rfl

/-- Entries can be printed when each key is well formed and each value can
be printed. -/
theorem entriesPrintable_iff (entries : List (Text × Json)) :
    entriesPrintable entries = true ↔
      ∀ entry ∈ entries, Utf8.isWellFormed entry.1 = true ∧
      entry.2.isPrintable = true := by
  induction entries with
  | nil => simp [entriesPrintable]
  | cons entry rest ih => simp [entriesPrintable, ih, and_assoc]

theorem itemsPrintable_iff (items : List Json) :
    itemsPrintable items = true ↔ ∀ item ∈ items, item.isPrintable = true := by
  induction items with
  | nil => simp [itemsPrintable]
  | cons item rest ih => simp [itemsPrintable, ih]

/-- What is found in an object that can be printed can be printed. -/
theorem isPrintable_of_member? {value found : Json} {key : String}
    (h : value.isPrintable = true)
    (hfound : value.member? key = some found) : found.isPrintable = true := by
  cases value with
  | object entries =>
    rw [isPrintable, entriesPrintable_iff] at h
    exact (h _ (Dict.mem_of_get? hfound)).2
  | _ => cases hfound

theorem isWellFormed_of_text? {value : Json} {t : Text}
    (h : value.isPrintable = true)
    (ht : value.text? = some t) : Utf8.isWellFormed t = true := by
  cases value with
  | string _ =>
    cases ht
    exact h
  | _ => cases ht

/-- An object can be printed when its keys are well formed and what stands under
them can be printed. -/
theorem isPrintable_ofEntries {entries : List (Text × Json)}
    (h : ∀ entry ∈ entries, Utf8.isWellFormed entry.1 = true ∧
      entry.2.isPrintable = true) :
    (ofEntries entries).isPrintable = true := by
  rw [ofEntries, isPrintable, entriesPrintable_iff]
  intro entry hentry
  exact h entry (Dict.mem_of_mem_ofList hentry)

/-- Under keys of their own, all entries count. -/
theorem isPrintable_ofEntries_iff {entries : List (Text × Json)}
    (hkeys : (entries.map (·.1)).Nodup) :
    (ofEntries entries).isPrintable = true ↔
      ∀ entry ∈ entries, Utf8.isWellFormed entry.1 = true ∧
      entry.2.isPrintable = true := by
  rw [ofEntries, isPrintable, entriesPrintable_iff]
  simp only [(Dict.ofList_perm hkeys).mem_iff]

end Json
end FleetControl

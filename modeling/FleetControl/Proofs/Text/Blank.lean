import Mathlib.Data.List.TakeWhile
import FleetControl.Text.Blank

/-!
# Texts between blanks

Trimming finds the one text without blanks at its ends that another text is a
padding of.  What follows from this, rather than how the blanks are dropped,
is used wherever texts are trimmed.  In particular it is the same text that is
found by searching for its first byte from the front and for its last byte
from the back.
-/

namespace FleetControl
namespace Text

/-- The text neither begins nor ends with a blank. -/
def IsBare (t : Text) : Prop :=
  (∀ b ∈ t.head?, isBlank b = false) ∧ ∀ b ∈ t.getLast?, isBlank b = false

/-- The text is the other one with blanks before and after it. -/
def IsPaddingOf (t core : Text) : Prop :=
  ∃ before after : Text, (∀ b ∈ before, isBlank b = true) ∧
    (∀ b ∈ after, isBlank b = true) ∧ t = before ++ core ++ after

variable {s t core core' before before' after after' : Text}

theorem isBlank_iff {b : UInt8} :
    isBlank b = true ↔
      b ∈ ([0x09, 0x0a, 0x0b, 0x0c, 0x0d, 0x20] : List UInt8) := by
  simp only [isBlank, Bool.or_eq_true, beq_iff_eq, Bool.and_eq_true,
    decide_eq_true_eq, UInt8.le_iff_toNat_le, List.mem_cons, List.not_mem_nil,
    or_false, ← UInt8.toNat_inj, UInt8.reduceToNat]
  omega

/-- The space is the greatest of the blanks. -/
theorem le_of_isBlank {b : UInt8} (h : isBlank b = true) : b.toNat ≤ 0x20 := by
  have hblanks :
      ([0x09, 0x0a, 0x0b, 0x0c, 0x0d, 0x20] : List UInt8).all
        (·.toNat ≤ 0x20) = true :=
    by decide
  exact of_decide_eq_true (List.all_eq_true.mp hblanks b (isBlank_iff.mp h))

theorem lt_of_isBlank {b : UInt8} (h : isBlank b = true) : b < 0x80 :=
  UInt8.lt_iff_toNat_lt.mpr (Nat.lt_of_le_of_lt (le_of_isBlank h) (by decide))

theorem isBlank_eq_false_of_lt {b : UInt8} (h : 0x20 < b.toNat) :
    isBlank b = false :=
  Bool.eq_false_iff.mpr fun hblank => Nat.not_lt.mpr (le_of_isBlank hblank) h

theorem isBlank_eq_false_of_all (h : t.all (fun b => !isBlank b) = true) :
    ∀ b ∈ t, isBlank b = false := by
  simpa using h

theorem IsBare.reverse (h : t.IsBare) : IsBare t.reverse := by
  rw [IsBare, List.head?_reverse, List.getLast?_reverse]
  exact ⟨h.2, h.1⟩

theorem isBare_of_forall (h : ∀ b ∈ t, isBlank b = false) : t.IsBare :=
  ⟨fun b hb => h b (List.mem_of_head? hb), fun b hb =>
    h b (List.mem_of_getLast? hb)⟩

theorem isPaddingOf_self (t : Text) : t.IsPaddingOf t :=
  ⟨[], [], nofun, nofun, by simp⟩

theorem IsPaddingOf.notMem {b : UInt8} (h : t.IsPaddingOf core)
    (hb : isBlank b = false) (hcore : b ∉ core) : b ∉ t := by
  obtain ⟨before, after, hbefore, hafter, rfl⟩ := h
  intro hmem
  rw [List.mem_append, List.mem_append] at hmem
  rcases hmem with (hmem | hmem) | hmem
  · simp [hbefore b hmem] at hb
  · exact hcore hmem
  · simp [hafter b hmem] at hb

/-! ## Dropping blanks -/

theorem dropBlanks_append {before rest : Text}
    (hbefore : ∀ b ∈ before, isBlank b = true)
    (hrest : ∀ b ∈ rest.head?, isBlank b = false) :
    dropBlanks (before ++ rest) = rest := by
  rw [dropBlanks, List.dropWhile_append_of_pos hbefore]
  cases rest with
  | nil => rfl
  | cons b rest => exact List.dropWhile_cons_of_neg (by simp [hrest b rfl])

theorem dropBlanks_of_blank (h : ∀ b ∈ t, isBlank b = true) :
    dropBlanks t = [] := by
  have hdrop : dropBlanks (t ++ []) = [] := dropBlanks_append h nofun
  rwa [List.append_nil] at hdrop

/-- A text is what its leading blanks leave, after these blanks. -/
theorem exists_append_dropBlanks (t : Text) :
    ∃ before :
    Text, (∀ b ∈ before, isBlank b = true) ∧ t = before ++ dropBlanks t :=
  ⟨t.takeWhile isBlank, fun _ => List.mem_takeWhile_imp,
    List.takeWhile_append_dropWhile.symm⟩

theorem isBlank_of_mem_head?_dropBlanks {b : UInt8}
    (h : b ∈ (dropBlanks t).head?) :
    isBlank b = false := by
  have hnot := List.head?_dropWhile_not isBlank t
  rw [← dropBlanks, Option.mem_def.mp h] at hnot
  exact hnot

/-! ## Trimming -/

theorem IsBare.trim_padding (hbare : core.IsBare) (h : t.IsPaddingOf core) :
    t.trim = core := by
  obtain ⟨before, after, hbefore, hafter, rfl⟩ := h
  have hback : ∀ b ∈ after.reverse, isBlank b = true :=
    fun b hb => hafter b (List.mem_reverse.mp hb)
  rw [trim, List.append_assoc]
  cases core with
  | nil =>
    have hblank : ∀ b ∈ before ++ ([] ++ after), isBlank b = true :=
      List.forall_mem_append.mpr ⟨hbefore, hafter⟩
    rw [dropBlanks_of_blank hblank]
    rfl
  | cons a rest =>
    have hfront : ∀ b ∈ (a :: rest ++ after).head?, isBlank b = false := hbare.1
    rw [dropBlanks_append hbefore hfront, List.reverse_append,
      dropBlanks_append hback hbare.reverse.1, List.reverse_reverse]

theorem isPaddingOf_trim (t : Text) : t.IsPaddingOf t.trim := by
  obtain ⟨before, hbefore, hfront⟩ := exists_append_dropBlanks t
  obtain ⟨after, hafter, hback⟩ :=
    exists_append_dropBlanks (dropBlanks t).reverse
  refine ⟨before, after.reverse, hbefore,
    fun b hb => hafter b (List.mem_reverse.mp hb), ?_⟩
  rw [trim, List.append_assoc, ← List.reverse_append, ← hback,
    List.reverse_reverse, ← hfront]

theorem isBare_trim (t : Text) : t.trim.IsBare := by
  obtain ⟨after, -, hback⟩ := exists_append_dropBlanks (dropBlanks t).reverse
  have hfront : dropBlanks t = t.trim ++ after.reverse := by
    rw [trim, ← List.reverse_append, ← hback, List.reverse_reverse]
  constructor
  · intro b hb
    apply isBlank_of_mem_head?_dropBlanks (t := t)
    rw [hfront, List.head?_append, Option.mem_def.mp hb]
    rfl
  · intro b hb
    rw [trim, List.getLast?_reverse] at hb
    exact isBlank_of_mem_head?_dropBlanks hb

/-- Trimming finds the text without blanks at its ends that has been padded. -/
theorem trim_eq_iff : t.trim = core ↔ core.IsBare ∧ t.IsPaddingOf core := by
  constructor
  · rintro rfl
    exact ⟨isBare_trim t, isPaddingOf_trim t⟩
  · rintro ⟨hbare, hpadding⟩
    exact hbare.trim_padding hpadding

theorem IsPaddingOf.trans (hs : s.IsPaddingOf t) (ht : t.IsPaddingOf core) :
    s.IsPaddingOf core := by
  obtain ⟨before, after, hbefore, hafter, rfl⟩ := hs
  obtain ⟨before', after', hbefore', hafter', rfl⟩ := ht
  refine ⟨before ++ before', after' ++ after,
    List.forall_mem_append.mpr ⟨hbefore, hbefore'⟩,
    List.forall_mem_append.mpr ⟨hafter', hafter⟩, ?_⟩
  simp only [List.append_assoc]

theorem IsPaddingOf.trim_eq (h : s.IsPaddingOf t) : s.trim = t.trim :=
  (isBare_trim t).trim_padding (h.trans (isPaddingOf_trim t))

/-! ## Splitting off the blanks -/

/-- The text is a core without blanks at its ends, with blanks before
and after it. -/
structure IsSplit (t before core after : Text) : Prop where
  append_eq : t = before ++ core ++ after
  before_blank : ∀ b ∈ before, isBlank b = true
  after_blank : ∀ b ∈ after, isBlank b = true
  bare : core.IsBare

theorem exists_isSplit_trim (t : Text) :
    ∃ before after, IsSplit t before t.trim after := by
  obtain ⟨before, after, hbefore, hafter, happend⟩ := isPaddingOf_trim t
  exact ⟨before, after, happend, hbefore, hafter, isBare_trim t⟩

namespace IsSplit

theorem core_eq (h : IsSplit t before core after) : core = t.trim :=
  (trim_eq_iff.mpr ⟨h.bare, before, after, h.before_blank, h.after_blank,
    h.append_eq⟩).symm

/-- Where anything is left, the blanks before it are all that the text
begins with. -/
theorem before_eq (h : IsSplit t before core after) (hne : core ≠ []) :
    before = t.takeWhile isBlank := by
  obtain ⟨b, rest, rfl⟩ := List.exists_cons_of_ne_nil hne
  have hb : isBlank b = false := h.bare.1 b rfl
  rw [h.append_eq, List.append_assoc,
    List.takeWhile_append_of_pos h.before_blank, List.cons_append,
    List.takeWhile_cons_of_neg (by simp [hb]), List.append_nil]

theorem unique (h : IsSplit t before core after)
    (h' : IsSplit t before' core' after')
    (hne : core ≠ []) : before = before' ∧ core = core' ∧ after = after' := by
  have hcore : core = core' := h.core_eq.trans h'.core_eq.symm
  have hbefore : before = before' :=
    (h.before_eq hne).trans (h'.before_eq (hcore ▸ hne)).symm
  refine ⟨hbefore, hcore, ?_⟩
  have happend := h.append_eq.symm.trans h'.append_eq
  rw [hbefore, hcore] at happend
  exact List.append_cancel_left happend

theorem reverse (h : IsSplit t before core after) :
    IsSplit t.reverse after.reverse core.reverse before.reverse where
  append_eq := by simp [h.append_eq]
  before_blank := fun b hb => h.after_blank b (List.mem_reverse.mp hb)
  after_blank := fun b hb => h.before_blank b (List.mem_reverse.mp hb)
  bare := h.bare.reverse

end IsSplit

/-! ## Searching from both ends -/

/-- The first place from a place on whose byte is no blank; the end of the text
if there is none.  There is no answer where a byte outside of the text is
looked up. -/
def searchForward? (t : Text) (i : Nat) : Option Nat :=
  if _h : i < t.length then do
    let b ← t[i]?
    if isBlank b then searchForward? t (i + 1) else return i
  else return i
termination_by t.length - i

/-- The place behind the last byte before a place that is no blank; the
beginning of the text if there is none.  There is no answer where a byte outside
of the text is looked up. -/
def searchBackward? (t : Text) : Nat → Option Nat
  | 0 => return 0
  | i + 1 => do
    let b ← t[i]?
    if isBlank b then searchBackward? t i else return i + 1

/-- The text between the places that the two searches find.  In a text of blanks
the searches pass each other, and nothing is left. -/
def trimByPlaces? (t : Text) : Option Text := do
  let start ← searchForward? t 0
  let stop ← searchBackward? t t.length
  if stop ≤ start then return [] else return (t.take stop).drop start

theorem searchForward?_eq {i : Nat} (h : i ≤ t.length) :
    searchForward? t i = some (i + ((t.drop i).takeWhile isBlank).length) := by
  fun_induction searchForward? t i with
  | case1 i hlt ih =>
    rw [List.getElem?_eq_getElem hlt, List.drop_eq_getElem_cons hlt]
    cases hblank : isBlank t[i] with
    | true =>
      simp only [Option.bind_eq_bind, Option.bind_some, hblank, if_true, ih hlt,
        List.takeWhile_cons_of_pos, List.length_cons]
      congr 1
      omega
    | false => simp [hblank]
  | case2 i hnot =>
    rw [List.drop_eq_nil_of_le (Nat.not_lt.mp hnot)]
    rfl

theorem searchBackward?_eq {i : Nat} (h : i ≤ t.length) :
    searchBackward? t i =
      some (i - ((t.take i).reverse.takeWhile isBlank).length) := by
  induction i with
  | zero => rfl
  | succ i ih =>
    have hlast : (t.take (i + 1)).reverse = t[i] :: (t.take i).reverse := by
      rw [List.take_succ_eq_append_getElem h, List.reverse_append]
      rfl
    rw [searchBackward?, List.getElem?_eq_getElem h, hlast]
    cases hblank : isBlank t[i] with
    | true =>
      simp only [Option.bind_eq_bind, Option.bind_some, hblank, if_true,
        ih (Nat.le_of_succ_le h), List.takeWhile_cons_of_pos, List.length_cons]
      congr 1
      omega
    | false => simp [hblank]

/-- The searches meet the same blanks that trimming drops, and look up no byte
outside of the text. -/
theorem trimByPlaces?_eq (t : Text) : trimByPlaces? t = some t.trim := by
  obtain ⟨before, after, hsplit⟩ := exists_isSplit_trim t
  have hforward := searchForward?_eq (t := t) (Nat.zero_le _)
  have hbackward := searchBackward?_eq (t := t) (Nat.le_refl _)
  rw [List.drop_zero, Nat.zero_add] at hforward
  rw [List.take_length] at hbackward
  simp only [trimByPlaces?, hforward, hbackward, Option.bind_eq_bind,
    Option.bind_some]
  by_cases hnone : t.trim = []
  · have hblank : ∀ b ∈ t, isBlank b = true := by
      rw [hsplit.append_eq, hnone, List.append_nil]
      exact List.forall_mem_append.mpr ⟨hsplit.before_blank, hsplit.after_blank⟩
    have hall : t.takeWhile isBlank = t := List.takeWhile_eq_self_iff.mpr hblank
    rw [hall, if_pos (Nat.sub_le _ _), hnone]
    rfl
  · have hbefore : t.takeWhile isBlank = before := (hsplit.before_eq hnone).symm
    have hafter : t.reverse.takeWhile isBlank = after.reverse :=
      (hsplit.reverse.before_eq (by simpa using hnone)).symm
    have hpos : 0 < t.trim.length := List.length_pos_iff.mpr hnone
    have hlength : t.length - after.length = before.length + t.trim.length := by
      have happend := congrArg List.length hsplit.append_eq
      rw [List.length_append, List.length_append] at happend
      omega
    have hkept : t.take (before.length + t.trim.length) = before ++ t.trim := by
      calc
        _ = (before ++ t.trim ++ after).take (before ++ t.trim).length := by
          rw [List.length_append, ← hsplit.append_eq]
        _ = before ++ t.trim := List.take_left
    rw [hbefore, hafter, List.length_reverse, hlength, if_neg (by omega), hkept,
      List.drop_left]
    rfl

end Text
end FleetControl

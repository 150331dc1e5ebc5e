import Mathlib.Data.List.TakeDrop
import FleetControl.Decimal.Numeral

/-!
# Decimal digits

The digits of a natural number denote that number, and a run of digits ends
where another byte follows.  `Numeral.Ends` is what has to follow a number so
that none of it is read as part of it.
-/

namespace FleetControl

attribute [local instance (2000)] instPowNat

namespace Text

theorem toNat_digit (n : Nat) : (digit n).toNat = 0x30 + n % 10 := by
  rw [digit, UInt8.toNat_ofNat']
  omega

theorem isDigit_iff (b : UInt8) :
    isDigit b = true ↔ 0x30 ≤ b.toNat ∧ b.toNat ≤ 0x39 := by
  simp [isDigit, UInt8.le_iff_toNat_le]

theorem isDigit_digit (n : Nat) : isDigit (digit n) = true := by
  rw [isDigit_iff, toNat_digit]
  omega

theorem digitValue_digit (n : Nat) : digitValue (digit n) = n % 10 := by
  rw [digitValue, toNat_digit]
  omega

theorem isDigit_of_mem_ofNat {n : Nat} {b : UInt8} (h : b ∈ ofNat n) :
    isDigit b = true := by
  induction n using ofNat.induct with
  | case1 n hlt =>
    rw [ofNat, if_pos hlt, List.mem_singleton] at h
    rw [h, isDigit_digit]
  | case2 n hnot ih =>
    rw [ofNat, if_neg hnot, List.mem_append, List.mem_singleton] at h
    rcases h with h | rfl
    · exact ih h
    · exact isDigit_digit n

theorem foldl_digits (start : Nat) (ds : Text) :
    ds.foldl (fun n b => 10 * n + digitValue b) start =
      start * 10 ^ ds.length + digitsValue ds := by
  induction ds generalizing start with
  | nil => simp [digitsValue]
  | cons b rest ih =>
    have hshift : 10 * start * 10 ^ rest.length =
        start * (10 ^ rest.length * 10) := by
      rw [Nat.mul_comm 10 start, Nat.mul_assoc, Nat.mul_comm 10]
    rw [digitsValue, List.foldl_cons, List.foldl_cons, ih, ih, List.length_cons,
      Nat.pow_succ, Nat.add_mul, hshift, Nat.mul_zero, Nat.zero_add,
      Nat.add_assoc]

theorem digitsValue_append (a b : Text) :
    digitsValue (a ++ b) = digitsValue a * 10 ^ b.length + digitsValue b := by
  rw [digitsValue, List.foldl_append, foldl_digits]
  rfl

/-- The digits of a number denote it. -/
theorem digitsValue_ofNat (n : Nat) : digitsValue (ofNat n) = n := by
  induction n using ofNat.induct with
  | case1 n hlt =>
    have hdigit : digitsValue [digit n] = digitValue (digit n) := by
      simp [digitsValue]
    rw [ofNat, if_pos hlt, hdigit, digitValue_digit]
    omega
  | case2 n hnot ih =>
    have hdigit : digitsValue [digit n] = digitValue (digit n) := by
      simp [digitsValue]
    rw [ofNat, if_neg hnot, digitsValue_append, ih, hdigit, digitValue_digit]
    simp only [List.length_singleton]
    omega

theorem digitsValue_zeros (n : Nat) :
    digitsValue (List.replicate n 0x30) = 0 := by
  induction n with
  | zero => rfl
  | succ n ih =>
    rw [List.replicate_succ', digitsValue_append, ih, Nat.zero_mul]
    rfl

theorem isDigit_of_mem_zeros {n : Nat} {b : UInt8}
    (hb : b ∈ List.replicate n (0x30 : UInt8)) :
    isDigit b = true := by
  rw [(List.mem_replicate.mp hb).2]
  rfl

theorem ofNat_zero : ofNat 0 = [0x30] := by
  rw [ofNat]
  rfl

theorem ofNat_ne_nil (n : Nat) : ofNat n ≠ [] := by
  rw [ofNat]
  split
  · simp
  · simp

/-- The digits of a positive number start with another one than zero. -/
theorem head?_ofNat {n : Nat} (hn : 0 < n) :
    ∀ b ∈ (ofNat n).head?, b ≠ 0x30 := by
  induction n using ofNat.induct with
  | case1 n hlt =>
    rw [ofNat, if_pos hlt]
    intro b hb heq
    have hvalue : (digit n).toNat = 0x30 := by
      rw [List.head?_cons, Option.mem_some_iff] at hb
      rw [hb, heq]
      rfl
    rw [toNat_digit] at hvalue
    omega
  | case2 n hnot ih =>
    intro b hb
    rw [ofNat, if_neg hnot, List.head?_append] at hb
    cases hfirst : ofNat (n / 10) with
    | nil => exact absurd hfirst (ofNat_ne_nil _)
    | cons first rest =>
      rw [hfirst] at hb ih
      exact ih (by omega) b hb

end Text

namespace Numeral

/-- None of the text is read as part of a number before it. -/
def Ends (rest : Text) : Prop :=
  ∀ b ∈ rest.head?, Text.isDigit b = false ∧ b ≠ pointMark ∧
    isExponentMark b = false

theorem ends_nil : Ends [] :=
  nofun

theorem ends_cons {b : UInt8} (hdigit : Text.isDigit b = false)
    (hpoint : b ≠ pointMark)
    (hmark : isExponentMark b = false) (rest : Text) : Ends (b :: rest) := by
  intro c hc
  rw [List.head?_cons, Option.mem_some_iff] at hc
  rw [← hc]
  exact ⟨hdigit, hpoint, hmark⟩

/-- A run of digits is read up to its end. -/
theorem digits_append {ds rest : Text} (hds : ∀ b ∈ ds, Text.isDigit b = true)
    (hrest : ∀ b ∈ rest.head?, Text.isDigit b = false) :
    digits (ds ++ rest) = (ds, rest) := by
  rw [digits, List.span_eq_takeWhile_dropWhile,
    List.takeWhile_append_of_pos hds, List.dropWhile_append_of_pos hds]
  cases rest with
  | nil => simp
  | cons b rest =>
    have hb := hrest b rfl
    rw [List.takeWhile_cons_of_neg (by simp [hb]),
      List.dropWhile_cons_of_neg (by simp [hb]), List.append_nil]

theorem Ends.digits_append {ds rest : Text}
    (hds : ∀ b ∈ ds, Text.isDigit b = true)
    (hrest : Ends rest) : digits (ds ++ rest) = (ds, rest) :=
  Numeral.digits_append hds fun b hb => (hrest b hb).1

end Numeral
end FleetControl

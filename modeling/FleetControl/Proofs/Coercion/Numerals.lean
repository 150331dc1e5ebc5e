import Mathlib.Data.Nat.Digits.Defs
import FleetControl.Proofs.Coercion.Texts

/-!
# Texts of integers

`Numeral.Denotes` is the grammar of the integers that may be given as texts:
digits, or digits after one sign, without a bound on their number.  A text is
converted just if it is such a numeral with blanks around it and the integer has
64 bits; a converted text and the integer itself come to the same value.
-/

namespace FleetControl

attribute [local instance (2000)] instPowNat

namespace Numeral

/-- One or more decimal digits. -/
def IsDigits (ds : Text) : Prop :=
  ds ≠ [] ∧ ∀ b ∈ ds, Text.isDigit b = true

/-- What digits denote by their places, of which the last one is that
of the ones. -/
def placeValue (ds : Text) : Nat :=
  Nat.ofDigits 10 (ds.map Text.digitValue).reverse

/-- The integer that digits denote, alone or after one sign. -/
inductive Denotes : Text → Int → Prop where
  | unsigned {ds : Text} (h : IsDigits ds) : Denotes ds (placeValue ds)
  | plus {ds : Text} (h : IsDigits ds) : Denotes (plus :: ds) (placeValue ds)
  | minus {ds : Text} (h : IsDigits ds) : Denotes (minus :: ds) (-placeValue ds)

theorem digitsValue_eq_placeValue (ds : Text) :
    Text.digitsValue ds = placeValue ds := by
  induction ds using List.reverseRecOn with
  | nil => rfl
  | append_singleton ds b ih =>
    have hlast : Text.digitsValue [b] = Text.digitValue b := by
      simp [Text.digitsValue]
    have hplaces : placeValue (ds ++ [b]) =
        Text.digitValue b + 10 * placeValue ds := by
      rw [placeValue, List.map_append, List.reverse_append, List.map_singleton,
        List.reverse_singleton, List.singleton_append, Nat.ofDigits_cons,
        placeValue]
    rw [Text.digitsValue_append, ih, hlast, hplaces, List.length_singleton,
      Nat.pow_one]
    omega

theorem isDigits_ofNat (n : Nat) : IsDigits (Text.ofNat n) :=
  ⟨Text.ofNat_ne_nil n, fun _ hb => Text.isDigit_of_mem_ofNat hb⟩

theorem placeValue_ofNat (n : Nat) : placeValue (Text.ofNat n) = n := by
  rw [← digitsValue_eq_placeValue, Text.digitsValue_ofNat]

/-- The decimal text of an integer denotes it. -/
theorem denotes_ofInt (n : Int) : Denotes (Text.ofInt n) n := by
  cases n with
  | ofNat n =>
    have h := Denotes.unsigned (isDigits_ofNat n)
    rwa [placeValue_ofNat] at h
  | negSucc n =>
    have h := Denotes.minus (isDigits_ofNat (n + 1))
    rwa [placeValue_ofNat] at h

/-! ## Reading -/

/-- What is read without a sign is all digits, or nothing. -/
theorem digits_cases (t : Text) :
    (IsDigits t ∧ digits t = (t, [])) ∨
      (¬ IsDigits t ∧ ((digits t).1 = [] ∨ (digits t).2 ≠ [])) := by
  rw [digits, List.span_eq_takeWhile_dropWhile]
  by_cases hall : ∀ b ∈ t, Text.isDigit b = true
  · rw [List.takeWhile_eq_self_iff.mpr hall, List.dropWhile_eq_nil_iff.mpr hall]
    rcases eq_or_ne t [] with rfl | hne
    · exact .inr ⟨fun h => h.1 rfl, .inl rfl⟩
    · exact .inl ⟨⟨hne, hall⟩, rfl⟩
  · exact .inr ⟨fun h => hall h.2, .inr (mt List.dropWhile_eq_nil_iff.mp hall)⟩

theorem integer?_of_sign {t rest : Text} {negative : Bool}
    (h : sign t = (negative, rest)) {n : Int} :
    integer? t = some n ↔ IsDigits rest ∧ signed negative rest = n := by
  rw [integer?, h]
  dsimp only
  rcases digits_cases rest with ⟨hdigits, heq⟩ | ⟨hnot, hread⟩
  · have hne : rest.isEmpty = false := by simpa using hdigits.1
    rw [heq, hne]
    simp [hdigits]
  · have hnone :
        ((digits rest).1.isEmpty || !(digits rest).2.isEmpty) = true := by
      simpa using hread
    rw [if_pos hnone]
    simp [hnot]

theorem signed_eq (negative : Bool) (ds : Text) :
    signed negative ds = if negative then -(placeValue ds : Int)
      else placeValue ds := by
  rw [signed, digitsValue_eq_placeValue]
  rfl

/-- A text is read as an integer just if it is a numeral for it. -/
theorem integer?_eq_some_iff {t : Text} {n : Int} :
    integer? t = some n ↔ Denotes t n := by
  constructor
  · intro h
    cases t with
    | nil => cases h
    | cons b rest =>
      by_cases hminus : b = minus
      · have hsign : sign (b :: rest) = (true, rest) := by
          rw [sign, if_pos hminus]
        obtain ⟨hdigits, rfl⟩ := (integer?_of_sign hsign).mp h
        rw [signed_eq, hminus]
        exact .minus hdigits
      · by_cases hplus : b = plus
        · have hsign : sign (b :: rest) = (false, rest) := by
            rw [sign, if_neg hminus, if_pos hplus]
          obtain ⟨hdigits, rfl⟩ := (integer?_of_sign hsign).mp h
          rw [signed_eq, hplus]
          exact .plus hdigits
        · have hsign : sign (b :: rest) = (false, b :: rest) := by
            rw [sign, if_neg hminus, if_neg hplus]
          obtain ⟨hdigits, rfl⟩ := (integer?_of_sign hsign).mp h
          rw [signed_eq]
          exact .unsigned hdigits
  · intro h
    cases h with
    | unsigned h =>
      obtain ⟨b, rest, rfl⟩ := List.exists_cons_of_ne_nil h.1
      have hsign := sign_cons_of_isDigit (h.2 b List.mem_cons_self) rest
      exact (integer?_of_sign hsign).mpr ⟨h, signed_eq false _⟩
    | @plus ds h =>
      have hsign : sign (plus :: ds) = (false, ds) := rfl
      exact (integer?_of_sign hsign).mpr ⟨h, signed_eq false ds⟩
    | @minus ds h =>
      have hsign : sign (minus :: ds) = (true, ds) := rfl
      exact (integer?_of_sign hsign).mpr ⟨h, signed_eq true ds⟩

/-- No byte of a numeral is a blank. -/
theorem Denotes.isBare {t : Text} {n : Int} (h : Denotes t n) : t.IsBare := by
  apply Text.isBare_of_forall
  cases h with
  | unsigned h => exact fun b hb => Text.isBlank_of_isDigit (h.2 b hb)
  | plus h =>
    exact List.forall_mem_cons.mpr
      ⟨by decide, fun b hb => Text.isBlank_of_isDigit (h.2 b hb)⟩
  | minus h =>
    exact List.forall_mem_cons.mpr
      ⟨by decide, fun b hb => Text.isBlank_of_isDigit (h.2 b hb)⟩

end Numeral

namespace Coercion

open Numeral

variable {s : Text} {n : Int} {m : Int64}

theorem integer?_trim_eq_some_iff :
    integer? s.trim = some n ↔ ∃ body, s.IsPaddingOf body ∧ Denotes body n := by
  rw [integer?_eq_some_iff]
  constructor
  · exact fun h => ⟨s.trim, Text.isPaddingOf_trim s, h⟩
  · rintro ⟨body, hpadding, h⟩
    rwa [h.isBare.trim_padding hpadding]

theorem toInt_string_eq_ok_iff :
    toInt (.string s) = .ok m ↔
      ∃ body, s.IsPaddingOf body ∧ Denotes body m.toInt := by
  rw [← integer?_trim_eq_some_iff, toInt]
  cases integer? s.trim with
  | none => simp
  | some n => exact signed_eq_ok_iff.trans (by rw [Option.some.injEq, eq_comm])

/-- Texts are refused as integers for one reason. -/
theorem toInt_string_cases (s : Text) :
    (∃ m, toInt (.string s) = .ok m) ∨ toInt (.string s) = .error .notInt := by
  rw [toInt]
  cases integer? s.trim with
  | none => exact .inr rfl
  | some n =>
    dsimp only
    rw [signed]
    split
    · exact .inl ⟨_, rfl⟩
    · exact .inr rfl

/-- A text becomes an integer just if it is a numeral for it, with blanks
around it, and the integer has 64 bits; any other text is refused.  So the
decimal text of an integer, with any blanks around it, comes to the same as the
integer itself. -/
theorem coerce_int_string (s : Text) :
    (∀ n,
      (∃ m : Int64, coerce .int (.string s) = .ok (.signed m) ∧ m.toInt = n) ↔
        (∃ body, s.IsPaddingOf body ∧ Denotes body n) ∧
          -2 ^ (63 : Nat) ≤ n ∧ n ≤ 2 ^ (63 : Nat) - 1) ∧
    (∀ w, coerce .int (.string s) = .ok w → ∃ m, w = .signed m) ∧
    ((¬ ∃ body n, s.IsPaddingOf body ∧ Denotes body n ∧
        -2 ^ (63 : Nat) ≤ n ∧ n ≤ 2 ^ (63 : Nat) - 1) →
      coerce .int (.string s) = .error .notInt) ∧
    ∀ v n, Json.integer? v = some n → n ≤ 2 ^ (63 : Nat) - 1 →
      s.IsPaddingOf (Text.ofInt n) →
      ∃ m : Int64, m.toInt = n ∧ coerce .int v = .ok (.signed m) ∧
        coerce .int (.string s) = .ok (.signed m) := by
  have hbounds (m : Int64) : -2 ^ (63 : Nat) ≤ m.toInt ∧
      m.toInt ≤ 2 ^ (63 : Nat) - 1 :=
    (fits_iff _).mp (fits_toInt m)
  have hnumeral {n : Int} (h : ∃ body, s.IsPaddingOf body ∧ Denotes body n)
      (hrange : -2 ^ (63 : Nat) ≤ n ∧ n ≤ 2 ^ (63 : Nat) - 1) :
      ∃ m : Int64, m.toInt = n ∧ coerce .int (.string s) = .ok (.signed m) := by
    have hm := toInt_ofInt_of_fits ((fits_iff n).mpr hrange)
    rw [← hm] at h
    exact ⟨_, hm, coerce_int_eq_ok_iff.mpr
      ⟨_, toInt_string_eq_ok_iff.mpr h, rfl⟩⟩
  refine ⟨fun n => ⟨?_, ?_⟩, ?_, ?_, ?_⟩
  · rintro ⟨m, hm, rfl⟩
    obtain ⟨_, hint, ⟨⟩⟩ := coerce_int_eq_ok_iff.mp hm
    exact ⟨toInt_string_eq_ok_iff.mp hint, hbounds m⟩
  · rintro ⟨h, hrange⟩
    obtain ⟨m, hm, hcoerce⟩ := hnumeral h hrange
    exact ⟨m, hcoerce, hm⟩
  · intro w hw
    obtain ⟨m, -, rfl⟩ := coerce_int_eq_ok_iff.mp hw
    exact ⟨m, rfl⟩
  · intro hnone
    rcases toInt_string_cases s with ⟨m, hm⟩ | herror
    · obtain ⟨body, hpadding, hbody⟩ := toInt_string_eq_ok_iff.mp hm
      exact absurd ⟨body, m.toInt, hpadding, hbody, hbounds m⟩ hnone
    · rw [coerce, herror]
      rfl
  · intro v n hn hhigh hpadding
    obtain ⟨hlow, -⟩ := Json.integer?_bounds hn
    obtain ⟨m, hm, hcoerce⟩ :=
      hnumeral ⟨_, hpadding, denotes_ofInt n⟩ ⟨hlow, hhigh⟩
    refine ⟨m, hm, ?_, hcoerce⟩
    refine coerce_int_eq_ok_iff.mpr
      ⟨m, (toInt_eq_ok_iff ?_).mpr ⟨n, ?_, ?_⟩, rfl⟩
    · cases v with
      | unsigned _ => rfl
      | signed _ => rfl
      | _ => cases hn
    · exact Json.exactValue?_of_integer? hn
    · rw [hm, Binary64.towardZero_intCast]

/-- The least integer, whose digits alone denote none of 64 bits. -/
theorem coerce_int_string_least :
    (Json.signed Int64.minValue).integer? = some (-2 ^ (63 : Nat)) ∧
      ∃ m : Int64, m.toInt = -2 ^ (63 : Nat) ∧
        coerce .int
          (.string (text "\t" ++ Text.ofInt (-2 ^ (63 : Nat)) ++ text " ")) =
          .ok (.signed m) := by
  have hpadding :
      Text.IsPaddingOf (text "\t" ++ Text.ofInt (-2 ^ (63 : Nat)) ++ text " ")
      (Text.ofInt (-2 ^ (63 : Nat))) :=
    ⟨text "\t", text " ", List.all_eq_true.mp (by decide),
      List.all_eq_true.mp (by decide), rfl⟩
  have hleast : (Json.signed Int64.minValue).integer? =
      some (-2 ^ (63 : Nat)) := rfl
  obtain ⟨-, -, -, hsame⟩ :=
    coerce_int_string (text "\t" ++ Text.ofInt (-2 ^ (63 : Nat)) ++ text " ")
  obtain ⟨m, hm, -, hcoerce⟩ := hsame _ _ hleast (by decide) hpadding
  exact ⟨hleast, m, hm, hcoerce⟩

end Coercion
end FleetControl

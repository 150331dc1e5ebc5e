import Mathlib.Data.List.DropRight
import FleetControl.Proofs.Decimal
import FleetControl.Proofs.Json.Numbers

/-!
# Written binary numbers are read back

All four ways of writing the digits of a decimal have a fraction or a power of
ten, and denote the digits at the same place: only the zeros that are written
besides them differ.  So each is read as a decimal of the same magnitude, and
rounds to the number that the digits were found for.
-/

namespace FleetControl
namespace Json

attribute [local instance (2000)] instPowNat

open Numeral

/-! ## Significant digits -/

/-- The digits of a number without the zeros at the end. -/
structure IsSignificant (ds : Text) : Prop where
  ne_nil : ds ≠ []
  digits : ∀ b ∈ ds, Text.isDigit b = true
  leading : ∀ b ∈ ds.head?, b ≠ 0x30

theorem ofNat_eq_significantDigits (n : Nat) :
    ∃ zeros, Text.ofNat n =
      significantDigits n ++ List.replicate zeros 0x30 := by
  let zeros := (Text.ofNat n).rtakeWhile (· == 0x30)
  have hzeros : zeros = List.replicate zeros.length 0x30 := by
    refine List.eq_replicate_of_mem fun b hb => ?_
    simpa using List.mem_rtakeWhile_imp hb
  refine ⟨zeros.length, ?_⟩
  rw [← hzeros]
  exact List.rdropWhile_append_rtakeWhile.symm

theorem isSignificant_significantDigits {n : Nat} (hn : n ≠ 0) :
    IsSignificant (significantDigits n) := by
  obtain ⟨zeros, hzeros⟩ := ofNat_eq_significantDigits n
  have hne : significantDigits n ≠ [] := by
    intro hnil
    have hvalue := Text.digitsValue_ofNat n
    rw [hzeros, hnil, List.nil_append, Text.digitsValue_zeros] at hvalue
    exact hn hvalue.symm
  refine ⟨hne, ?_, ?_⟩
  · intro b hb
    apply Text.isDigit_of_mem_ofNat
    rw [hzeros]
    exact List.mem_append_left _ hb
  · have hhead := Text.head?_ofNat (Nat.pos_of_ne_zero hn)
    rwa [hzeros, List.head?_append_of_ne_nil _ hne] at hhead

theorem digitCount_eq_length {n : Nat} (hn : n ≠ 0) :
    Decimal.digitCount n = (Text.ofNat n).length := by
  induction n using Text.ofNat.induct with
  | case1 n hlt =>
    have hrest : n / 10 = 0 := by omega
    rw [Decimal.digitCount, if_neg hn, hrest, Decimal.digitCount, Text.ofNat,
      if_pos hlt]
    rfl
  | case2 n hnot ih =>
    rw [Decimal.digitCount, if_neg hn, ih (by omega), Text.ofNat.eq_def n,
      if_neg hnot, List.length_append]
    rfl

/-- The decimal whose digits stand with the point at a given place. -/
def decimalOf (negative : Bool) (ds : Text) (point : Int) : Decimal :=
  ⟨negative, Text.digitsValue ds, point - ds.length⟩

theorem magnitude_decimalOf {d : Decimal} (hd : d.significand ≠ 0) :
    (decimalOf d.negative (significantDigits d.significand) d.point).magnitude =
      d.magnitude := by
  obtain ⟨zeros, hzeros⟩ := ofNat_eq_significantDigits d.significand
  have hvalue :
      d.significand = Text.digitsValue (significantDigits d.significand) *
        10 ^ zeros := by
    have hdigits := Text.digitsValue_ofNat d.significand
    rw [hzeros, Text.digitsValue_append, Text.digitsValue_zeros,
      List.length_replicate] at hdigits
    exact hdigits.symm
  have hcount := digitCount_eq_length hd
  rw [hzeros, List.length_append, List.length_replicate] at hcount
  have hpoint : d.point - (significantDigits d.significand).length - zeros =
      d.exponent := by
    rw [Decimal.point]
    omega
  rw [decimalOf, ← Decimal.magnitude_scaled _ _ zeros, ← hvalue, hpoint]

/-! ## The ways of writing them -/

/-- The parts in which the digits are written with the point at a
given place. -/
def partsOf (ds : Text) (point : Int) : NumberParts :=
  if 0 < point ∧ point ≤ 15 then
    let places := point.toNat
    if ds.length ≤ places then
      ⟨ds ++ List.replicate (places - ds.length) 0x30, some (text "0"), none⟩
    else ⟨ds.take places, some (ds.drop places), none⟩
  else if -4 < point ∧ point ≤ 0 then
    ⟨text "0", some (List.replicate (-point).toNat 0x30 ++ ds), none⟩
  else
    ⟨ds.take 1, if ds.length ≤ 1 then none
      else some (ds.drop 1), some (point - 1)⟩

theorem written_partsOf (ds : Text) (point : Int) :
    (partsOf ds point).written = renderDigits ds point := by
  unfold partsOf renderDigits
  split
  · dsimp only
    split
    · rw [NumberParts.written, fractionText, powerText, List.append_nil]
      rfl
    · rw [NumberParts.written, fractionText, powerText, List.append_nil,
        List.append_assoc]
  · split
    · rw [NumberParts.written, fractionText, powerText, List.append_nil,
        ← List.append_assoc, ← List.append_assoc]
      rfl
    · rw [NumberParts.written, powerText]
      dsimp only
      split
      · rw [fractionText, List.append_nil, List.append_assoc]
        rfl
      · rw [fractionText]
        simp only [List.append_assoc]

theorem fraction_zero : ∀ fraction ∈ some (text "0"),
    fraction ≠ [] ∧ ∀ b ∈ fraction, Text.isDigit b = true := by
  rintro fraction ⟨⟩
  exact ⟨List.cons_ne_nil _ _, fun _ hb =>
    Text.isDigit_of_mem_zeros (n := 1) hb⟩

namespace IsSignificant

variable {ds : Text}

theorem isWhole_append (h : IsSignificant ds) (zeros : Nat) :
    IsWhole (ds ++ List.replicate zeros 0x30) := by
  refine ⟨?_, .inr ⟨List.append_ne_nil_of_left_ne_nil h.ne_nil _, ?_⟩⟩
  · intro b hb
    rcases List.mem_append.mp hb with hb | hb
    · exact h.digits b hb
    · exact Text.isDigit_of_mem_zeros hb
  · rw [List.head?_append_of_ne_nil _ h.ne_nil]
    exact h.leading

theorem isWhole_take (h : IsSignificant ds) {places : Nat}
    (hplaces : 0 < places) :
    IsWhole (ds.take places) := by
  refine ⟨fun b hb => h.digits b (List.mem_of_mem_take hb), .inr ⟨?_, ?_⟩⟩
  · simp [h.ne_nil, Nat.ne_of_gt hplaces]
  · rw [List.head?_take, if_neg (Nat.ne_of_gt hplaces)]
    exact h.leading

/-- The digits after a place form a fraction, unless there are none. -/
theorem fraction_drop (h : IsSignificant ds) {places : Nat}
    (hlength : ¬ ds.length ≤ places) :
    ∀ fraction ∈ some (ds.drop places),
      fraction ≠ [] ∧ ∀ b ∈ fraction, Text.isDigit b = true := by
  rintro fraction ⟨⟩
  refine ⟨?_, fun b hb => h.digits b (List.mem_of_mem_drop hb)⟩
  rwa [ne_eq, List.drop_eq_nil_iff]

theorem wellFormed (h : IsSignificant ds) (point : Int) :
    (partsOf ds point).WellFormed := by
  unfold partsOf
  split
  · next hplace =>
    dsimp only
    split
    · exact ⟨h.isWhole_append _, fraction_zero⟩
    · next hlength =>
      exact ⟨h.isWhole_take (by omega), h.fraction_drop hlength⟩
  · split
    · refine ⟨isWhole_zero, ?_⟩
      rintro fraction ⟨⟩
      refine ⟨List.append_ne_nil_of_right_ne_nil _ h.ne_nil, fun b hb => ?_⟩
      rcases List.mem_append.mp hb with hb | hb
      · exact Text.isDigit_of_mem_zeros hb
      · exact h.digits b hb
    · refine ⟨h.isWhole_take Nat.one_pos, ?_⟩
      dsimp only
      split
      · nofun
      · next hlength => exact h.fraction_drop hlength

end IsSignificant

section
variable {negative : Bool} {whole fraction ds : Text} {power point : Int}

theorem toDecimal_eq_scaled {zeros : Nat}
    (hdigits : Text.digitsValue (whole ++ fraction) =
      Text.digitsValue ds * 10 ^ zeros)
    (hexponent : power - fraction.length = point - ds.length - zeros) :
    toDecimal negative whole fraction power =
      ⟨negative, Text.digitsValue ds * 10 ^ zeros,
        point - ds.length - zeros⟩ := by
  rw [toDecimal, hdigits, hexponent]

theorem toDecimal_eq_placed
    (hdigits : Text.digitsValue (whole ++ fraction) = Text.digitsValue ds)
    (hexponent : power - fraction.length = point - ds.length) :
    toDecimal negative whole fraction power =
      ⟨negative, Text.digitsValue ds * 10 ^ 0,
        point - ds.length - (0 : Nat)⟩ := by
  apply toDecimal_eq_scaled
  · rw [hdigits, Nat.pow_zero, Nat.mul_one]
  · rw [hexponent, Int.natCast_zero, Int.sub_zero]

end

/-- All four ways denote the digits at their place, besides zeros at the end. -/
theorem toDecimal_partsOf (negative : Bool) {ds : Text} (hds : ds ≠ [])
    (point : Int) :
    ∃ zeros : Nat,
      toDecimal negative (partsOf ds point).whole
        ((partsOf ds point).fraction.getD [])
          ((partsOf ds point).power.getD 0) =
        ⟨negative, Text.digitsValue ds * 10 ^ zeros,
          point - ds.length - zeros⟩ := by
  unfold partsOf
  split
  · next hplace =>
    dsimp only
    split
    · next hlength =>
      refine ⟨point.toNat - ds.length + 1, toDecimal_eq_scaled ?_ ?_⟩
      · have hdigits :
            ds ++ List.replicate (point.toNat - ds.length) 0x30 ++ text "0" =
            ds ++ List.replicate (point.toNat - ds.length + 1) 0x30 := by
          rw [List.append_assoc]
          exact congrArg (ds ++ ·) List.replicate_succ'.symm
        rw [Option.getD_some, hdigits, Text.digitsValue_append,
          Text.digitsValue_zeros, List.length_replicate, Nat.add_zero]
      · rw [Option.getD_some, Option.getD_none,
          show (text "0").length = 1 from rfl]
        omega
    · next hlength =>
      refine ⟨0, toDecimal_eq_placed ?_ ?_⟩
      · rw [Option.getD_some, List.take_append_drop]
      · rw [Option.getD_some, Option.getD_none, List.length_drop]
        omega
  · split
    · next hplace =>
      refine ⟨0, toDecimal_eq_placed ?_ ?_⟩
      · rw [Option.getD_some, ← List.append_assoc, Text.digitsValue_append,
          show text "0" ++ List.replicate (-point).toNat 0x30 =
            List.replicate ((-point).toNat + 1) 0x30 from rfl,
          Text.digitsValue_zeros, Nat.zero_mul, Nat.zero_add]
      · rw [Option.getD_some, Option.getD_none, List.length_append,
          List.length_replicate]
        omega
    · have hpos := List.length_pos_of_ne_nil hds
      dsimp only
      split
      · next hlength =>
        refine ⟨0, toDecimal_eq_placed ?_ ?_⟩
        · rw [Option.getD_none, List.append_nil, List.take_of_length_le hlength]
        · rw [Option.getD_none, Option.getD_some, List.length_nil]
          omega
      · next hlength =>
        refine ⟨0, toDecimal_eq_placed ?_ ?_⟩
        · rw [Option.getD_some, List.take_append_drop]
        · rw [Option.getD_some, Option.getD_some, List.length_drop]
          omega

/-- Each way has a fraction or a power of ten. -/
theorem hasPlaces_partsOf (ds : Text) (point : Int) :
    (partsOf ds point).hasPlaces = true := by
  unfold partsOf
  dsimp only
  split
  · split <;> rfl
  · split
    · rfl
    · simp [NumberParts.hasPlaces]

theorem magnitude_partsOf (negative : Bool) {ds : Text} (hds : ds ≠ [])
    (point : Int) :
    ((partsOf ds point).decimal negative).magnitude =
      (decimalOf negative ds point).magnitude := by
  obtain ⟨zeros, hdecimal⟩ := toDecimal_partsOf negative hds point
  rw [NumberParts.decimal, hdecimal, decimalOf, Decimal.magnitude_scaled]

/-- A finite number is written with a fraction or a power of ten, as a decimal
of the magnitude of its shortest one. -/
theorem exists_parts_renderDouble {x : Binary64} (hfinite : x.isFinite = true) :
    ∃ parts : NumberParts, parts.WellFormed ∧ parts.hasPlaces = true ∧
      renderDouble x = signText x.negative ++ parts.written ∧
      (parts.decimal x.negative).magnitude =
        (Decimal.shortest x).magnitude := by
  obtain ⟨hsign, -⟩ := Decimal.denotes_shortest hfinite
  rw [renderDouble, hfinite, Bool.not_true, if_neg Bool.false_ne_true,
    ← signText]
  dsimp only
  split
  · next hzero =>
    refine ⟨⟨text "0", some (text "0"), none⟩, ⟨isWhole_zero, fraction_zero⟩,
      rfl, rfl, ?_⟩
    rw [(Decimal.magnitude_eq_zero_iff _).mpr hzero]
    exact (Decimal.magnitude_eq_zero_iff _).mpr rfl
  · next hsignificand =>
    have hds := isSignificant_significantDigits hsignificand
    refine ⟨_, hds.wellFormed (Decimal.shortest x).point, hasPlaces_partsOf _ _,
      ?_, ?_⟩
    · rw [written_partsOf]
    · rw [magnitude_partsOf _ hds.ne_nil, ← hsign,
        magnitude_decimalOf hsignificand]

/-- A finite number is written in parts that denote it. -/
theorem writesNumber_double {x : Binary64} (hfinite : x.isFinite = true) :
    WritesNumber (renderDouble x) (.double x) := by
  obtain ⟨parts, hparts, hplaces, hrender, hmagnitude⟩ :=
    exists_parts_renderDouble hfinite
  obtain ⟨hsign, hread⟩ := Decimal.denotes_shortest hfinite
  have hdecimal : (parts.decimal x.negative).toBinary64 = x :=
    (Decimal.toBinary64_congr hsign.symm hmagnitude).trans hread
  have hvalue : parts.value x.negative = .double x := by
    rw [parts.value_of_hasPlaces hplaces, hdecimal]
  refine ⟨x.negative, parts, hparts, hrender, ?_⟩
  rw [hvalue]
  exact if_pos hfinite

end Json
end FleetControl

import FleetControl.Proofs.Coercion.Integers
import FleetControl.Proofs.Decimal.Range
import FleetControl.Proofs.Json.Doubles
import FleetControl.Proofs.Text.Blank

/-!
# Written numbers as texts

A number that JSON prints may be given as a text with blanks around it.  The
text is read as the decimal that its parts denote, and this decimal rounds to
the number itself.  So the text and the number come to the same binary
number, unless that is subnormal: then the decimal is out of range, and the
text is refused.
-/

namespace FleetControl

attribute [local instance (2000)] instPowNat

namespace Text

variable {before t after : Text}

/-- Blanks around a text that has none are dropped. -/
theorem trim_append (hbefore : ∀ b ∈ before, isBlank b = true)
    (ht : ∀ b ∈ t, isBlank b = false) (hafter : ∀ b ∈ after, isBlank b = true) :
    trim (before ++ t ++ after) = t :=
  (isBare_of_forall ht).trim_padding ⟨before, after, hbefore, hafter, rfl⟩

theorem isBlank_of_isDigit {b : UInt8} (h : isDigit b = true) :
    isBlank b = false := by
  obtain ⟨hlow, -⟩ := (isDigit_iff b).mp h
  exact isBlank_eq_false_of_lt (by omega)

end Text

/-- Before a digit there is no sign. -/
theorem Numeral.sign_cons_of_isDigit {b : UInt8} (h : Text.isDigit b = true)
    (rest : Text) :
    sign (b :: rest) = (false, b :: rest) := by
  have hplus : b ≠ plus := by
    rintro rfl
    revert h
    decide
  rw [sign, if_neg (Json.minus_ne_of_isDigit h), if_neg hplus]

namespace Json

open Numeral

/-! ## Reading the parts -/

namespace NumberParts

variable {parts : NumberParts}

/-- No byte of a written number is a blank. -/
theorem WellFormed.isBlank_of_mem (h : parts.WellFormed) (negative : Bool) :
    ∀ b ∈ signText negative ++ parts.written, Text.isBlank b = false := by
  have hdigits {ds : Text} (hds : ∀ b ∈ ds, Text.isDigit b = true) :
      ∀ b ∈ ds, Text.isBlank b = false :=
    fun b hb => Text.isBlank_of_isDigit (hds b hb)
  have hsign : ∀ b ∈ signText negative, Text.isBlank b = false := by
    apply Text.isBlank_eq_false_of_all
    cases negative <;> decide
  have hfraction : ∀ b ∈ fractionText parts.fraction,
      Text.isBlank b = false := by
    cases hcase : parts.fraction with
    | none => nofun
    | some ds =>
      exact List.forall_mem_append.mpr
        ⟨Text.isBlank_eq_false_of_all (by decide),
          hdigits (h.fraction ds hcase).2⟩
  have hpower : ∀ b ∈ powerText parts.power, Text.isBlank b = false := by
    cases parts.power with
    | none => nofun
    | some power =>
      refine List.forall_mem_append.mpr
        ⟨Text.isBlank_eq_false_of_all (by decide), ?_⟩
      refine List.forall_mem_append.mpr
        ⟨List.forall_mem_append.mpr ⟨?_, ?_⟩, ?_⟩
      · apply Text.isBlank_eq_false_of_all
        split <;> decide
      · apply Text.isBlank_eq_false_of_all
        split <;> decide
      · exact hdigits fun b hb => Text.isDigit_of_mem_ofNat hb
  exact List.forall_mem_append.mpr ⟨hsign, List.forall_mem_append.mpr
    ⟨hdigits h.whole.digits, List.forall_mem_append.mpr ⟨hfraction, hpower⟩⟩⟩

theorem sign_append {whole : Text} (hwhole : IsWhole whole) (negative : Bool)
    (rest : Text) :
    sign (signText negative ++ (whole ++ rest)) =
      (negative, whole ++ rest) := by
  cases negative with
  | true => rfl
  | false =>
    cases whole with
    | nil => exact absurd rfl hwhole.ne_nil
    | cons b ds =>
      exact sign_cons_of_isDigit
        (hwhole.digits b List.mem_cons_self) (ds ++ rest)

/-- The digits after the point are read up to the power of ten. -/
theorem WellFormed.fraction?_getD (h : parts.WellFormed) :
    (fraction? (fractionText parts.fraction ++ powerText parts.power)).getD
      ([], fractionText parts.fraction ++ powerText parts.power) =
    (parts.fraction.getD [], powerText parts.power) := by
  have hstop := head?_powerText parts.power ends_nil
  rw [List.append_nil] at hstop
  cases hcase : parts.fraction with
  | none =>
    rw [fractionText, List.nil_append]
    cases htext : powerText parts.power with
    | nil => rfl
    | cons b rest =>
      rw [htext] at hstop
      rw [fraction?, if_neg (hstop b rfl).2]
      rfl
  | some ds =>
    have hdigits :=
      digits_append (h.fraction ds hcase).2 fun b hb => (hstop b hb).1
    exact hdigits

/-- A written number is the decimal that its parts denote. -/
theorem WellFormed.decimal?_written (h : parts.WellFormed) (negative : Bool) :
    decimal? (signText negative ++ parts.written) =
      some (parts.decimal negative) := by
  have hstop :
      ∀ b ∈ (fractionText parts.fraction ++ powerText parts.power).head?,
      Text.isDigit b = false := by
    have hpower := head?_powerText parts.power ends_nil
    rw [List.append_nil] at hpower
    cases parts.fraction with
    | none => exact fun b hb => (hpower b hb).1
    | some ds =>
      rintro b ⟨⟩
      rfl
  have hwhole : parts.whole.isEmpty = false := by simpa using h.whole.ne_nil
  rw [decimal?, written, sign_append h.whole]
  dsimp only
  rw [digits_append h.whole.digits hstop]
  dsimp only
  rw [h.fraction?_getD]
  dsimp only
  rw [hwhole, Bool.false_and, if_neg Bool.false_ne_true, decimal]
  cases parts.power with
  | none => rfl
  | some power =>
    have hread := power?_renderExponent power ends_nil
    rw [List.append_nil] at hread
    rw [powerText, hread]
    rfl

end NumberParts
end Json

/-! ## Whole numbers -/

/-- The decimal of an integer. -/
def Decimal.ofInt (n : Int) : Decimal :=
  ⟨decide (n < 0), n.natAbs, 0⟩

namespace Decimal

variable {n : Int}

theorem numerator_ofInt (n : Int) : (ofInt n).numerator = n.natAbs :=
  Nat.mul_one _

theorem magnitude_ofInt (n : Int) : (ofInt n).magnitude = n.natAbs := by
  rw [magnitude, ofInt, zpow_zero, mul_one]

section Nonzero

variable (hn : n ≠ 0) (h : n.natAbs ≤ 2 ^ (64 : Nat))
include hn

theorem one_le_natAbs : (1 : ℚ) ≤ n.natAbs := by
  exact_mod_cast Int.natAbs_pos.mpr hn

theorem isMinute_ofInt : (ofInt n).isMinute = false := by
  rw [Bool.eq_false_iff, ne_eq, isMinute_iff (Int.natAbs_ne_zero.mpr hn),
    magnitude_ofInt, not_lt]
  have hsmall : (10 : ℚ) ^ (-401 : Int) ≤ 1 :=
    zpow_le_one_of_nonpos₀ (by norm_num) (by norm_num)
  exact hsmall.trans (one_le_natAbs hn)

theorem not_isTiny_natAbs : ¬ Binary64.IsTiny n.natAbs 1 := by
  rw [Binary64.isTiny_iff Nat.one_pos, Binary64.quotient_one, not_lt]
  have hstep : (0 : ℚ) < 2 ^ (-1074 : Int) := by positivity
  have hsmall : (10 : ℚ) ^ (-307 : Int) ≤ 1 :=
    zpow_le_one_of_nonpos₀ (by norm_num) (by norm_num)
  linarith [one_le_natAbs hn, least_normal_le]

include h

theorem isHuge_ofInt : (ofInt n).isHuge = false := by
  rw [Bool.eq_false_iff, ne_eq, isHuge_iff (Int.natAbs_ne_zero.mpr hn),
    magnitude_ofInt, not_le]
  have hmost : (n.natAbs : ℚ) < (10 : ℚ) ^ (20 : Int) := by
    exact_mod_cast Nat.lt_of_le_of_lt h (by decide)
  have hlarge : (10 : ℚ) ^ (20 : Int) ≤ 10 ^ (400 : Int) :=
    zpow_le_zpow_right₀ (by norm_num) (by norm_num)
  exact hmost.trans_le hlarge

end Nonzero

/-- An integer of 64 bits is rounded as such. -/
theorem toBinary64_ofInt (h : n.natAbs ≤ 2 ^ (64 : Nat)) :
    (ofInt n).toBinary64 = .ofInt n := by
  rcases eq_or_ne n 0 with rfl | hn
  · rfl
  · have hsignificand : (ofInt n).significand ≠ 0 := Int.natAbs_ne_zero.mpr hn
    simp only [toBinary64, hsignificand, isMinute_ofInt hn, isHuge_ofInt hn h,
      numerator_ofInt]
    exact (Binary64.ofInt_eq n).symm

/-- No integer is out of range. -/
theorem outOfRange_ofInt (h : n.natAbs ≤ 2 ^ (64 : Nat)) :
    (ofInt n).outOfRange = false := by
  rcases eq_or_ne n 0 with rfl | hn
  · rfl
  · have hsignificand : (ofInt n).significand ≠ 0 := Int.natAbs_ne_zero.mpr hn
    have htiny :
        ¬ Binary64.IsTiny (ofInt n).numerator (ofInt n).denominator := by
      rw [numerator_ofInt]
      exact not_isTiny_natAbs hn
    simp [outOfRange, hsignificand, isMinute_ofInt hn, isHuge_ofInt hn h,
      toBinary64_ofInt h, (Binary64.isNearest_ofInt h).isFinite, htiny]

/-- No integer is rounded to a subnormal number. -/
theorem isSubnormal_ofInt (h : n.natAbs ≤ 2 ^ (64 : Nat)) :
    (Binary64.ofInt n).isSubnormal = false := by
  rw [Bool.eq_false_iff, ne_eq, Binary64.isSubnormal, Bool.and_eq_true,
    decide_eq_true_iff, decide_eq_true_iff]
  rintro ⟨hfield, hx⟩
  have htiny :=
    isTiny_of_subnormal (toBinary64_ofInt h)
      (Binary64.isNearest_ofInt h).isFinite hx hfield
  rcases eq_or_ne n 0 with rfl | hn
  · exact hx rfl
  · rw [numerator_ofInt] at htiny
    exact not_isTiny_natAbs hn htiny

end Decimal

namespace Json

variable {v : Json} {q : ℚ}

/-- A number with an exact value is an integer or a finite binary number. -/
theorem exactValue?_cases (h : v.exactValue? = some q) :
    (∃ n, v.integer? = some n ∧ q = n) ∨
      ∃ x, v = .double x ∧ x.isFinite = true ∧ q = x.value := by
  cases v with
  | unsigned m => exact .inl ⟨m.toNat, rfl, by cases h; rw [Int.cast_natCast]⟩
  | signed m => exact .inl ⟨m.toInt, rfl, by cases h; rfl⟩
  | double x =>
    rw [exactValue?] at h
    split at h
    · next hfinite => exact .inr ⟨x, rfl, hfinite, (Option.some.inj h).symm⟩
    · cases h
  | _ => cases h

theorem ofInt_eq (n : Int) :
    Text.ofInt n = signText (decide (n < 0)) ++ Text.ofNat n.natAbs := by
  cases n with
  | ofNat m => rfl
  | negSucc m =>
    rw [decide_eq_true (Int.negSucc_lt_zero m)]
    rfl

theorem render_of_integer? {n : Int} (h : v.integer? = some n) :
    v.render = Text.ofInt n := by
  cases v with
  | unsigned m =>
    cases h
    rw [render]
    rfl
  | signed m =>
    cases h
    rw [render]
  | _ => cases h

/-- An integer is written as its sign and its digits. -/
theorem exists_parts_of_integer? {n : Int} (h : v.integer? = some n) :
    ∃ parts : NumberParts, parts.WellFormed ∧
      v.render = signText (decide (n < 0)) ++ parts.written ∧
      parts.decimal (decide (n < 0)) = Decimal.ofInt n := by
  refine ⟨⟨Text.ofNat n.natAbs, none, none⟩, ⟨isWhole_ofNat _, nofun⟩, ?_, ?_⟩
  · rw [render_of_integer? h, ofInt_eq, NumberParts.written, fractionText,
      powerText, List.append_nil, List.append_nil]
  · rw [NumberParts.decimal, Numeral.toDecimal, Option.getD_none,
      List.append_nil, Text.digitsValue_ofNat]
    rfl

end Json

namespace Coercion

variable {v : Json} {q : ℚ}

/-- What is written for a number is read as a decimal that rounds to the nearest
binary number, and that is out of range just if this is subnormal. -/
theorem exists_parts_render (h : v.exactValue? = some q) :
    ∃ (negative : Bool) (parts : Json.NumberParts) (x : Binary64),
      parts.WellFormed ∧ v.render = Json.signText negative ++ parts.written ∧
      (parts.decimal negative).toBinary64 = x ∧
      (parts.decimal negative).outOfRange = x.isSubnormal ∧
      toFloat v = .ok x ∧ x.IsNearest q ∧ ∀ y, v = .double y → x = y := by
  rcases Json.exactValue?_cases h with ⟨n, hn, rfl⟩ | ⟨x, rfl, hfinite, rfl⟩
  · have hbound : n.natAbs ≤ 2 ^ (64 : Nat) := by
      have hbounds := Json.integer?_bounds hn
      omega
    obtain ⟨parts, hparts, hrender, hdecimal⟩ :=
      Json.exists_parts_of_integer? hn
    refine ⟨_, parts, .ofInt n, hparts, hrender, ?_, ?_, toFloat_of_integer? hn,
      Binary64.isNearest_ofInt hbound, ?_⟩
    · rw [hdecimal, Decimal.toBinary64_ofInt hbound]
    · rw [hdecimal, Decimal.outOfRange_ofInt hbound,
        Decimal.isSubnormal_ofInt hbound]
    · rintro y rfl
      cases hn
  · obtain ⟨parts, hparts, -, hrender, hmagnitude⟩ :=
      Json.exists_parts_renderDouble hfinite
    obtain ⟨hsign, hread⟩ := Decimal.denotes_shortest hfinite
    refine ⟨x.negative, parts, x, hparts, ?_, ?_, ?_, rfl,
      Binary64.isNearest_value hfinite, ?_⟩
    · rw [Json.render, hrender]
    · exact (Decimal.toBinary64_congr hsign.symm hmagnitude).trans hread
    · exact (Decimal.outOfRange_congr hsign.symm hmagnitude).trans
        (Decimal.outOfRange_shortest hfinite)
    · rintro y ⟨⟩
      rfl

/-- A number and its text come to the same binary number, which is the nearest
one, and the number itself if it is binary already.  Only the text of a
subnormal number is refused. -/
theorem toFloat_render (v : Json) {q : ℚ} (h : v.exactValue? = some q) :
    ∃ x, toFloat v = .ok x ∧ x.IsNearest q ∧ (∀ y, v = .double y → x = y) ∧
      ∀ before after : Text, (∀ b ∈ before, Text.isBlank b = true) →
        (∀ b ∈ after, Text.isBlank b = true) →
        toFloat (.string (before ++ v.render ++ after)) =
          if x.isSubnormal then .error .notFloat else .ok x := by
  obtain ⟨negative, parts, x, hparts, hrender, hread, hrange, hfloat, hnearest,
    hsame⟩ :=
    exists_parts_render h
  refine ⟨x, hfloat, hnearest, hsame, fun before after hbefore hafter => ?_⟩
  rw [hrender, toFloat,
    Text.trim_append hbefore (hparts.isBlank_of_mem negative) hafter,
    floatOfText?, hparts.decimal?_written negative]
  dsimp only
  rw [hread, hrange]
  cases x.isSubnormal with
  | true => rfl
  | false => rfl

/-- The largest finite number, which is written with seventeen digits. -/
theorem toFloat_render_largest :
    ∃ q, (Json.double ⟨0x7fefffffffffffff⟩).exactValue? = some q ∧
      toFloat (.string
        (text " " ++ (Json.double ⟨0x7fefffffffffffff⟩).render ++ text "\n")) =
        .ok ⟨0x7fefffffffffffff⟩ := by
  have hfinite : (⟨0x7fefffffffffffff⟩ : Binary64).isFinite = true := by decide
  have hvalue : (Json.double ⟨0x7fefffffffffffff⟩).exactValue? =
      some (⟨0x7fefffffffffffff⟩ : Binary64).value := by
    rw [Json.exactValue?, if_pos hfinite]
  obtain ⟨x, -, -, hsame, htext⟩ :=
    toFloat_render (.double ⟨0x7fefffffffffffff⟩) hvalue
  refine ⟨_, hvalue, ?_⟩
  have hspace : ∀ b ∈ text " ", Text.isBlank b = true :=
    List.all_eq_true.mp (by decide)
  have hline : ∀ b ∈ text "\n", Text.isBlank b = true :=
    List.all_eq_true.mp (by decide)
  rw [htext (text " ") (text "\n") hspace hline, hsame _ rfl]
  rfl

/-- The least positive number is accepted as a number, and its text
is refused. -/
theorem toFloat_render_least :
    toFloat (.double ⟨1⟩) = .ok ⟨1⟩ ∧ (⟨1⟩ : Binary64).isFinite = true ∧
      (Json.double ⟨1⟩).render = text "5e-324" ∧
      toFloat (.string (text "5e-324")) = .error .notFloat := by
  refine ⟨rfl, by decide, by decide +kernel, ?_⟩
  have hread : floatOfText? (text "5e-324").trim = none := by decide +kernel
  rw [toFloat, hread]

end Coercion
end FleetControl

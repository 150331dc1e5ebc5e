import FleetControl.Decimal.Shortest
import FleetControl.Proofs.Binary64

/-!
# Decimals that are read back

What a decimal number rounds to depends on its sign and its magnitude alone,
whatever power of ten its significand counts.  The decimal that
`Decimal.shortest` gives for a finite number rounds to that number: each
candidate of the search has been tried, and the exact decimal, which is given
when the search finds none, has the magnitude of the number.
-/

namespace FleetControl
namespace Decimal

attribute [local instance (2000)] instPowNat

open Binary64 (quotient)

/-- The magnitude of a decimal number. -/
def magnitude (x : Decimal) : ℚ :=
  x.significand * (10 : ℚ) ^ x.exponent

theorem quotient_eq (x : Decimal) :
    quotient x.numerator x.denominator = x.magnitude := by
  have hzpow := zpow_eq_div (b := 10) (by decide) x.exponent
  rw [Nat.cast_ofNat] at hzpow
  rw [quotient, numerator, denominator, magnitude, hzpow, Nat.cast_mul,
    mul_div_assoc]

theorem denominator_pos (x : Decimal) : 0 < x.denominator :=
  Nat.pow_pos (by decide)

/-! ## The place of the point -/

theorem digitCount_le_iff (n k : Nat) : digitCount n ≤ k ↔ n < 10 ^ k := by
  induction k generalizing n with
  | zero =>
    rw [digitCount]
    split
    · next hn => simp [hn]
    · next hn => simp [hn]
  | succ k ih =>
    rw [digitCount]
    split
    · next hn =>
      rw [hn]
      exact ⟨fun _ => Nat.pow_pos (by decide), fun _ => Nat.zero_le _⟩
    · rw [Nat.add_le_add_iff_right, ih, Nat.div_lt_iff_lt_mul (by decide),
        Nat.pow_succ]

/-- The point stands where the magnitude says. -/
theorem point_le_iff {x : Decimal} (hx : x.significand ≠ 0) (k : Int) :
    x.point ≤ k ↔ x.magnitude < (10 : ℚ) ^ k := by
  have hten : (10 : ℚ) ≠ 0 := by norm_num
  have hpow : (0 : ℚ) < 10 ^ x.exponent := by positivity
  have hshift : (10 : ℚ) ^ k = 10 ^ (k - x.exponent) * 10 ^ x.exponent := by
    rw [← zpow_add₀ hten, sub_add_cancel]
  rw [magnitude, hshift, mul_lt_mul_iff_of_pos_right hpow, point]
  rcases Int.lt_or_le (k - x.exponent) 0 with hneg | hnonneg
  · have hone : (1 : ℚ) ≤ x.significand := by
      exact_mod_cast Nat.one_le_iff_ne_zero.mpr hx
    have hsmall : (10 : ℚ) ^ (k - x.exponent) < 1 :=
      zpow_lt_one_of_neg₀ (by norm_num) hneg
    constructor
    · intro h
      omega
    · intro h
      exact absurd (h.trans hsmall) (not_lt.mpr hone)
  · obtain ⟨m, hm⟩ := Int.eq_ofNat_of_zero_le hnonneg
    have hcount := digitCount_le_iff x.significand m
    rw [hm, zpow_natCast]
    constructor
    · intro h
      exact_mod_cast hcount.mp (by omega)
    · intro h
      have := hcount.mpr (by exact_mod_cast h)
      omega

theorem isHuge_iff {x : Decimal} (hx : x.significand ≠ 0) :
    x.isHuge = true ↔ (10 : ℚ) ^ (400 : Int) ≤ x.magnitude := by
  rw [isHuge, Bool.and_eq_true, decide_eq_true_eq, decide_eq_true_eq,
    and_iff_right hx, ← not_le, point_le_iff hx, not_lt]

theorem isMinute_iff {x : Decimal} (hx : x.significand ≠ 0) :
    x.isMinute = true ↔ x.magnitude < (10 : ℚ) ^ (-401 : Int) := by
  rw [isMinute, Bool.and_eq_true, decide_eq_true_eq, decide_eq_true_eq,
    and_iff_right hx, ← point_le_iff hx]
  omega

/-! ## Rounding -/

theorem magnitude_eq_zero_iff (x : Decimal) :
    x.magnitude = 0 ↔ x.significand = 0 := by
  have hpow : (10 : ℚ) ^ x.exponent ≠ 0 := by positivity
  rw [magnitude, mul_eq_zero, or_iff_left hpow, Nat.cast_eq_zero]

theorem toBinary64_of_zero {x : Decimal} (h : x.significand = 0) :
    x.toBinary64 = .zero x.negative := by
  simp [toBinary64, h]

/-- What a decimal number rounds to depends on its sign and its
magnitude alone. -/
theorem toBinary64_congr {x y : Decimal} (hsign : x.negative = y.negative)
    (h : x.magnitude = y.magnitude) : x.toBinary64 = y.toBinary64 := by
  by_cases hx : x.significand = 0
  · have hy : y.significand = 0 := by
      rwa [← magnitude_eq_zero_iff, ← h, magnitude_eq_zero_iff]
    rw [toBinary64_of_zero hx, toBinary64_of_zero hy, hsign]
  · have hy : y.significand ≠ 0 := by
      rwa [ne_eq, ← magnitude_eq_zero_iff, ← h, magnitude_eq_zero_iff]
    have hhuge : x.isHuge = y.isHuge := by
      rw [Bool.eq_iff_iff, isHuge_iff hx, isHuge_iff hy, h]
    have hminute : x.isMinute = y.isMinute := by
      rw [Bool.eq_iff_iff, isMinute_iff hx, isMinute_iff hy, h]
    have hword : Binary64.nearestWord x.numerator x.denominator =
        Binary64.nearestWord y.numerator y.denominator := by
      apply Binary64.nearestWord_congr x.denominator_pos y.denominator_pos
      rw [quotient_eq, quotient_eq, h]
    simp only [toBinary64, hx, hy, hhuge, hminute, hsign, Binary64.nearest,
      hword]

/-- A power of ten that the significand counts may as well stand in
the exponent. -/
theorem magnitude_scaled (negative : Bool) (n j : Nat) (e : Int) :
    magnitude ⟨negative, n * 10 ^ j, e - j⟩ = magnitude ⟨negative, n, e⟩ := by
  have hten : (10 : ℚ) ≠ 0 := by norm_num
  simp only [magnitude]
  rw [Nat.cast_mul, Nat.cast_pow, Nat.cast_ofNat, mul_assoc, ← zpow_natCast,
    ← zpow_add₀ hten, add_sub_cancel]

/-! ## The shortest decimal -/

variable {x : Binary64}

theorem magnitude_exact (x : Binary64) :
    (exact x).magnitude = x.mantissa * (2 : ℚ) ^ x.scale := by
  rw [exact]
  split
  · next hscale =>
    rw [magnitude, Binary64.numerator]
    simp only
    rw [zpow_zero, mul_one, Nat.cast_mul, Nat.cast_pow, Nat.cast_ofNat,
      ← zpow_natCast, Int.toNat_of_nonneg hscale]
  · next hscale =>
    have hfive : ((5 ^ (-x.scale).toNat : Nat) : ℚ) = (5 : ℚ) ^ (-x.scale) := by
      rw [Nat.cast_pow, Nat.cast_ofNat, ← zpow_natCast,
        Int.toNat_of_nonneg (by omega)]
    have hten : (10 : ℚ) ^ x.scale = 5 ^ x.scale * 2 ^ x.scale := by
      rw [← mul_zpow]
      norm_num
    rw [magnitude]
    simp only
    rw [Nat.cast_mul, hfive, hten, mul_assoc, ← mul_assoc (5 ^ (-x.scale) : ℚ),
      ← zpow_add₀ (by norm_num), neg_add_cancel, zpow_zero, one_mul]

theorem zpow_three_mul_le (k : Nat) :
    (2 : ℚ) ^ (3 * (k : Int)) ≤ (10 : ℚ) ^ (k : Int) := by
  rw [zpow_mul]
  exact zpow_le_zpow_left₀ (Int.natCast_nonneg k) (by norm_num) (by norm_num)

/-- A finite number lies well within the powers of ten that
rounding looks at. -/
theorem magnitude_bounds (hfinite : x.isFinite = true) (h : x.mantissa ≠ 0) :
    (10 : ℚ) ^ (-401 : Int) ≤ x.mantissa * (2 : ℚ) ^ x.scale ∧
      x.mantissa * (2 : ℚ) ^ x.scale < (10 : ℚ) ^ (400 : Int) := by
  have hone : (1 : ℚ) ≤ x.mantissa := by
    exact_mod_cast Nat.one_le_iff_ne_zero.mpr h
  have hmantissa : (x.mantissa : ℚ) < 2 ^ (53 : Int) := by
    exact_mod_cast x.mantissa_lt
  obtain ⟨hleast, hlargest⟩ := Binary64.scale_bounds hfinite
  constructor
  · calc (10 : ℚ) ^ (-401 : Int) ≤ 10 ^ (-(358 : Nat) : Int) :=
          zpow_le_zpow_right₀ (by norm_num) (by norm_num)
      _ ≤ 2 ^ (-(3 * (358 : Nat)) : Int) := by
          rw [zpow_neg, zpow_neg]
          exact inv_anti₀ (by positivity) (zpow_three_mul_le 358)
      _ ≤ 2 ^ x.scale :=
        zpow_le_zpow_right₀ one_le_two (by norm_num; exact hleast)
      _ ≤ x.mantissa * 2 ^ x.scale := le_mul_of_one_le_left (by positivity) hone
  · calc x.mantissa * (2 : ℚ) ^ x.scale
        < 2 ^ (53 : Int) * 2 ^ x.scale := by gcongr
        _ ≤ 2 ^ (53 : Int) * 2 ^ (971 : Int) := by
            gcongr
            exact one_le_two
        _ = 2 ^ (1024 : Int) := by
            rw [show (1024 : Int) = 53 + 971 from rfl, zpow_add₀ two_ne_zero]
        _ ≤ 2 ^ (3 * (342 : Nat) : Int) :=
          zpow_le_zpow_right₀ one_le_two (by norm_num)
        _ ≤ 10 ^ ((342 : Nat) : Int) := zpow_three_mul_le 342
        _ ≤ 10 ^ (400 : Int) := zpow_le_zpow_right₀ (by norm_num) (by norm_num)

/-- The exact decimal of a finite number rounds to it. -/
theorem toBinary64_exact (hfinite : x.isFinite = true) (h : x.mantissa ≠ 0) :
    (exact x).toBinary64 = x := by
  obtain ⟨hlow, hhigh⟩ := magnitude_bounds hfinite h
  rw [← magnitude_exact] at hlow hhigh
  have hsignificand : (exact x).significand ≠ 0 := by
    rw [ne_eq, ← magnitude_eq_zero_iff, magnitude_exact]
    positivity
  have hhuge : (exact x).isHuge = false := by
    rw [Bool.eq_false_iff, ne_eq, isHuge_iff hsignificand]
    exact not_le.mpr hhigh
  have hminute : (exact x).isMinute = false := by
    rw [Bool.eq_false_iff, ne_eq, isMinute_iff hsignificand]
    exact not_lt.mpr hlow
  have hsign : (exact x).negative = x.negative := by
    rw [exact]
    split <;> rfl
  have hword : Binary64.nearestWord (exact x).numerator (exact x).denominator =
      x.magnitudeWord := by
    rw [← Binary64.nearestWord_of_mantissa h]
    refine Binary64.nearestWord_congr (denominator_pos _) (Nat.two_pow_pos _) ?_
    rw [quotient_eq, magnitude_exact, Binary64.quotient_eq]
  simp only [toBinary64, hsignificand, hhuge, hminute, hsign]
  exact Binary64.nearest_eq_of_nearestWord hfinite hword

/-- A decimal of the number's sign that is read back as it. -/
def Denotes (d : Decimal) (x : Binary64) : Prop :=
  d.negative = x.negative ∧ d.toBinary64 = x

theorem denotes_of_neighbour? {n d : Nat} {unit : Int} {found : Decimal}
    (h : neighbour? x n d unit = some found) : found.Denotes x := by
  have hboth : ∀ first second : Decimal, first.negative = x.negative →
      second.negative = x.negative →
      (if first.toBinary64 = x then some first
        else if second.toBinary64 = x then some second else none) = some found →
      found.Denotes x := by
    intro first second hfirst hsecond heq
    split at heq
    · next hread =>
      cases heq
      exact ⟨hfirst, hread⟩
    · split at heq
      · next hread =>
        cases heq
        exact ⟨hsecond, hread⟩
      · cases heq
  unfold neighbour? at h
  dsimp only at h
  split at h
  · exact hboth _ _ rfl rfl h
  · exact hboth _ _ rfl rfl h

theorem denotes_of_search? {n d digits further : Nat} {found : Decimal}
    (h : search? x n d digits further = some found) : found.Denotes x := by
  induction further generalizing digits with
  | zero => cases h
  | succ further ih =>
    unfold search? at h
    split at h
    · next hfound =>
      cases h
      exact denotes_of_neighbour? hfound
    · exact ih h

/-- The shortest decimal of a finite number is read back as it. -/
theorem denotes_shortest (hfinite : x.isFinite = true) :
    (shortest x).Denotes x := by
  rw [shortest]
  split
  · next hzero =>
    have hword := Binary64.ofMagnitude_magnitudeWord x
    rw [Binary64.magnitudeWord_eq_zero hzero] at hword
    exact ⟨rfl, hword⟩
  · next h =>
    cases hsearch : search? x x.numerator x.denominator 1 17 with
    | some found => exact denotes_of_search? hsearch
    | none =>
      have hsign : (exact x).negative = x.negative := by
        rw [exact]
        split <;> rfl
      exact ⟨hsign, toBinary64_exact hfinite h⟩

end Decimal
end FleetControl

import Mathlib.Algebra.Order.Field.Power
import Mathlib.Algebra.Order.Field.Rat
import Mathlib.Data.Int.Log
import Mathlib.Data.Rat.Floor
import Mathlib.Tactic.FieldSimp
import Mathlib.Tactic.Positivity
import FleetControl.Binary64.Nearest

/-!
# Rounding depends on the quotient alone

The rounding of a quotient is the same for every way of writing the quotient,
and a finite number is what its own quotient rounds to.  Both come from
`floorLog2_eq_log`: the grid is found by the logarithm of the quotient as a
rational number.
-/

namespace FleetControl

attribute [local instance (2000)] instPowNat

/-- A power with an integer exponent, as a quotient of two whole powers. -/
theorem zpow_eq_div {b : Nat} (hb : 0 < b) (e : Int) :
    (b : ℚ) ^ e = ((b ^ e.toNat : Nat) : ℚ) / ((b ^ (-e).toNat : Nat) : ℚ) := by
  have hne : (b : ℚ) ≠ 0 := by positivity
  rcases Int.le_total 0 e with he | he
  · have hneg : (-e).toNat = 0 := by omega
    have hcast : (b : ℚ) ^ e = (b : ℚ) ^ e.toNat := by
      rw [← zpow_natCast, Int.toNat_of_nonneg he]
    rw [hneg, hcast, Nat.pow_zero]
    push_cast
    rw [div_one]
  · have hpos : e.toNat = 0 := by omega
    have hcast : (b : ℚ) ^ e = ((b : ℚ) ^ (-e).toNat)⁻¹ := by
      rw [← zpow_natCast, Int.toNat_of_nonneg (by omega), zpow_neg, inv_inv]
    rw [hpos, hcast, Nat.pow_zero]
    push_cast
    rw [one_div]

namespace Binary64

variable {n d : Nat}

/-- The quotient of two natural numbers as a rational number. -/
def quotient (n d : Nat) : ℚ :=
  n / d

theorem quotient_pos (hn : 0 < n) (hd : 0 < d) : 0 < quotient n d := by
  unfold quotient
  positivity

theorem zpow_le_quotient_iff (hd : 0 < d) (e : Int) :
    (2 : ℚ) ^ e ≤ quotient n d ↔ d * 2 ^ e.toNat ≤ n * 2 ^ (-e).toNat := by
  have hd' : (0 : ℚ) < d := by exact_mod_cast hd
  have hpow : (0 : ℚ) < ((2 ^ (-e).toNat : Nat) : ℚ) := by
    exact_mod_cast Nat.two_pow_pos _
  have hzpow := zpow_eq_div (b := 2) (by decide) e
  rw [Nat.cast_ofNat] at hzpow
  rw [quotient, hzpow, div_le_div_iff₀ hpow hd', Nat.mul_comm d]
  exact_mod_cast Iff.rfl

theorem log_eq_of {r : ℚ} {e : Int} (hlow : (2 : ℚ) ^ e ≤ r)
    (hhigh : r < (2 : ℚ) ^ (e + 1)) : Int.log 2 r = e := by
  have hr : 0 < r := (zpow_pos two_pos e).trans_le hlow
  have hle := (Int.zpow_le_iff_le_log (b := 2) (by decide) hr).mp hlow
  have hlt := (Int.lt_zpow_iff_log_lt (b := 2) (by decide) hr).mp hhigh
  omega

theorem zpow_log2_le {m : Nat} (hm : 0 < m) : (2 : ℚ) ^ (m.log2 : Int) ≤ m := by
  rw [zpow_natCast]
  exact_mod_cast Nat.log2_self_le (Nat.ne_of_gt hm)

theorem lt_zpow_log2 (m : Nat) : (m : ℚ) < 2 ^ ((m.log2 : Int) + 1) := by
  rw [show (m.log2 : Int) + 1 = ((m.log2 + 1 : Nat) : Int) from
    rfl, zpow_natCast]
  exact_mod_cast Nat.lt_log2_self

/-- The search for the grid finds the logarithm of the quotient. -/
theorem floorLog2_eq_log (hn : 0 < n) (hd : 0 < d) :
    floorLog2 n d = Int.log 2 (quotient n d) := by
  have hd' : (0 : ℚ) < d := by exact_mod_cast hd
  have htwo : (2 : ℚ) ≠ 0 := two_ne_zero
  have hhigh : quotient n d < 2 ^ ((n.log2 : Int) - d.log2 + 1) := by
    rw [quotient, div_lt_iff₀ hd']
    calc (n : ℚ) < 2 ^ ((n.log2 : Int) + 1) := lt_zpow_log2 n
      _ = 2 ^ ((n.log2 : Int) - d.log2 + 1) * 2 ^ (d.log2 : Int) := by
        rw [← zpow_add₀ htwo]
        congr 1
        omega
      _ ≤ 2 ^ ((n.log2 : Int) - d.log2 + 1) * d := by
        gcongr
        exact zpow_log2_le hd
  have hlow : (2 : ℚ) ^ ((n.log2 : Int) - d.log2 - 1) ≤ quotient n d := by
    rw [quotient, le_div_iff₀ hd']
    calc (2 : ℚ) ^ ((n.log2 : Int) - d.log2 - 1) * d
        ≤ 2 ^ ((n.log2 : Int) - d.log2 - 1) * 2 ^ ((d.log2 : Int) + 1) := by
          gcongr
          exact (lt_zpow_log2 d).le
      _ = 2 ^ (n.log2 : Int) := by
          rw [← zpow_add₀ htwo]
          congr 1
          omega
      _ ≤ n := zpow_log2_le hn
  rw [floorLog2]
  simp only [← zpow_le_quotient_iff hd]
  split
  · next hguess => exact (log_eq_of hguess hhigh).symm
  · next hguess =>
    refine (log_eq_of hlow ?_).symm
    rw [sub_add_cancel]
    exact not_le.mp hguess

/-! ## Rounding -/

theorem quotient_eq_iff {n' d' : Nat} (hd : 0 < d) (hd' : 0 < d') :
    quotient n d = quotient n' d' ↔ n * d' = n' * d := by
  have hne : (d : ℚ) ≠ 0 := by exact_mod_cast Nat.ne_of_gt hd
  have hne' : (d' : ℚ) ≠ 0 := by exact_mod_cast Nat.ne_of_gt hd'
  rw [quotient, quotient, div_eq_div_iff hne hne']
  exact_mod_cast Iff.rfl

theorem roundHalfEven_mul_left {k : Nat} (hk : 0 < k) (n d : Nat) :
    roundHalfEven (k * n) (k * d) = roundHalfEven n d := by
  have hdouble : 2 * (k * (n % d)) = k * (2 * (n % d)) :=
    Nat.mul_left_comm 2 k _
  rw [roundHalfEven, roundHalfEven, Nat.mul_div_mul_left _ _ hk,
    Nat.mul_mod_mul_left, hdouble]
  simp only [Nat.mul_lt_mul_left hk]

theorem roundHalfEven_one (n : Nat) : roundHalfEven n 1 = n := by
  simp [roundHalfEven, Nat.mod_one]

/-- Rounding to a whole number depends on the quotient alone. -/
theorem roundHalfEven_congr {n' d' : Nat} (hd : 0 < d) (hd' : 0 < d')
    (h : n * d' = n' * d) :
    roundHalfEven n d = roundHalfEven n' d' := by
  rw [← roundHalfEven_mul_left hd' n d, ← roundHalfEven_mul_left hd n' d',
    Nat.mul_comm d' n, h, Nat.mul_comm d n', Nat.mul_comm d' d]

/-- The word of the rounding depends on the quotient alone. -/
theorem nearestWord_congr {n' d' : Nat} (hd : 0 < d) (hd' : 0 < d')
    (h : quotient n d = quotient n' d') :
    nearestWord n d = nearestWord n' d' := by
  have hcross := (quotient_eq_iff hd hd').mp h
  rcases Nat.eq_zero_or_pos n with rfl | hn
  · have hn' : n' = 0 := by
      rw [Nat.zero_mul] at hcross
      exact (Nat.mul_eq_zero.mp hcross.symm).resolve_right (Nat.ne_of_gt hd)
    rw [hn', nearestWord, nearestWord, if_pos rfl, if_pos rfl]
  · have hn' : 0 < n' := by
      by_contra hnot
      rw [Nat.eq_zero_of_not_pos hnot, Nat.zero_mul] at hcross
      exact Nat.ne_of_gt (Nat.mul_pos hn hd') hcross
    have hgrid : grid n d = grid n' d' := by
      rw [grid, grid, floorLog2_eq_log hn hd, floorLog2_eq_log hn' hd', h]
    have hmantissa : gridMantissa n d = gridMantissa n' d' := by
      rw [gridMantissa, gridMantissa, hgrid]
      refine roundHalfEven_congr (Nat.mul_pos hd (Nat.two_pow_pos _))
        (Nat.mul_pos hd' (Nat.two_pow_pos _)) ?_
      rw [Nat.mul_mul_mul_comm, hcross, Nat.mul_mul_mul_comm]
    rw [nearestWord, nearestWord, if_neg (Nat.ne_of_gt hn),
      if_neg (Nat.ne_of_gt hn'), hgrid, hmantissa]

/-! ## Finite numbers -/

variable {x : Binary64}

theorem quotient_eq (x : Binary64) :
    quotient x.numerator x.denominator = x.mantissa * (2 : ℚ) ^ x.scale := by
  have hzpow := zpow_eq_div (b := 2) (by decide) x.scale
  rw [Nat.cast_ofNat] at hzpow
  rw [quotient, numerator, denominator, hzpow, Nat.cast_mul, mul_div_assoc]

theorem magnitudeWord_eq (x : Binary64) :
    x.magnitudeWord = x.exponentField * 2 ^ (52 : Nat) + x.fraction := by
  rw [exponentField, fraction, Nat.div_add_mod']

theorem fraction_lt (x : Binary64) : x.fraction < 2 ^ (52 : Nat) :=
  Nat.mod_lt _ (Nat.two_pow_pos _)

theorem magnitudeWord_eq_zero (h : x.mantissa = 0) : x.magnitudeWord = 0 := by
  rw [mantissa] at h
  rw [magnitudeWord_eq]
  split at h
  · next hfield => rw [h, hfield]
  · exact absurd h (by omega)

theorem mantissa_lt (x : Binary64) : x.mantissa < 2 ^ (53 : Nat) := by
  have hfraction := x.fraction_lt
  rw [mantissa]
  split <;> omega

theorem scale_bounds (h : x.isFinite = true) :
    -1074 ≤ x.scale ∧ x.scale ≤ 971 := by
  have hword : x.magnitudeWord < 2047 * 2 ^ (52 : Nat) := of_decide_eq_true h
  have hfield : x.exponentField < 2047 :=
    Nat.div_lt_of_lt_mul (by rwa [Nat.mul_comm])
  rw [scale]
  omega

/-- The sign and the word of the magnitude make up a number. -/
theorem ofMagnitude_magnitudeWord (x : Binary64) :
    ofMagnitude x.negative x.magnitudeWord = x := by
  have hlt := x.bits.toNat_lt
  have hword :
      (if x.negative then 2 ^ (63 : Nat) + x.magnitudeWord
        else x.magnitudeWord) =
      x.bits.toNat := by
    simp only [negative, magnitudeWord, decide_eq_true_eq]
    split <;> omega
  rw [ofMagnitude, hword, UInt64.ofNat_toNat]

/-- The grid of a finite number is the power of two that its mantissa counts. -/
theorem grid_of_mantissa (h : x.mantissa ≠ 0) :
    grid x.numerator x.denominator = x.scale := by
  have hpow : (0 : ℚ) < 2 ^ x.scale := zpow_pos two_pos _
  have hd : 0 < x.denominator := Nat.two_pow_pos _
  have hn : 0 < x.numerator :=
    Nat.mul_pos (Nat.pos_of_ne_zero h) (Nat.two_pow_pos _)
  have hfraction := x.fraction_lt
  have hvalue := quotient_eq x
  rw [grid, floorLog2_eq_log hn hd]
  by_cases hfield : x.exponentField = 0
  · have hscale : x.scale = -1074 := by
      rw [scale, hfield]
      rfl
    have hmantissa : (x.mantissa : ℚ) < 2 ^ (52 : Int) := by
      rw [mantissa, if_pos hfield]
      exact_mod_cast hfraction
    have hlog : Int.log 2 (quotient x.numerator x.denominator) <
        52 + x.scale := by
      rw [← Int.lt_zpow_iff_log_lt (by decide) (quotient_pos hn hd), hvalue,
        Nat.cast_ofNat, zpow_add₀ two_ne_zero]
      gcongr
    omega
  · have hmantissa : x.mantissa = x.fraction + 2 ^ (52 : Nat) := by
      rw [mantissa, if_neg hfield]
    have hlow : (2 : ℚ) ^ (52 : Int) ≤ x.mantissa := by
      rw [hmantissa]
      exact_mod_cast Nat.le_add_left _ _
    have hhigh : (x.mantissa : ℚ) < 2 ^ (53 : Int) := by
      rw [hmantissa]
      exact_mod_cast show x.fraction + 2 ^ (52 : Nat) < 2 ^ (53 : Nat) by omega
    have hlog : Int.log 2 (quotient x.numerator x.denominator) =
        52 + x.scale := by
      apply log_eq_of
      · rw [hvalue, zpow_add₀ two_ne_zero]
        gcongr
      · rw [hvalue, show 52 + x.scale + 1 = 53 + x.scale by omega,
          zpow_add₀ two_ne_zero]
        gcongr
    have hscale : -1074 ≤ x.scale := by
      rw [scale]
      omega
    omega

/-- A finite number that is not zero is what its own quotient rounds to. -/
theorem nearestWord_of_mantissa (h : x.mantissa ≠ 0) :
    nearestWord x.numerator x.denominator = x.magnitudeWord := by
  have hn : x.numerator ≠ 0 :=
    Nat.mul_ne_zero h (Nat.ne_of_gt (Nat.two_pow_pos _))
  have hgrid := grid_of_mantissa h
  have hmantissa : gridMantissa x.numerator x.denominator = x.mantissa := by
    have hunit : 0 < 2 ^ (-x.scale).toNat * 2 ^ x.scale.toNat :=
      Nat.mul_pos (Nat.two_pow_pos _) (Nat.two_pow_pos _)
    have hwhole : x.numerator * 2 ^ (-x.scale).toNat =
        2 ^ (-x.scale).toNat * 2 ^ x.scale.toNat * x.mantissa := by
      rw [numerator]
      ac_rfl
    have hround := roundHalfEven_mul_left hunit x.mantissa 1
    rw [gridMantissa, hgrid, hwhole, denominator]
    rwa [Nat.mul_one, roundHalfEven_one] at hround
  rw [nearestWord, if_neg hn, hgrid, hmantissa, magnitudeWord_eq, mantissa,
    scale]
  split <;> omega

theorem nearest_eq_of_nearestWord {n d : Nat} (hfinite : x.isFinite = true)
    (h : nearestWord n d = x.magnitudeWord) : nearest x.negative n d = x := by
  have hle : x.magnitudeWord ≤ infinityWord :=
    Nat.le_of_lt (of_decide_eq_true hfinite)
  rw [nearest, h, Nat.min_eq_left hle, ofMagnitude_magnitudeWord]

end Binary64
end FleetControl

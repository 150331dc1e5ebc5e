import Mathlib.Tactic.Linarith
import FleetControl.Proofs.Binary64.Value

/-!
# Rounding finds the nearest number

`Binary64.IsNearest` says that no finite number is closer to a rational number,
and that of two equally close ones the even mantissa has been taken.
`isNearest_nearest` says it of every rounding that does not overflow, and
`isNearest_ofInt` of every integer of 64 bits.

Rounding looks at the multiples of one power of two only.  That is enough
because any other word stands for another such multiple or for a number below
all of them, and both are at least half a step away: `eq_or_half_le_abs_sub`.
-/

namespace FleetControl
namespace Binary64

attribute [local instance (2000)] instPowNat

/-- No finite number is closer to the rational number, and of two equally close
ones this one has the even mantissa. -/
structure IsNearest (x : Binary64) (q : ℚ) : Prop where
  isFinite : x.isFinite = true
  closest : ∀ y : Binary64, y.isFinite = true → |x.value - q| ≤ |y.value - q|
  even_of_tie : ∀ y : Binary64, y.isFinite = true → y.value ≠ x.value →
    |y.value - q| = |x.value - q| → x.mantissa % 2 = 0

variable {n d : Nat} {x y : Binary64} {q : ℚ}

/-- A value that some number has is met exactly. -/
theorem IsNearest.value_eq (hx : x.IsNearest q) (hy : y.isFinite = true)
    (hvalue : y.value = q) :
    x.value = q := by
  have hclosest := hx.closest y hy
  rw [hvalue, sub_self, abs_zero] at hclosest
  exact sub_eq_zero.mp (abs_nonpos_iff.mp hclosest)

/-- A finite number is the one nearest to its value. -/
theorem isNearest_value (hx : x.isFinite = true) : x.IsNearest x.value := by
  refine ⟨hx, fun y _ => ?_, fun y _ hne heq => ?_⟩
  · rw [sub_self, abs_zero]
    exact abs_nonneg _
  · rw [sub_self, abs_zero, abs_eq_zero, sub_eq_zero] at heq
    exact absurd heq hne

/-! ## Whole numbers -/

/-- The quotient, cut at its whole part. -/
theorem quotient_eq_add (hd : 0 < d) :
    quotient n d = (n / d : Nat) + quotient (n % d) d := by
  have hd' : (d : ℚ) ≠ 0 := by exact_mod_cast Nat.ne_of_gt hd
  have hsplit : (n : ℚ) = d * (n / d : Nat) + (n % d : Nat) := by
    exact_mod_cast (Nat.div_add_mod n d).symm
  rw [quotient, quotient, hsplit, add_div, mul_div_cancel_left₀ _ hd']

/-- Rounding to a whole number leaves at most a half, and a half only for an
even number. -/
theorem abs_roundHalfEven_sub (hd : 0 < d) :
    |(roundHalfEven n d : ℚ) - quotient n d| ≤ 1 / 2 ∧
      (|(roundHalfEven n d : ℚ) - quotient n d| = 1 / 2 →
        roundHalfEven n d % 2 = 0) := by
  have hd' : (0 : ℚ) < d := by exact_mod_cast hd
  have hnonneg : 0 ≤ quotient (n % d) d := by
    unfold quotient
    positivity
  have hhalf : quotient (n % d) d < 1 / 2 ↔ 2 * (n % d) < d := by
    rw [quotient, div_lt_div_iff₀ hd' two_pos, one_mul, mul_comm]
    exact_mod_cast Iff.rfl
  have hhalf' : 1 / 2 < quotient (n % d) d ↔ d < 2 * (n % d) := by
    rw [quotient, div_lt_div_iff₀ two_pos hd', one_mul, mul_comm]
    exact_mod_cast Iff.rfl
  have hone : quotient (n % d) d < 1 := by
    rw [quotient, div_lt_one hd']
    exact_mod_cast Nat.mod_lt n hd
  rw [quotient_eq_add hd, roundHalfEven]
  split
  · next hbelow =>
    have hlt := hhalf.mpr hbelow
    have habs : |((n / d : Nat) : ℚ) - ((n / d : Nat) + quotient (n % d) d)| =
        quotient (n % d) d := by
      rw [sub_add_cancel_left, abs_neg, abs_of_nonneg hnonneg]
    rw [habs]
    exact ⟨hlt.le, fun htie => absurd htie hlt.ne⟩
  · next hnot =>
    split
    · next habove =>
      have hlt := hhalf'.mpr habove
      have habs :
          |((n / d + 1 : Nat) : ℚ) - ((n / d : Nat) + quotient (n % d) d)| =
          1 - quotient (n % d) d := by
        rw [Nat.cast_succ, add_sub_add_left_eq_sub, abs_of_pos (by linarith)]
      rw [habs]
      exact ⟨by linarith, fun htie => absurd htie (by linarith)⟩
    · next hnot' =>
      have hle := not_lt.mp (mt hhalf.mp hnot)
      have hge := not_lt.mp (mt hhalf'.mp hnot')
      have hmid : quotient (n % d) d = 1 / 2 := le_antisymm hge hle
      refine ⟨?_, fun _ => by omega⟩
      rcases Nat.mod_two_eq_zero_or_one (n / d) with heven | hodd
      · rw [heven, Nat.add_zero, hmid, sub_add_cancel_left, abs_neg]
        norm_num
      · rw [hodd, Nat.cast_succ, hmid, add_sub_add_left_eq_sub]
        norm_num

/-- What is within a half of a whole number is at least a half from
all others. -/
theorem half_le_abs_sub {k m : Nat} {t : ℚ} (hm : |(m : ℚ) - t| ≤ 1 / 2)
    (hkm : k ≠ m) :
    1 / 2 ≤ |(k : ℚ) - t| := by
  have hgap : (1 : ℚ) ≤ |(k : ℚ) - m| := by
    have hint : (1 : ℤ) ≤ |(k : ℤ) - m| := Int.one_le_abs (by omega)
    exact_mod_cast hint
  have htriangle := abs_sub_le (k : ℚ) t m
  rw [abs_sub_comm t] at htriangle
  linarith

/-! ## The grid -/

theorem grid_le (n d : Nat) : -1074 ≤ grid n d :=
  le_max_right _ _

/-- A quotient, counted in steps of a power. -/
theorem quotient_steps {b : Nat} (hb : 0 < b) (n d : Nat) (e : Int) :
    quotient (n * b ^ (-e).toNat) (d * b ^ e.toNat) =
      quotient n d / (b : ℚ) ^ e := by
  rw [quotient, quotient, zpow_eq_div hb, Nat.cast_mul, Nat.cast_mul,
    div_div_div_eq]

/-- The distance of a multiple of the step, counted in steps. -/
theorem abs_mul_sub (n d : Nat) (k : ℚ) :
    |k * (2 : ℚ) ^ grid n d - quotient n d| =
      |k - quotient n d / (2 : ℚ) ^ grid n d| * (2 : ℚ) ^ grid n d := by
  have hunit : (0 : ℚ) < 2 ^ grid n d := by positivity
  rw [← abs_of_pos hunit, ← abs_mul, sub_mul, abs_of_pos hunit,
    div_mul_cancel₀ _ hunit.ne']

theorem nearestWord_eq (hn : 0 < n) (d : Nat) :
    nearestWord n d = (grid n d + 1074).toNat * 2 ^ (52 : Nat) +
      gridMantissa n d := by
  rw [nearestWord, if_neg (Nat.ne_of_gt hn)]

/-- The grid point that is taken is at most half a step away, and half a step
only if it is even. -/
theorem abs_gridMantissa_sub (n : Nat) (hd : 0 < d) :
    |(gridMantissa n d : ℚ) - quotient n d / (2 : ℚ) ^ grid n d| ≤ 1 / 2 ∧
      (|(gridMantissa n d : ℚ) - quotient n d / (2 : ℚ) ^ grid n d| = 1 / 2 →
        gridMantissa n d % 2 = 0) := by
  have hsteps := quotient_steps (b := 2) (by decide) n d (grid n d)
  rw [Nat.cast_ofNat] at hsteps
  rw [← hsteps, gridMantissa]
  exact abs_roundHalfEven_sub (Nat.mul_pos hd (Nat.two_pow_pos _))

section Grid

variable (hn : 0 < n) (hd : 0 < d)
include hn hd

/-- The quotient has at most fifty-three bits before the point of its grid, and
no fewer unless the grid is the finest one. -/
theorem quotient_bounds :
    quotient n d < (2 : ℚ) ^ (grid n d + 53) ∧
      (grid n d ≠ -1074 → (2 : ℚ) ^ (grid n d + 52) ≤ quotient n d) := by
  have hlow := Int.zpow_log_le_self (b := 2) (by decide) (quotient_pos hn hd)
  have hhigh := Int.lt_zpow_succ_log_self (b := 2) (by decide) (quotient n d)
  rw [Nat.cast_ofNat] at hlow hhigh
  have hgrid : grid n d = max (Int.log 2 (quotient n d) - 52) (-1074) := by
    rw [grid, floorLog2_eq_log hn hd]
  constructor
  · exact hhigh.trans_le (zpow_le_zpow_right₀ one_le_two (by omega))
  · intro hcoarse
    have hlog : grid n d + 52 = Int.log 2 (quotient n d) := by omega
    rwa [hlog]

theorem gridMantissa_bounds :
    gridMantissa n d ≤ 2 ^ (53 : Nat) ∧
      (2 ^ (52 : Nat) ≤ gridMantissa n d ∨ grid n d = -1074) := by
  have hunit : (0 : ℚ) < 2 ^ grid n d := by positivity
  obtain ⟨hhigh, hlow⟩ := quotient_bounds hn hd
  obtain ⟨hround, -⟩ := abs_gridMantissa_sub n hd
  rw [abs_le] at hround
  constructor
  · have hlt : quotient n d / (2 : ℚ) ^ grid n d < 2 ^ (53 : Nat) := by
      rw [div_lt_iff₀ hunit, ← zpow_natCast, ← zpow_add₀ two_ne_zero, add_comm]
      exact hhigh
    have hcast : (gridMantissa n d : ℚ) < (2 ^ (53 : Nat) + 1 : Nat) := by
      push_cast
      linarith
    exact Nat.lt_succ_iff.mp (by exact_mod_cast hcast)
  · by_cases hgrid : grid n d = -1074
    · exact .inr hgrid
    · have hle : (2 : ℚ) ^ (52 : Nat) ≤ quotient n d / (2 : ℚ) ^ grid n d := by
        rw [le_div_iff₀ hunit, ← zpow_natCast, ← zpow_add₀ two_ne_zero,
          add_comm]
        exact hlow hgrid
      have hcast : ((2 ^ (52 : Nat) : Nat) : ℚ) <
          (gridMantissa n d + 1 : Nat) := by
        push_cast
        linarith
      exact .inl (Nat.lt_succ_iff.mp (by exact_mod_cast hcast))

theorem wordValue_nearestWord :
    wordValue (nearestWord n d) = gridMantissa n d * (2 : ℚ) ^ grid n d := by
  obtain ⟨hmost, hleast⟩ := gridMantissa_bounds hn hd
  rw [nearestWord_eq hn d, wordValue_of_grid (grid_le n d) hmost hleast]

/-! ## Words near a quotient -/

/-- The rounding is at most half a step away, and half a step only with an
even mantissa. -/
theorem abs_nearestWord_sub :
    |wordValue (nearestWord n d) - quotient n d| ≤ 1 / 2 * (2 : ℚ) ^ grid n d ∧
      (|wordValue (nearestWord n d) - quotient n d| =
        1 / 2 * (2 : ℚ) ^ grid n d →
        gridMantissa n d % 2 = 0) := by
  have hunit : (0 : ℚ) < 2 ^ grid n d := by positivity
  obtain ⟨hround, htie⟩ := abs_gridMantissa_sub n hd
  rw [wordValue_nearestWord hn hd, abs_mul_sub n d]
  refine ⟨mul_le_mul_of_nonneg_right hround hunit.le, fun heq => htie ?_⟩
  exact mul_right_cancel₀ hunit.ne' heq

/-- Every word of another value is at least half a step away. -/
theorem eq_or_half_le_abs_sub (word : Nat) :
    wordValue word = wordValue (nearestWord n d) ∨
      1 / 2 * (2 : ℚ) ^ grid n d ≤ |wordValue word - quotient n d| := by
  have hunit : (0 : ℚ) < 2 ^ grid n d := by positivity
  obtain ⟨k, s, hleast, hk, -, hvalue⟩ := exists_grid word
  rcases Int.lt_or_le s (grid n d) with hfine | hcoarse
  · -- A word on a finer grid is below the least multiple of fifty-three bits.
    have hlow := (quotient_bounds hn hd).2 (by omega)
    have hhalf : (2 : ℚ) ^ (grid n d - 1) = 1 / 2 * 2 ^ grid n d := by
      rw [zpow_sub_one₀ two_ne_zero, mul_comm, one_div]
    have hbelow :
        wordValue word ≤ (2 ^ (53 : Nat) - 1) * (2 : ℚ) ^ (grid n d - 1) := by
      have hk' : (k : ℚ) ≤ 2 ^ (53 : Nat) - 1 := by
        have hcast : ((k + 1 : Nat) : ℚ) ≤ (2 ^ (53 : Nat) : Nat) := by
          exact_mod_cast hk
        push_cast at hcast
        linarith
      rw [hvalue]
      have hstep : (2 : ℚ) ^ s ≤ 2 ^ (grid n d - 1) :=
        zpow_le_zpow_right₀ one_le_two (by omega)
      exact mul_le_mul hk' hstep (by positivity) (by norm_num)
    have hlow' : (2 : ℚ) ^ (53 : Nat) * 2 ^ (grid n d - 1) ≤ quotient n d := by
      rw [← zpow_natCast, ← zpow_add₀ two_ne_zero]
      have hexp : ((53 : Nat) : Int) + (grid n d - 1) = grid n d + 52 := by
        omega
      rwa [hexp]
    refine .inr ?_
    rw [abs_sub_comm, ← hhalf, le_abs]
    exact .inl (by linarith)
  · obtain ⟨j, hj⟩ := Int.eq_ofNat_of_zero_le (Int.sub_nonneg_of_le hcoarse)
    have hmultiple :
        wordValue word = ((k * 2 ^ j : Nat) : ℚ) * (2 : ℚ) ^ grid n d := by
      have hs : s = j + grid n d := by omega
      rw [hvalue, hs, zpow_add₀ two_ne_zero, zpow_natCast, ← mul_assoc]
      push_cast
      rfl
    by_cases hsame : k * 2 ^ j = gridMantissa n d
    · exact .inl (by rw [hmultiple, hsame, wordValue_nearestWord hn hd])
    · have hfar := half_le_abs_sub (abs_gridMantissa_sub n hd).1 hsame
      refine .inr ?_
      rw [hmultiple, abs_mul_sub n d]
      exact mul_le_mul_of_nonneg_right hfar hunit.le

end Grid

/-! ## Numbers near a quotient -/

theorem magnitudeWord_ofMagnitude (negative : Bool) {word : Nat}
    (h : word < 2 ^ (63 : Nat)) :
    (ofMagnitude negative word).magnitudeWord = word := by
  have hlt : (if negative then 2 ^ (63 : Nat) + word else word) < 2 ^ 64 := by
    split <;> omega
  rw [magnitudeWord, ofMagnitude, UInt64.toNat_ofNat_of_lt' hlt]
  split <;> omega

theorem negative_ofMagnitude (negative : Bool) {word : Nat}
    (h : word < 2 ^ (63 : Nat)) :
    (ofMagnitude negative word).negative = negative := by
  have hlt : (if negative then 2 ^ (63 : Nat) + word else word) < 2 ^ 64 := by
    split <;> omega
  rw [Binary64.negative, ofMagnitude, UInt64.toNat_ofNat_of_lt' hlt]
  cases negative with
  | true => simp
  | false => simpa using h

theorem value_ofMagnitude (negative : Bool) {word : Nat}
    (h : word < 2 ^ (63 : Nat)) :
    (ofMagnitude negative word).value =
      signFactor negative * wordValue word := by
  rw [value_eq_wordValue, negative_ofMagnitude negative h,
    magnitudeWord_ofMagnitude negative h]

/-- A number has the sign that is asked for, or is further away than zero is. -/
theorem exists_word_or_far (y : Binary64) (negative : Bool) {r : ℚ}
    (hr : 0 ≤ r) :
    (∃ word, y.value = signFactor negative * wordValue word) ∨
      r < |y.value - signFactor negative * r| := by
  have hnonneg := wordValue_nonneg y.magnitudeWord
  by_cases hsign : y.negative = negative
  · exact .inl ⟨y.magnitudeWord, by rw [value_eq_wordValue, hsign]⟩
  · have hopposite : signFactor y.negative = -signFactor negative := by
      cases hy : y.negative <;> cases negative <;> simp_all
    have hvalue :
        y.value = signFactor negative * -wordValue y.magnitudeWord := by
      rw [value_eq_wordValue, hopposite, neg_mul_comm]
    rcases hnonneg.eq_or_lt with hzero | hpos
    · refine .inl ⟨y.magnitudeWord, ?_⟩
      rw [hvalue, ← hzero, neg_zero]
    · refine .inr ?_
      rw [hvalue, ← mul_sub, abs_signFactor_mul, ← neg_add', abs_neg,
        abs_of_nonneg (by linarith)]
      linarith

/-- Rounding finds the nearest number, unless it overflows. -/
theorem isNearest_nearest (negative : Bool) (hn : 0 < n) (hd : 0 < d)
    (hfinite : nearestWord n d < infinityWord) :
    (nearest negative n d).IsNearest (signFactor negative * quotient n d) := by
  have hr := (quotient_pos hn hd).le
  have hlt : nearestWord n d < 2 ^ (63 : Nat) :=
    hfinite.trans (by decide)
  have hx : nearest negative n d = ofMagnitude negative (nearestWord n d) := by
    rw [nearest, Nat.min_eq_left hfinite.le]
  have hword := magnitudeWord_ofMagnitude negative hlt
  have hvalue : (nearest negative n d).value =
      signFactor negative * wordValue (nearestWord n d) := by
    rw [hx, value_ofMagnitude negative hlt]
  have hdistance : ∀ word : Nat,
      |signFactor negative * wordValue word -
        signFactor negative * quotient n d| =
        |wordValue word - quotient n d| := by
    intro word
    rw [← mul_sub, abs_signFactor_mul]
  obtain ⟨hround, htie⟩ := abs_nearestWord_sub hn hd
  have hcloser : ∀ word : Nat,
      |wordValue (nearestWord n d) - quotient n d| ≤
        |wordValue word - quotient n d| := by
    intro word
    rcases eq_or_half_le_abs_sub hn hd word with hsame | hfar
    · rw [hsame]
    · exact hround.trans hfar
  have hzero : |wordValue (nearestWord n d) - quotient n d| ≤ quotient n d := by
    have h := hcloser 0
    rwa [show wordValue 0 = 0 by simp [wordValue], zero_sub, abs_neg,
      abs_of_nonneg hr] at h
  refine ⟨?_, ?_, ?_⟩
  · rw [hx, isFinite, hword]
    exact decide_eq_true hfinite
  · intro y _
    rw [hvalue, hdistance]
    rcases exists_word_or_far y negative hr with ⟨word, hy⟩ | hfar
    · rw [hy, hdistance]
      exact hcloser word
    · exact hzero.trans hfar.le
  · intro y _ hne heq
    rw [hvalue, hdistance] at heq
    rcases exists_word_or_far y negative hr with ⟨word, hy⟩ | hfar
    · rw [hy, hdistance] at heq
      rcases eq_or_half_le_abs_sub hn hd word with hsame | hfar
      · exact absurd (by rw [hy, hsame, hvalue]) hne
      · have heven := htie (hround.antisymm (hfar.trans heq.le))
        rw [hx, mantissa, exponentField, fraction, hword, nearestWord_eq hn d]
        split <;> omega
    · exact absurd heq (hzero.trans_lt hfar).ne'

/-! ## Integers -/

theorem quotient_one (n : Nat) : quotient n 1 = n := by
  rw [quotient, Nat.cast_one, div_one]

/-- Integers of 64 bits do not overflow. -/
theorem nearestWord_lt_infinityWord (hn : 0 < n) (h : n ≤ 2 ^ (64 : Nat)) :
    nearestWord n 1 < infinityWord := by
  obtain ⟨hmost, -⟩ := gridMantissa_bounds hn Nat.one_pos
  have hlog : Int.log 2 (quotient n 1) < 65 := by
    rw [← Int.lt_zpow_iff_log_lt (by decide) (quotient_pos hn Nat.one_pos),
      quotient_one]
    exact_mod_cast Nat.lt_of_le_of_lt h
      (by decide : 2 ^ (64 : Nat) < 2 ^ (65 : Nat))
  have hgrid : grid n 1 ≤ 12 := by
    rw [grid, floorLog2_eq_log hn Nat.one_pos]
    omega
  rw [nearestWord_eq hn 1, infinityWord]
  omega

theorem ofInt_eq (n : Int) : ofInt n = nearest (decide (n < 0)) n.natAbs 1 := by
  cases n with
  | ofNat m => rfl
  | negSucc m =>
    rw [decide_eq_true (Int.negSucc_lt_zero m)]
    rfl

theorem intCast_eq (n : Int) :
    (n : ℚ) = signFactor (decide (n < 0)) * quotient n.natAbs 1 := by
  rw [quotient_one]
  cases n with
  | ofNat m => exact (one_mul (m : ℚ)).symm
  | negSucc m =>
    rw [decide_eq_true (Int.negSucc_lt_zero m), Int.cast_negSucc, ← neg_one_mul]
    rfl

/-- Every integer of 64 bits is rounded to the nearest number. -/
theorem isNearest_ofInt {n : Int} (h : n.natAbs ≤ 2 ^ (64 : Nat)) :
    (ofInt n).IsNearest n := by
  rcases Nat.eq_zero_or_pos n.natAbs with hzero | hpos
  · have hn : n = 0 := Int.natAbs_eq_zero.mp hzero
    have hvalue : (ofInt 0).value = 0 := by
      rw [show ofInt 0 = ofMagnitude false 0 from
        rfl, value_ofMagnitude false (by decide)]
      simp [wordValue]
    rw [hn, Int.cast_zero, ← hvalue]
    exact isNearest_value rfl
  · rw [ofInt_eq, intCast_eq]
    exact isNearest_nearest _ hpos Nat.one_pos
      (nearestWord_lt_infinityWord hpos h)

/-- A natural number of fifty-three bits is the value of a word. -/
theorem exists_wordValue_eq (h : n ≤ 2 ^ (53 : Nat)) :
    ∃ word, word < infinityWord ∧ wordValue word = n := by
  rcases Nat.eq_zero_or_pos n with rfl | hn
  · exact ⟨0, by decide, by simp [wordValue]⟩
  · -- The mantissa is the number with so many zeros at its end that it has
    -- fifty-three bits.
    obtain ⟨zeros, hleast, hmost, hzeros⟩ : ∃ zeros : Nat,
        2 ^ (52 : Nat) ≤ n * 2 ^ zeros ∧ n * 2 ^ zeros ≤ 2 ^ (53 : Nat) ∧
        zeros ≤ 52 := by
      have hlow : 2 ^ n.log2 ≤ n := Nat.log2_self_le (Nat.ne_of_gt hn)
      rcases Nat.lt_or_ge n.log2 53 with hlog | hlog
      · refine ⟨52 - n.log2, ?_, ?_, Nat.sub_le ..⟩
        · have hsplit : 2 ^ (52 : Nat) = 2 ^ n.log2 * 2 ^ (52 - n.log2) := by
            rw [← Nat.pow_add, Nat.add_sub_cancel' (by omega)]
          rw [hsplit]
          exact Nat.mul_le_mul_right _ hlow
        · have hsplit :
              2 ^ (53 : Nat) = 2 ^ (n.log2 + 1) * 2 ^ (52 - n.log2) := by
            rw [← Nat.pow_add]
            congr 1
            omega
          rw [hsplit]
          exact Nat.mul_le_mul_right _ Nat.lt_log2_self.le
      · have hle : 2 ^ (53 : Nat) ≤ n :=
          (Nat.pow_le_pow_right (by decide) hlog).trans hlow
        exact ⟨0, by omega, by omega, by decide⟩
    refine ⟨(-(zeros : Int) + 1074).toNat * 2 ^ (52 : Nat) + n * 2 ^ zeros, ?_,
      ?_⟩
    · rw [infinityWord]
      omega
    · have hunit : (2 : ℚ) ^ zeros ≠ 0 := by positivity
      rw [wordValue_of_grid (by omega) hmost (.inl hleast), zpow_neg,
        zpow_natCast]
      push_cast
      exact mul_inv_cancel_right₀ hunit _

/-- An integer of fifty-three bits is a number itself. -/
theorem value_ofInt {n : Int} (h : n.natAbs ≤ 2 ^ (53 : Nat)) :
    (ofInt n).value = n := by
  obtain ⟨word, hword, hvalue⟩ := exists_wordValue_eq h
  have hlt : word < 2 ^ (63 : Nat) := hword.trans (by decide)
  have hnearest := isNearest_ofInt (h.trans (by decide))
  refine hnearest.value_eq (y := ofMagnitude (decide (n < 0)) word) ?_ ?_
  · rw [isFinite, magnitudeWord_ofMagnitude _ hlt]
    exact decide_eq_true hword
  · rw [value_ofMagnitude _ hlt, hvalue, intCast_eq, quotient_one]

end Binary64
end FleetControl

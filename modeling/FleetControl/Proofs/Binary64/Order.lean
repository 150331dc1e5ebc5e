import Mathlib.Algebra.Order.Group.Unbundled.Abs
import Mathlib.Order.Monotone.Odd
import FleetControl.Proofs.Binary64.Nearest

/-!
# Comparing and truncating by words

Numbers are ordered as their words are, counted downwards below zero, and the
places after the point are the bits of the fraction that count less than one.
So both comparing and truncating are done on words alone; `less_iff`,
`atLeast_iff` and `value_trunc` say what they come to for the exact values.
-/

namespace FleetControl
namespace Binary64

attribute [local instance (2000)] instPowNat

/-- The place of a number among the others: its word without the sign bit, with
the sign.  Both zeros have the same place. -/
def rank (x : Binary64) : Int :=
  if x.negative then -x.magnitudeWord else x.magnitudeWord

/-- The first number is less than the second one.  An undefined number is
neither less than another nor greater. -/
def less (x y : Binary64) : Bool :=
  !x.isNaN && !y.isNaN && x.rank < y.rank

/-- The first number is the second one or greater. -/
def atLeast (x y : Binary64) : Bool :=
  !x.isNaN && !y.isNaN && y.rank ≤ x.rank

/-- The number without its places after the point.  A number below one becomes
zero; otherwise the bits of the fraction that count less than one are
cleared. -/
def trunc (x : Binary64) : Binary64 :=
  if x.exponentField < 1023 then zero x.negative
  else
    ofMagnitude x.negative
      (x.magnitudeWord - x.magnitudeWord % 2 ^ (1075 - x.exponentField))

variable {x y : Binary64}

theorem magnitudeWord_lt (x : Binary64) : x.magnitudeWord < 2 ^ (63 : Nat) :=
  Nat.mod_lt _ (Nat.two_pow_pos _)

theorem isNaN_of_isFinite (h : x.isFinite = true) : x.isNaN = false :=
  decide_eq_false (Nat.not_lt.mpr (of_decide_eq_true h).le)

/-! ## The order of words -/

theorem wordValue_zero : wordValue 0 = 0 := by
  simp [wordValue]

/-- The next word is one unit of the same grid further, also where it begins
the next grid. -/
theorem wordValue_lt_succ (word : Nat) :
    wordValue word < wordValue (word + 1) := by
  obtain ⟨m, g, hg, hm, hleast, hword⟩ : ∃ (m : Nat) (g : Int), -1074 ≤ g ∧
      m < 2 ^ (53 : Nat) ∧ (2 ^ (52 : Nat) ≤ m ∨ g = -1074) ∧
      word = (g + 1074).toNat * 2 ^ (52 : Nat) + m := by
    by_cases hfield : word / 2 ^ (52 : Nat) = 0
    · exact ⟨word, -1074, le_rfl, by omega, .inr rfl, by omega⟩
    · exact ⟨word % 2 ^ (52 : Nat) + 2 ^ (52 : Nat),
        (word / 2 ^ (52 : Nat) : Nat) - 1075, by
          omega, by omega, .inl (by omega), by omega⟩
  have hunit : (0 : ℚ) < 2 ^ g := zpow_pos two_pos g
  have hhere : wordValue word = m * (2 : ℚ) ^ g := by
    rw [hword, wordValue_of_grid hg hm.le hleast]
  have hnext : wordValue (word + 1) = (m + 1 : Nat) * (2 : ℚ) ^ g := by
    rw [hword, Nat.add_assoc]
    exact wordValue_of_grid hg hm
      (hleast.imp_left fun h => h.trans (Nat.le_succ m))
  rw [hhere, hnext]
  exact mul_lt_mul_of_pos_right (by exact_mod_cast Nat.lt_succ_self m) hunit

theorem strictMono_wordValue : StrictMono wordValue :=
  strictMono_nat_of_lt_succ wordValue_lt_succ

/-- The exact value of the numbers at a place. -/
def rankValue (n : ℤ) : ℚ :=
  signFactor (decide (n < 0)) * wordValue n.natAbs

theorem rankValue_le_iff {m n : ℤ} : rankValue m ≤ rankValue n ↔ m ≤ n := by
  have hmono : StrictMono rankValue := by
    apply strictMono_of_odd_strictMonoOn_nonneg
    · intro n
      rcases lt_trichotomy n 0 with hn | rfl | hn
      · simp [rankValue, hn, hn.not_gt]
      · simp [rankValue, wordValue_zero]
      · simp [rankValue, hn, hn.not_gt]
    · intro m hm n hn hlt
      have hm' : ¬ m < 0 := not_lt.mpr hm
      have hn' : ¬ n < 0 := not_lt.mpr hn
      simp only [rankValue, hm', hn', decide_false, signFactor_false, one_mul]
      exact strictMono_wordValue (Int.natAbs_lt_natAbs_of_nonneg_of_lt hm hlt)
  exact hmono.le_iff_le

theorem value_eq_rankValue (x : Binary64) : x.value = rankValue x.rank := by
  rw [value_eq_wordValue, rank, rankValue]
  cases x.negative with
  | false =>
    have hnonneg : ¬ (x.magnitudeWord : Int) < 0 :=
      not_lt.mpr (Int.natCast_nonneg _)
    simp [hnonneg]
  | true =>
    rcases Nat.eq_zero_or_pos x.magnitudeWord with hzero | hpos
    · simp [hzero, wordValue_zero]
    · simp [hpos]

theorem less_iff (hx : x.isFinite = true) (hy : y.isFinite = true) :
    x.less y = true ↔ x.value < y.value := by
  rw [← not_le, value_eq_rankValue, value_eq_rankValue, rankValue_le_iff]
  simp [less, isNaN_of_isFinite hx, isNaN_of_isFinite hy]

theorem atLeast_iff (hx : x.isFinite = true) (hy : y.isFinite = true) :
    x.atLeast y = true ↔ y.value ≤ x.value := by
  rw [value_eq_rankValue, value_eq_rankValue, rankValue_le_iff]
  simp [atLeast, isNaN_of_isFinite hx, isNaN_of_isFinite hy]

/-! ## Truncation -/

theorem isFinite_trunc (h : x.isFinite = true) : x.trunc.isFinite = true := by
  have hword : x.magnitudeWord < infinityWord := of_decide_eq_true h
  have hlt := x.magnitudeWord_lt
  unfold trunc
  split
  · cases x.negative <;> rfl
  · rw [isFinite, magnitudeWord_ofMagnitude _ (by omega)]
    exact decide_eq_true (by omega)

/-- Below one nothing stands before the point. -/
theorem truncate_of_small (h : x.exponentField < 1023) : x.truncate = 0 := by
  have hscale : x.scale.toNat = 0 ∧ 53 ≤ (-x.scale).toNat := by
    rw [scale]
    omega
  have hlt : x.numerator < x.denominator := by
    rw [numerator, denominator, hscale.1, Nat.pow_zero, Nat.mul_one]
    exact x.mantissa_lt.trans_le (Nat.pow_le_pow_right two_pos hscale.2)
  simp [truncate, Nat.div_eq_of_lt hlt]

/-- From one on, what is cleared from the word is what the whole mantissa has
below the point. -/
theorem wordValue_cleared (h : 1023 ≤ x.exponentField) :
    wordValue (x.magnitudeWord -
      x.magnitudeWord % 2 ^ (1075 - x.exponentField)) =
      (x.numerator / x.denominator : Nat) := by
  have hmantissa : x.mantissa = x.fraction + 2 ^ (52 : Nat) := if_neg (by omega)
  have hscale : x.scale = (x.exponentField : Int) - 1075 := by
    rw [scale]
    omega
  let k := 1075 - x.exponentField
  have hk : (-x.scale).toNat = k ∧ k ≤ 52 := by omega
  have hunit : 2 ^ (52 : Nat) = 2 ^ k * 2 ^ (52 - k) := by
    rw [← Nat.pow_add, Nat.add_sub_cancel' hk.2]
  have hsame : x.magnitudeWord % 2 ^ k = x.mantissa % 2 ^ k := by
    rw [magnitudeWord_eq, hmantissa, hunit, Nat.mul_left_comm, Nat.mul_add_mod,
      Nat.add_mul_mod_self_left]
  have hkept : x.mantissa - x.mantissa % 2 ^ k =
      2 ^ k * (x.mantissa / 2 ^ k) := by
    have hsplit := Nat.div_add_mod x.mantissa (2 ^ k)
    omega
  have hleast : 2 ^ (52 : Nat) ≤ 2 ^ k * (x.mantissa / 2 ^ k) := by
    rw [hunit]
    apply Nat.mul_le_mul_left
    rw [Nat.le_div_iff_mul_le (Nat.two_pow_pos k), Nat.mul_comm, ← hunit,
      hmantissa]
    exact Nat.le_add_left _ _
  have hmost : 2 ^ k * (x.mantissa / 2 ^ k) ≤ 2 ^ (53 : Nat) :=
    (Nat.mul_div_le _ _).trans x.mantissa_lt.le
  have hword : x.magnitudeWord - x.magnitudeWord % 2 ^ k =
      (x.scale + 1074).toNat * 2 ^ (52 : Nat) +
        2 ^ k * (x.mantissa / 2 ^ k) := by
    rw [hsame, ← hkept, magnitudeWord_eq]
    have hle := Nat.mod_le x.mantissa (2 ^ k)
    omega
  have hg : -1074 ≤ x.scale := by omega
  rw [hword, wordValue_of_grid hg hmost (.inl hleast), numerator, denominator,
    hk.1]
  rcases Int.le_total x.scale 0 with hneg | hpos
  · have hzero : x.scale.toNat = 0 := by omega
    have hexp : x.scale = -(k : Int) := by omega
    have hne : (2 : ℚ) ^ k ≠ 0 := by positivity
    rw [hzero, hexp, zpow_neg, zpow_natCast, Nat.pow_zero, Nat.mul_one]
    push_cast
    rw [mul_comm, inv_mul_cancel_left₀ hne]
  · have hzero : k = 0 := by omega
    have hexp : (2 : ℚ) ^ x.scale = 2 ^ x.scale.toNat := by
      rw [← zpow_natCast, Int.toNat_of_nonneg hpos]
    rw [hzero, hexp, Nat.pow_zero, Nat.div_one, Nat.div_one, Nat.one_mul]
    push_cast
    rfl

/-- Clearing the bits below the point leaves the integer that is meant. -/
theorem value_trunc (x : Binary64) : x.trunc.value = x.truncate := by
  unfold trunc
  split
  · next hsmall =>
    rw [zero, value_ofMagnitude _ (by decide), wordValue_zero, mul_zero,
      truncate_of_small hsmall, Int.cast_zero]
  · next hlarge =>
    have hlt := x.magnitudeWord_lt
    rw [value_ofMagnitude _ (by omega),
      wordValue_cleared (Nat.not_lt.mp hlarge), truncate]
    cases x.negative with
    | true =>
      rw [if_pos rfl, signFactor_true, neg_one_mul, Int.cast_neg]
      rfl
    | false =>
      rw [if_neg Bool.false_ne_true, signFactor_false, one_mul]
      rfl

theorem truncate_trunc (x : Binary64) : x.trunc.truncate = x.truncate := by
  rw [truncate_eq, value_trunc, towardZero_intCast]

end Binary64
end FleetControl

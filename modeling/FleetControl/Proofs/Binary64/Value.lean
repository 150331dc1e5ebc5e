import FleetControl.Proofs.Binary64

/-!
# The exact value of a number

A finite number has the value `± mantissa * 2 ^ scale`.  The magnitude of a
number is the value of its word without the sign bit, and words are ordered as
their values are; this is said of all words, as if there were exponents without
end, because rounding comes before the test for an overflow.
-/

namespace FleetControl
namespace Binary64

attribute [local instance (2000)] instPowNat

/-- The sign of a number as a factor. -/
def signFactor (negative : Bool) : ℚ :=
  if negative then -1 else 1

/-- The exact value of a finite number. -/
def value (x : Binary64) : ℚ :=
  signFactor x.negative * (x.mantissa * (2 : ℚ) ^ x.scale)

/-- The integer next to a rational number on the side of zero. -/
def towardZero (q : ℚ) : ℤ :=
  if 0 ≤ q then ⌊q⌋ else ⌈q⌉

/-- The value of a word without a sign bit. -/
def wordValue (word : Nat) : ℚ :=
  if word / 2 ^ (52 : Nat) = 0 then word * (2 : ℚ) ^ (-1074 : Int)
  else ((word % 2 ^ (52 : Nat) + 2 ^ (52 : Nat) : Nat) : ℚ) *
    (2 : ℚ) ^ ((word / 2 ^ (52 : Nat) : Nat) - 1075 : Int)

variable {x : Binary64} {q : ℚ}

@[simp]
theorem signFactor_true : signFactor true = -1 :=
  rfl

@[simp]
theorem signFactor_false : signFactor false = 1 :=
  rfl

theorem abs_signFactor_mul (negative : Bool) (q : ℚ) :
    |signFactor negative * q| = |q| := by
  cases negative <;> simp

theorem value_eq_quotient (x : Binary64) :
    x.value = signFactor x.negative * quotient x.numerator x.denominator := by
  rw [value, quotient_eq]

/-! ## Truncation -/

theorem towardZero_intCast (n : ℤ) : towardZero (n : ℚ) = n := by
  unfold towardZero
  split
  · exact Int.floor_intCast n
  · exact Int.ceil_intCast n

theorem towardZero_neg (hq : 0 ≤ q) : towardZero (-q) = -⌊q⌋ := by
  unfold towardZero
  split
  · next hneg =>
    have hzero : q = 0 := by linarith
    simp [hzero]
  · exact Int.ceil_neg

/-- The places after the point of the exact value are dropped. -/
theorem truncate_eq (x : Binary64) : x.truncate = towardZero x.value := by
  have hfloor : ⌊quotient x.numerator x.denominator⌋ =
      Int.ofNat (x.numerator / x.denominator) :=
    Rat.floor_natCast_div_natCast _ _
  have hnonneg : 0 ≤ quotient x.numerator x.denominator := by
    unfold quotient
    positivity
  rw [value_eq_quotient, truncate]
  cases x.negative with
  | true =>
    rw [signFactor_true, neg_one_mul, towardZero_neg hnonneg, hfloor,
      if_pos rfl]
  | false =>
    rw [signFactor_false, one_mul, towardZero, if_pos hnonneg, hfloor,
      if_neg Bool.false_ne_true]

/-! ## Words -/

theorem value_eq_wordValue (x : Binary64) :
    x.value = signFactor x.negative * wordValue x.magnitudeWord := by
  have hfield : x.magnitudeWord / 2 ^ (52 : Nat) = x.exponentField := rfl
  have hfraction : x.magnitudeWord % 2 ^ (52 : Nat) = x.fraction := rfl
  rw [value, wordValue, hfield, hfraction, mantissa, scale]
  split
  · next hzero =>
    have hword : x.magnitudeWord = x.fraction := by
      rw [magnitudeWord_eq, hzero]; omega
    rw [hzero, hword]
    rfl
  · next hpos =>
    have hscale : (max x.exponentField 1 : Nat) = x.exponentField := by omega
    rw [hscale]

/-- A mantissa on a grid makes up a word of that value, also when it carries
into the exponent. -/
theorem wordValue_of_grid {m : Nat} {g : Int} (hg : -1074 ≤ g)
    (hm : m ≤ 2 ^ (53 : Nat)) (hleast : 2 ^ (52 : Nat) ≤ m ∨ g = -1074) :
    wordValue ((g + 1074).toNat * 2 ^ (52 : Nat) + m) = m * (2 : ℚ) ^ g := by
  rcases Nat.lt_or_ge m (2 ^ (52 : Nat)) with hsmall | hnormal
  · have hgrid : g = -1074 := hleast.resolve_left (Nat.not_le.mpr hsmall)
    have hword : (g + 1074).toNat * 2 ^ (52 : Nat) + m = m := by omega
    rw [hword, wordValue, if_pos (Nat.div_eq_of_lt hsmall), hgrid]
  · rcases Nat.lt_or_eq_of_le hm with hlt | hcarry
    · have hfield : ((g + 1074).toNat * 2 ^ (52 : Nat) + m) / 2 ^ (52 : Nat) =
          (g + 1074).toNat + 1 := by omega
      have hfraction :
          ((g + 1074).toNat * 2 ^ (52 : Nat) + m) % 2 ^ (52 : Nat) +
            2 ^ (52 : Nat) =
          m := by omega
      have hscale : (((g + 1074).toNat + 1 : Nat) : Int) - 1075 = g := by omega
      rw [wordValue, hfield, if_neg (Nat.succ_ne_zero _), hfraction, hscale]
    · have hfield : ((g + 1074).toNat * 2 ^ (52 : Nat) + m) / 2 ^ (52 : Nat) =
          (g + 1074).toNat + 2 := by omega
      have hfraction :
          ((g + 1074).toNat * 2 ^ (52 : Nat) + m) % 2 ^ (52 : Nat) +
            2 ^ (52 : Nat) = 2 ^ (52 : Nat) := by omega
      have hscale : (((g + 1074).toNat + 2 : Nat) : Int) - 1075 = 1 + g := by
        omega
      rw [wordValue, hfield, if_neg (Nat.succ_ne_zero _), hfraction, hscale,
        hcarry, zpow_add₀ two_ne_zero, ← mul_assoc]
      norm_num

/-- Every word has a mantissa of at most fifty-three bits on some grid, which is
the finest one if the mantissa has fewer. -/
theorem exists_grid (word : Nat) :
    ∃ (k : Nat) (s : Int), -1074 ≤ s ∧ k < 2 ^ (53 : Nat) ∧
      (2 ^ (52 : Nat) ≤ k ∨ s = -1074) ∧ wordValue word = k * (2 : ℚ) ^ s := by
  rw [wordValue]
  split
  · next hfield =>
    exact ⟨word, -1074, le_rfl, by omega, .inr rfl, rfl⟩
  · next hfield =>
    exact ⟨_, _, by omega, by omega, .inl (by omega), rfl⟩

theorem wordValue_nonneg (word : Nat) : 0 ≤ wordValue word := by
  obtain ⟨k, s, -, -, -, hvalue⟩ := exists_grid word
  rw [hvalue]
  positivity

end Binary64
end FleetControl

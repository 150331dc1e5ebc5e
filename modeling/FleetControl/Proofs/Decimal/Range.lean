import FleetControl.Proofs.Binary64.Nearest
import FleetControl.Proofs.Decimal

/-!
# Decimals out of range

A decimal that rounds to a finite number other than zero is out of range when it
is tiny and not that number exactly.  Tiny decimals round to subnormal numbers,
or to the least normal number from below.

The shortest decimal of a subnormal number is never exact.  Seventeen digits are
always enough, so it counts a power of ten that does not go far below the number
itself, while the exact decimal needs a digit for each power of two.
-/

namespace FleetControl

attribute [local instance (2000)] instPowNat

namespace Binary64

/-- The number is not zero, and below all normal numbers. -/
def isSubnormal (x : Binary64) : Bool :=
  x.exponentField = 0 && x.mantissa ≠ 0

theorem mantissa_zero (negative : Bool) : (zero negative).mantissa = 0 := by
  cases negative <;> rfl

theorem isFinite_infinity (negative : Bool) :
    (infinity negative).isFinite = false := by
  cases negative <;> rfl

variable {n d : Nat}

theorem mul_two_pow_lt_iff (hd : 0 < d) (k c : Nat) :
    n * 2 ^ k < c * d ↔ quotient n d < c * (2 : ℚ) ^ (-(k : Int)) := by
  have hd' : (0 : ℚ) < d := by exact_mod_cast hd
  have hpow : (0 : ℚ) < 2 ^ k := by positivity
  rw [quotient, zpow_neg, zpow_natCast, div_lt_iff₀ hd', mul_right_comm,
    ← div_eq_mul_inv, lt_div_iff₀ hpow]
  exact_mod_cast Iff.rfl

/-- Tiny quotients lie a quarter of the finest step, or more, below the least
normal number. -/
theorem isTiny_iff (hd : 0 < d) :
    IsTiny n d ↔ quotient n d <
      (2 ^ (52 : Nat) - 1 / 4) * (2 : ℚ) ^ (-1074 : Int) := by
  have hlimit : ((2 ^ (54 : Nat) - 1 : Nat) : ℚ) * 2 ^ (-1076 : Int) =
      (2 ^ (52 : Nat) - 1 / 4) * (2 : ℚ) ^ (-1074 : Int) := by
    have hstep : (2 : ℚ) ^ (-1074 : Int) =
        2 ^ (2 : Int) * 2 ^ (-1076 : Int) := by
      rw [← zpow_add₀ two_ne_zero]
      rfl
    rw [hstep, ← mul_assoc]
    norm_num
  rw [← hlimit]
  exact mul_two_pow_lt_iff hd 1076 (2 ^ (54 : Nat) - 1)

section Tiny

variable (hn : 0 < n) (hd : 0 < d)
include hn hd

/-- Quotients below the least normal number are rounded on the finest grid. -/
theorem grid_of_lt
    (h : quotient n d < 2 ^ (52 : Nat) * (2 : ℚ) ^ (-1074 : Int)) :
    grid n d = -1074 := by
  by_contra hgrid
  have hle := grid_le n d
  have hlow := (quotient_bounds hn hd).2 hgrid
  have hnormal : (2 : ℚ) ^ (52 : Nat) * 2 ^ (-1074 : Int) ≤
      2 ^ (grid n d + 52) := by
    rw [← zpow_natCast, ← zpow_add₀ two_ne_zero]
    exact zpow_le_zpow_right₀ one_le_two (by omega)
  exact absurd (hnormal.trans hlow) (not_le.mpr h)

/-- What rounds to a subnormal number or to zero is tiny. -/
theorem isTiny_of_nearestWord_lt (h : nearestWord n d < 2 ^ (52 : Nat)) :
    IsTiny n d := by
  have hunit : (0 : ℚ) < 2 ^ (-1074 : Int) := by positivity
  have hle := grid_le n d
  rw [nearestWord_eq hn d] at h
  have hgrid : grid n d = -1074 := by omega
  have hround := (abs_le.mp (abs_gridMantissa_sub n hd).1).1
  have hmantissa : (gridMantissa n d : ℚ) ≤ 2 ^ (52 : Nat) - 1 := by
    have hcast : ((gridMantissa n d + 1 : Nat) : ℚ) ≤
        (2 ^ (52 : Nat) : Nat) := by
      exact_mod_cast (by omega : gridMantissa n d + 1 ≤ 2 ^ (52 : Nat))
    push_cast at hcast
    linarith
  rw [isTiny_iff hd, ← div_lt_iff₀ hunit, ← hgrid]
  linarith

/-- What rounds to more than the least normal number is not tiny. -/
theorem not_isTiny_of_lt_nearestWord (h : 2 ^ (52 : Nat) < nearestWord n d) :
    ¬ IsTiny n d := by
  intro htiny
  rw [isTiny_iff hd] at htiny
  have hunit : (0 : ℚ) < 2 ^ (-1074 : Int) := by positivity
  have hgrid : grid n d = -1074 := by
    refine grid_of_lt hn hd (htiny.trans ?_)
    exact mul_lt_mul_of_pos_right (by norm_num) hunit
  have hround := (abs_le.mp (abs_gridMantissa_sub n hd).1).2
  rw [← div_lt_iff₀ hunit, ← hgrid] at htiny
  have hmantissa : (gridMantissa n d : ℚ) < (2 ^ (52 : Nat) + 1 : Nat) := by
    push_cast
    linarith
  have hle : gridMantissa n d < 2 ^ (52 : Nat) + 1 := by
    exact_mod_cast hmantissa
  rw [nearestWord_eq hn d, hgrid] at h
  omega

/-- A quotient less than half a finest step away from a subnormal number
rounds to it. -/
theorem nearestWord_of_near {m : Nat} (hm : m < 2 ^ (52 : Nat))
    (hnear : |(m : ℚ) * 2 ^ (-1074 : Int) - quotient n d| <
      1 / 2 * (2 : ℚ) ^ (-1074 : Int)) :
    nearestWord n d = m := by
  have hunit : (0 : ℚ) < 2 ^ (-1074 : Int) := by positivity
  have hgrid : grid n d = -1074 := by
    refine grid_of_lt hn hd ?_
    have hm' : (m : ℚ) + 1 ≤ 2 ^ (52 : Nat) := by exact_mod_cast hm
    have hle := mul_le_mul_of_nonneg_right hm' hunit.le
    have habove := (abs_lt.mp hnear).1
    linarith
  rw [← hgrid, abs_mul_sub n d, hgrid] at hnear
  have hclose := lt_of_mul_lt_mul_right hnear hunit.le
  rw [nearestWord_eq hn d, hgrid]
  by_contra hne
  have hfar := half_le_abs_sub (abs_gridMantissa_sub n hd).1
    (show m ≠ gridMantissa n d from fun heq => hne (by omega))
  rw [hgrid] at hfar
  exact absurd hclose (not_lt.mpr hfar)

end Tiny

end Binary64

namespace Decimal

open Binary64 (quotient)

variable {d : Decimal} {x : Binary64}

/-! ## Decimals of a finite number -/

theorem isExact_iff (d : Decimal) :
    d.isExact = true ↔ d.toBinary64.isFinite = true ∧
      d.magnitude = d.toBinary64.mantissa * (2 : ℚ) ^ d.toBinary64.scale := by
  have hquotients : quotient d.numerator d.denominator =
      quotient d.toBinary64.numerator (2 ^ (-d.toBinary64.scale).toNat) ↔ _ :=
    Binary64.quotient_eq_iff d.denominator_pos
      (Nat.two_pow_pos (-d.toBinary64.scale).toNat)
  rw [← quotient_eq, ← Binary64.quotient_eq, Binary64.denominator, hquotients,
    isExact, Bool.and_eq_true, beq_iff_eq, Binary64.denominator]

section Read

variable (hread : d.toBinary64 = x) (hfinite : x.isFinite = true)
    (hx : x.mantissa ≠ 0)
include hread hfinite hx

/-- A decimal that rounds to a finite number other than zero is rounded as
a quotient. -/
theorem toBinary64_eq_nearest :
    d.significand ≠ 0 ∧ d.isMinute = false ∧ d.isHuge = false ∧
      Binary64.nearest d.negative d.numerator d.denominator = x := by
  unfold toBinary64 at hread
  split at hread
  · rw [← hread] at hx
    exact absurd (Binary64.mantissa_zero _) hx
  · next hunder =>
    split at hread
    · rw [← hread, Binary64.isFinite_infinity] at hfinite
      cases hfinite
    · next hhuge =>
      obtain ⟨hsignificand, hminute⟩ : d.significand ≠ 0 ∧
        d.isMinute = false := by
        simpa using hunder
      exact ⟨hsignificand, hminute, by simpa using hhuge, hread⟩

theorem nearestWord_of_toBinary64 :
    0 < d.numerator ∧ Binary64.nearestWord d.numerator d.denominator =
      x.magnitudeWord := by
  obtain ⟨hsignificand, -, -, hnearest⟩ :=
    toBinary64_eq_nearest hread hfinite hx
  have hn : 0 < d.numerator :=
    Nat.mul_pos (Nat.pos_of_ne_zero hsignificand) (Nat.pow_pos (by decide))
  refine ⟨hn, ?_⟩
  have hlt : x.magnitudeWord < Binary64.infinityWord :=
    of_decide_eq_true hfinite
  have hmin :
      min (Binary64.nearestWord d.numerator d.denominator)
        Binary64.infinityWord < 2 ^ (63 : Nat) :=
    Nat.lt_of_le_of_lt (Nat.min_le_right _ _) (by decide)
  rw [← hnearest, Binary64.nearest, Binary64.magnitudeWord_ofMagnitude _ hmin]
    at hlt ⊢
  omega

/-- Such a decimal is out of range just if it is tiny and has another value than
the number. -/
theorem outOfRange_iff :
    d.outOfRange = true ↔ Binary64.IsTiny d.numerator d.denominator ∧
      d.magnitude ≠ x.mantissa * (2 : ℚ) ^ x.scale := by
  obtain ⟨hsignificand, hminute, hhuge, -⟩ :=
    toBinary64_eq_nearest hread hfinite hx
  rw [outOfRange, if_neg hsignificand, hminute, hhuge, hread, hfinite]
  simp [Bool.eq_false_iff, isExact_iff, hread, hfinite]

theorem outOfRange_of_normal (hnormal : 2 ^ (52 : Nat) < x.magnitudeWord) :
    d.outOfRange = false := by
  obtain ⟨hn, hword⟩ := nearestWord_of_toBinary64 hread hfinite hx
  rw [Bool.eq_false_iff, ne_eq, outOfRange_iff hread hfinite hx]
  rintro ⟨htiny, -⟩
  rw [← hword] at hnormal
  exact Binary64.not_isTiny_of_lt_nearestWord hn d.denominator_pos hnormal htiny

theorem isTiny_of_subnormal (hfield : x.exponentField = 0) :
    Binary64.IsTiny d.numerator d.denominator := by
  obtain ⟨hn, hword⟩ := nearestWord_of_toBinary64 hread hfinite hx
  have hlt : x.magnitudeWord < 2 ^ (52 : Nat) := by
    rw [Binary64.magnitudeWord_eq, hfield, Nat.zero_mul, Nat.zero_add]
    exact x.fraction_lt
  rw [← hword] at hlt
  exact Binary64.isTiny_of_nearestWord_lt hn d.denominator_pos hlt

end Read

theorem outOfRange_of_zero (h : d.significand = 0) : d.outOfRange = false :=
  if_pos h

/-- Whether a decimal is out of range depends on its sign and its
magnitude alone. -/
theorem outOfRange_congr {d' : Decimal} (hsign : d.negative = d'.negative)
    (h : d.magnitude = d'.magnitude) : d.outOfRange = d'.outOfRange := by
  by_cases hd : d.significand = 0
  · have hd' : d'.significand = 0 := by
      rwa [← magnitude_eq_zero_iff, ← h, magnitude_eq_zero_iff]
    rw [outOfRange_of_zero hd, outOfRange_of_zero hd']
  · have hd' : d'.significand ≠ 0 := by
      rwa [ne_eq, ← magnitude_eq_zero_iff, ← h, magnitude_eq_zero_iff]
    have hhuge : d.isHuge = d'.isHuge := by
      rw [Bool.eq_iff_iff, isHuge_iff hd, isHuge_iff hd', h]
    have hminute : d.isMinute = d'.isMinute := by
      rw [Bool.eq_iff_iff, isMinute_iff hd, isMinute_iff hd', h]
    have hread := toBinary64_congr hsign h
    have htiny : Binary64.IsTiny d.numerator d.denominator ↔
        Binary64.IsTiny d'.numerator d'.denominator := by
      rw [Binary64.isTiny_iff d.denominator_pos,
        Binary64.isTiny_iff d'.denominator_pos, quotient_eq, quotient_eq, h]
    have hexact : d.isExact = d'.isExact := by
      rw [Bool.eq_iff_iff, isExact_iff, isExact_iff, hread, h]
    simp only [outOfRange, hd, hd', hhuge, hminute, hread, htiny, hexact]

/-! ## The search for digits -/

/-- The point stands where the quotient says. -/
theorem pointOf_le_iff {n m : Nat} (hn : 0 < n) (hm : 0 < m) (k : Int) :
    pointOf n m ≤ k ↔ quotient n m < (10 : ℚ) ^ k := by
  have hm' : (0 : ℚ) < m := by exact_mod_cast hm
  have hn' : (0 : ℚ) < n := by exact_mod_cast hn
  have hten : (1 : ℚ) < 10 := by norm_num
  rw [pointOf]
  split
  · next hle =>
    have hone : (1 : ℚ) ≤ quotient n m := by
      rw [quotient, one_le_div hm']
      exact_mod_cast hle
    rcases Int.lt_or_le k 0 with hneg | hnonneg
    · have hsmall : (10 : ℚ) ^ k < 1 := zpow_lt_one_of_neg₀ hten hneg
      constructor
      · intro h
        omega
      · intro h
        exact absurd (h.trans hsmall) (not_lt.mpr hone)
    · obtain ⟨j, rfl⟩ := Int.eq_ofNat_of_zero_le hnonneg
      rw [zpow_natCast, quotient, div_lt_iff₀ hm', Int.ofNat_le,
        digitCount_le_iff, Nat.div_lt_iff_lt_mul hm]
      exact_mod_cast Iff.rfl
  · next hlt =>
    have hone : quotient n m < 1 := by
      rw [quotient, div_lt_one hm']
      exact_mod_cast Nat.lt_of_not_le hlt
    rcases Int.lt_or_le 0 k with hpos | hnonpos
    · have hlarge : (1 : ℚ) ≤ 10 ^ k := one_le_zpow₀ hten.le hpos.le
      exact iff_of_true (by omega) (hone.trans_le hlarge)
    · obtain ⟨j, hj⟩ :=
        Int.eq_ofNat_of_zero_le (Int.neg_nonneg_of_nonpos hnonpos)
      have hk : k = -(j : Int) := by omega
      have hcount : digitCount ((m - 1) / n) ≤ j ↔ m ≤ 10 ^ j * n := by
        rw [digitCount_le_iff, Nat.div_lt_iff_lt_mul hn]
        omega
      have hquotient : (10 : ℚ) ^ k ≤ quotient n m ↔ m ≤ 10 ^ j * n := by
        rw [hk, zpow_neg, zpow_natCast, quotient, le_div_iff₀ hm',
          inv_mul_le_iff₀ (by positivity)]
        exact_mod_cast Iff.rfl
      rw [← not_le, hquotient, ← hcount]
      omega

/-- A power with more digits below the point is the smaller one. -/
theorem zpow_neg_le_zpow_neg {a b i j : Nat} (ha : 0 < a) (h : a ^ i ≤ b ^ j) :
    (b : ℚ) ^ (-(j : Int)) ≤ (a : ℚ) ^ (-(i : Int)) := by
  have hpow : (0 : ℚ) < (a : ℚ) ^ i := by
    have ha' : (0 : ℚ) < a := by exact_mod_cast ha
    positivity
  rw [zpow_neg, zpow_neg, zpow_natCast, zpow_natCast]
  exact inv_anti₀ hpow (by exact_mod_cast h)

/-- A power of ten below half the finest step. -/
theorem ten_zpow_lt_step :
    (10 : ℚ) ^ (-324 : Int) < 1 / 2 * (2 : ℚ) ^ (-1074 : Int) := by
  have hpow :=
    zpow_neg_le_zpow_neg (a := 2) (b := 10) (i := 1076) (j := 324) (by decide)
      (by decide +kernel)
  have hhalf : (1 / 2 : ℚ) * 2 ^ (-1074 : Int) = 2 ^ (-1075 : Int) := by
    rw [one_div, ← zpow_neg_one, ← zpow_add₀ two_ne_zero]
    rfl
  rw [hhalf]
  exact lt_of_le_of_lt hpow (zpow_lt_zpow_right₀ one_lt_two (by norm_num))

/-- A power of ten above the subnormal numbers. -/
theorem least_normal_le :
    2 ^ (52 : Nat) * (2 : ℚ) ^ (-1074 : Int) ≤ (10 : ℚ) ^ (-307 : Int) := by
  have hpow :=
    zpow_neg_le_zpow_neg (a := 10) (b := 2) (i := 307) (j := 1022) (by decide)
      (by decide +kernel)
  rw [← zpow_natCast, ← zpow_add₀ two_ne_zero]
  exact hpow

/-- Where a multiple of a power of ten is one of a smaller power of two, the
latter counts the powers of two that are missing. -/
theorem two_pow_dvd_of_eq {k m a b c : Nat}
    (h : (k : ℚ) * 10 ^ (-(a : Int)) = m * 2 ^ (-(c : Int))) (hb : a + b ≤ c) :
    2 ^ b ∣ m := by
  obtain ⟨r, rfl⟩ := Nat.exists_eq_add_of_le hb
  have hten : (10 : ℚ) ^ a ≠ 0 := by positivity
  have htwo : (2 : ℚ) ^ (a + b + r) ≠ 0 := by positivity
  rw [zpow_neg, zpow_neg, zpow_natCast, zpow_natCast, ← div_eq_mul_inv,
    ← div_eq_mul_inv, div_eq_div_iff hten htwo] at h
  have hcross : k * 2 ^ (a + b + r) = m * 10 ^ a := by exact_mod_cast h
  have hcancel : 2 ^ a * (2 ^ b * (k * 2 ^ r)) = 2 ^ a * (m * 5 ^ a) := by
    calc 2 ^ a * (2 ^ b * (k * 2 ^ r)) = k * 2 ^ (a + b + r) := by
          rw [Nat.pow_add, Nat.pow_add]
          ac_rfl
      _ = m * (2 * 5) ^ a := hcross
      _ = 2 ^ a * (m * 5 ^ a) := by
          rw [Nat.mul_pow]
          ac_rfl
  have hdvd : 2 ^ b ∣ m * 5 ^ a :=
    ⟨_, (Nat.eq_of_mul_eq_mul_left (Nat.two_pow_pos a) hcancel).symm⟩
  have hcoprime : Nat.Coprime (2 ^ b) (5 ^ a) := Nat.Coprime.pow _ _ (by decide)
  exact hcoprime.dvd_of_dvd_mul_right hdvd

/-- The candidate that is tried first is at most one step of its grid away. -/
theorem exists_candidates (x : Binary64) (n : Nat) {m : Nat} (hm : 0 < m)
    (unit : Int) :
    ∃ first second : Nat, |(first : ℚ) * 10 ^ unit - quotient n m| ≤ 10 ^ unit ∧
      neighbour? x n m unit =
        if (ofGrid x.negative first unit).toBinary64 = x then
          some (ofGrid x.negative first unit)
        else if (ofGrid x.negative second unit).toBinary64 = x then
          some (ofGrid x.negative second unit)
        else none := by
  let n' := n * 10 ^ (-unit).toNat
  let m' := m * 10 ^ unit.toNat
  have hm' : 0 < m' := Nat.mul_pos hm (Nat.pow_pos (by decide))
  have hstep : (0 : ℚ) < 10 ^ unit := by positivity
  have hsteps : quotient n m = quotient n' m' * (10 : ℚ) ^ unit := by
    have hquotient := Binary64.quotient_steps (b := 10) (by decide) n m unit
    rw [Nat.cast_ofNat] at hquotient
    rw [hquotient, div_mul_cancel₀ _ hstep.ne']
  have hbelow : (0 : ℚ) ≤ quotient (n' % m') m' := by
    unfold quotient
    positivity
  have habove : quotient (n' % m') m' < 1 := by
    rw [quotient, div_lt_one (by exact_mod_cast hm')]
    exact_mod_cast Nat.mod_lt n' hm'
  have hclose : ∀ count : Nat, count = n' / m' ∨ count = n' / m' + 1 →
      |(count : ℚ) * 10 ^ unit - quotient n m| ≤ 10 ^ unit := by
    intro count hcount
    rw [hsteps, ← sub_mul, abs_mul, abs_of_pos hstep,
      Binary64.quotient_eq_add hm']
    refine mul_le_of_le_one_left hstep.le (abs_le.mpr ?_)
    rcases hcount with rfl | rfl
    · constructor <;> linarith
    · push_cast
      constructor <;> linarith
  unfold neighbour?
  dsimp only
  split
  · exact ⟨n' / m', n' / m' + 1, hclose _ (.inl rfl), rfl⟩
  · exact ⟨n' / m' + 1, n' / m', hclose _ (.inr rfl), rfl⟩

/-- The search stays on grids of at most as many digits as it has been given. -/
theorem exists_grid_of_search? {n m digits further : Nat} {found : Decimal}
    (hm : 0 < m) (h : search? x n m digits further = some found) :
    ∃ count k : Nat, k < digits + further ∧
      found = ofGrid x.negative count (pointOf n m - k) := by
  induction further generalizing digits with
  | zero => cases h
  | succ further ih =>
    unfold search? at h
    split at h
    · next hfound =>
      cases h
      obtain ⟨first, second, -, hcandidates⟩ :=
        exists_candidates x n hm (pointOf n m - digits)
      rw [hfound] at hcandidates
      split at hcandidates
      · exact ⟨first, digits, by omega, Option.some.inj hcandidates⟩
      · split at hcandidates
        · exact ⟨second, digits, by omega, Option.some.inj hcandidates⟩
        · cases hcandidates
    · obtain ⟨count, k, hk, hgrid⟩ := ih h
      exact ⟨count, k, by omega, hgrid⟩

/-- The search ends with a decimal if there is one on the grid of one of its
numbers of digits. -/
theorem search?_ne_none {n m digits further last : Nat} (hfirst : digits ≤ last)
    (hlast : last < digits + further)
    (h : neighbour? x n m (pointOf n m - last) ≠ none) :
    search? x n m digits further ≠ none := by
  induction further generalizing digits with
  | zero => omega
  | succ further ih =>
    unfold search?
    split
    · exact Option.some_ne_none _
    · next hnone =>
      rcases Nat.lt_or_eq_of_le hfirst with hlt | rfl
      · exact ih hlt (by omega)
      · exact absurd hnone h

/-! ## Subnormal numbers -/

section Subnormal

variable (hfield : x.exponentField = 0)
include hfield

theorem mantissa_lt_of_subnormal : x.mantissa < 2 ^ (52 : Nat) := by
  rw [Binary64.mantissa, if_pos hfield]
  exact x.fraction_lt

theorem scale_of_subnormal : x.scale = -1074 := by
  rw [Binary64.scale, hfield]
  rfl

variable (hx : x.mantissa ≠ 0)
include hx

section Near

variable (hnear : |d.magnitude - x.mantissa * (2 : ℚ) ^ (-1074 : Int)| <
  1 / 2 * (2 : ℚ) ^ (-1074 : Int))
include hnear

/-- What is less than half a step away from a subnormal number is between zero
and the normal numbers. -/
theorem magnitude_of_near :
    1 / 2 * (2 : ℚ) ^ (-1074 : Int) < d.magnitude ∧
      d.magnitude < 2 ^ (52 : Nat) * (2 : ℚ) ^ (-1074 : Int) := by
  have hunit : (0 : ℚ) < 2 ^ (-1074 : Int) := by positivity
  have hleast : (1 : ℚ) ≤ x.mantissa := by
    exact_mod_cast Nat.one_le_iff_ne_zero.mpr hx
  have hmost : (x.mantissa : ℚ) + 1 ≤ 2 ^ (52 : Nat) := by
    exact_mod_cast mantissa_lt_of_subnormal hfield
  have hlow := mul_le_mul_of_nonneg_right hleast hunit.le
  have hhigh := mul_le_mul_of_nonneg_right hmost hunit.le
  obtain ⟨habove, hbelow⟩ := abs_lt.mp hnear
  constructor
  · linarith
  · linarith

/-- A decimal less than half a step away from a subnormal number
rounds to it. -/
theorem toBinary64_of_near (hsign : d.negative = x.negative) :
    d.toBinary64 = x := by
  obtain ⟨hlow, hhigh⟩ := magnitude_of_near hfield hx hnear
  have hlt := mantissa_lt_of_subnormal hfield
  have hword : x.magnitudeWord = x.mantissa := by
    rw [Binary64.magnitudeWord_eq, Binary64.mantissa, if_pos hfield, hfield,
      Nat.zero_mul, Nat.zero_add]
  have hfinite : x.isFinite = true := by
    rw [Binary64.isFinite, hword, Binary64.infinityWord]
    exact decide_eq_true (by omega)
  have hsignificand : d.significand ≠ 0 := by
    rw [ne_eq, ← magnitude_eq_zero_iff]
    exact ((by positivity : (0 : ℚ) < _).trans hlow).ne'
  have hminute : d.isMinute = false := by
    rw [Bool.eq_false_iff, ne_eq, isMinute_iff hsignificand, not_lt]
    have hfar : (10 : ℚ) ^ (-401 : Int) ≤ 10 ^ (-324 : Int) :=
      zpow_le_zpow_right₀ (by norm_num) (by norm_num)
    exact hfar.trans (ten_zpow_lt_step.le.trans hlow.le)
  have hhuge : d.isHuge = false := by
    rw [Bool.eq_false_iff, ne_eq, isHuge_iff hsignificand, not_le]
    have hfar : (10 : ℚ) ^ (-307 : Int) < 10 ^ (400 : Int) :=
      zpow_lt_zpow_right₀ (by norm_num) (by norm_num)
    exact hhigh.trans (least_normal_le.trans_lt hfar)
  have hnearest : Binary64.nearestWord d.numerator d.denominator =
      x.magnitudeWord := by
    have hn : 0 < d.numerator :=
      Nat.mul_pos (Nat.pos_of_ne_zero hsignificand) (Nat.pow_pos (by decide))
    rw [hword]
    refine Binary64.nearestWord_of_near hn d.denominator_pos hlt ?_
    rwa [quotient_eq, abs_sub_comm]
  simp only [toBinary64, hsignificand, hhuge, hminute, hsign]
  exact Binary64.nearest_eq_of_nearestWord hfinite hnearest

end Near

/-- The first digit of a subnormal number. -/
theorem pointOf_of_subnormal :
    -323 ≤ pointOf x.numerator x.denominator ∧
      pointOf x.numerator x.denominator ≤ -307 := by
  have hunit : (0 : ℚ) < 2 ^ (-1074 : Int) := by positivity
  have hn : 0 < x.numerator :=
    Nat.mul_pos (Nat.pos_of_ne_zero hx) (Nat.two_pow_pos _)
  have hd : 0 < x.denominator := Nat.two_pow_pos _
  have hvalue : quotient x.numerator x.denominator =
      x.mantissa * (2 : ℚ) ^ (-1074 : Int) := by
    rw [Binary64.quotient_eq, scale_of_subnormal hfield]
  constructor
  · have hone : (1 : ℚ) ≤ x.mantissa := by
      exact_mod_cast Nat.one_le_iff_ne_zero.mpr hx
    have hnot : ¬ pointOf x.numerator x.denominator ≤ -324 := by
      rw [pointOf_le_iff hn hd, hvalue, not_lt]
      linarith [ten_zpow_lt_step, mul_le_mul_of_nonneg_right hone hunit.le]
    omega
  · rw [pointOf_le_iff hn hd, hvalue]
    have hm : (x.mantissa : ℚ) < 2 ^ (52 : Nat) := by
      exact_mod_cast mantissa_lt_of_subnormal hfield
    exact (mul_lt_mul_of_pos_right hm hunit).trans_le least_normal_le

/-- Seventeen digits are enough for a subnormal number. -/
theorem search?_of_subnormal :
    search? x x.numerator x.denominator 1 17 ≠ none := by
  obtain ⟨-, hhigh⟩ := pointOf_of_subnormal hfield hx
  have hd : 0 < x.denominator := Nat.two_pow_pos _
  obtain ⟨first, second, hclose, hcandidates⟩ :=
    exists_candidates x x.numerator hd
      (pointOf x.numerator x.denominator - (17 : Nat))
  have hstep : (10 : ℚ) ^ (pointOf x.numerator x.denominator - (17 : Nat)) ≤
      10 ^ (-324 : Int) :=
    zpow_le_zpow_right₀ (by norm_num) (by omega)
  have hread : (ofGrid x.negative first
      (pointOf x.numerator x.denominator - (17 : Nat))).toBinary64 = x := by
    refine toBinary64_of_near hfield hx ?_ rfl
    rw [← scale_of_subnormal hfield, ← Binary64.quotient_eq,
      scale_of_subnormal hfield]
    exact hclose.trans_lt (hstep.trans_lt ten_zpow_lt_step)
  refine search?_ne_none (show 1 ≤ 17 by decide) (by decide) ?_
  rw [hcandidates, if_pos hread]
  exact Option.some_ne_none _

/-- So many digits do not make up the exact value of a subnormal number. -/
theorem magnitude_shortest_ne :
    (shortest x).magnitude ≠ x.mantissa * (2 : ℚ) ^ (-1074 : Int) := by
  obtain ⟨hlow, -⟩ := pointOf_of_subnormal hfield hx
  obtain ⟨found, hsearch⟩ :=
    Option.ne_none_iff_exists'.mp (search?_of_subnormal hfield hx)
  have hd : 0 < x.denominator := Nat.two_pow_pos _
  obtain ⟨count, k, hk, rfl⟩ := exists_grid_of_search? hd hsearch
  rw [shortest, if_neg hx, hsearch, Option.getD_some]
  intro hexact
  obtain ⟨j, hj⟩ := Int.eq_ofNat_of_zero_le
    (show 0 ≤ pointOf x.numerator x.denominator - k + 340 by omega)
  have hdvd : 2 ^ (52 : Nat) ∣ x.mantissa := by
    refine two_pow_dvd_of_eq (k := count * 10 ^ j) (a := 340) (c := 1074)
      ?_ (by decide)
    have hten : (10 : ℚ) ≠ 0 := by norm_num
    have hsplit : pointOf x.numerator x.denominator - k = j + -(340 : Nat) := by
      omega
    rw [magnitude, ofGrid] at hexact
    rw [Nat.cast_mul, Nat.cast_pow, Nat.cast_ofNat, mul_assoc, ← zpow_natCast,
      ← zpow_add₀ hten, ← hsplit]
    exact hexact
  exact absurd (Nat.le_of_dvd (Nat.pos_of_ne_zero hx) hdvd)
    (Nat.not_le.mpr (mantissa_lt_of_subnormal hfield))

end Subnormal

/-- The shortest decimal of the least normal number lies above it. -/
theorem outOfRange_shortest_least_normal (negative : Bool) :
    (shortest (.ofMagnitude negative (2 ^ (52 : Nat)))).outOfRange = false := by
  cases negative <;> decide +kernel

/-- The shortest decimal of a finite number is out of range just for
subnormal numbers. -/
theorem outOfRange_shortest (hfinite : x.isFinite = true) :
    (shortest x).outOfRange = x.isSubnormal := by
  obtain ⟨-, hread⟩ := denotes_shortest hfinite
  by_cases hx : x.mantissa = 0
  · have hzero : (shortest x).significand = 0 := by rw [shortest, if_pos hx]
    rw [outOfRange_of_zero hzero]
    simp [Binary64.isSubnormal, hx]
  · by_cases hfield : x.exponentField = 0
    · have hinexact := magnitude_shortest_ne hfield hx
      rw [← scale_of_subnormal hfield] at hinexact
      have hout := (outOfRange_iff hread hfinite hx).mpr
        ⟨isTiny_of_subnormal hread hfinite hx hfield, hinexact⟩
      rw [hout]
      simp [Binary64.isSubnormal, hx, hfield]
    · have hnot : x.isSubnormal = false := by
        simp [Binary64.isSubnormal, hfield]
      have hword := x.magnitudeWord_eq
      have hle : 2 ^ (52 : Nat) ≤ x.magnitudeWord := by omega
      rcases Nat.lt_or_eq_of_le hle with hlt | heq
      · rw [hnot, outOfRange_of_normal hread hfinite hx hlt]
      · have hleast := outOfRange_shortest_least_normal x.negative
        rw [heq, x.ofMagnitude_magnitudeWord] at hleast
        rw [hnot, hleast]

end Decimal
end FleetControl

import FleetControl.Binary64

/-!
# Rounding to the nearest number

`Binary64.nearest` rounds a positive quotient of natural numbers to the
nearest number, a half to the even mantissa, and beyond the largest finite
number to infinity.

The grid of the result is the power of two on which the quotient has fifty-three
bits, or the finest one there is.  With `m` on the grid `q`, the word is
`(q + 1074) * 2 ^ 52 + m` both for normal and for subnormal results, and a
mantissa rounded up to `2 ^ 53` carries into the exponent by the same sum.
-/

namespace FleetControl
namespace Binary64

attribute [local instance (2000)] instPowNat

/-- The quotient `n / d` rounded to a whole number, a half to the even one. -/
def roundHalfEven (n d : Nat) : Nat :=
  if 2 * (n % d) < d then n / d
  else if d < 2 * (n % d) then n / d + 1
  else n / d + n / d % 2

/-- The exponent of the largest power of two that is at most the positive
quotient `n / d`. -/
def floorLog2 (n d : Nat) : Int :=
  let guess : Int := (Nat.log2 n : Int) - (Nat.log2 d : Int)
  if d * 2 ^ guess.toNat ≤ n * 2 ^ (-guess).toNat then guess else guess - 1

/-- The power of two whose multiples are the candidates for the rounding
of `n / d`. -/
def grid (n d : Nat) : Int :=
  max (floorLog2 n d - 52) (-1074)

/-- The multiple of the grid that is nearest to `n / d`. -/
def gridMantissa (n d : Nat) : Nat :=
  roundHalfEven (n * 2 ^ (-grid n d).toNat) (d * 2 ^ (grid n d).toNat)

/-- The word of the rounding of `n / d`, as if there were exponents
without end. -/
def nearestWord (n d : Nat) : Nat :=
  if n = 0 then 0
  else (grid n d + 1074).toNat * 2 ^ (52 : Nat) + gridMantissa n d

/-- The number nearest to `n / d` in magnitude, with the given sign. -/
def nearest (negative : Bool) (n d : Nat) : Binary64 :=
  ofMagnitude negative (min (nearestWord n d) infinityWord)

/-- The number nearest to an integer. -/
def ofInt : Int → Binary64
  | .ofNat n => nearest false n 1
  | .negSucc n => nearest true (n + 1) 1

/-- Below this quotient a number, rounded to fifty-three bits, still is below
the least normal number `2 ^ -1022`. -/
def IsTiny (n d : Nat) : Prop :=
  n * 2 ^ (1076 : Nat) < (2 ^ (54 : Nat) - 1) * d

instance (n d : Nat) : Decidable (IsTiny n d) :=
  inferInstanceAs (Decidable (_ < _))

end Binary64
end FleetControl

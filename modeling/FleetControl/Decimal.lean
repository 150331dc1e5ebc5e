import FleetControl.Text
import FleetControl.Binary64.Nearest

/-!
# Decimal numbers

A decimal number is a sign, a whole significand and a power of ten.  It is what
the digits of a text denote, before any rounding.

`Decimal.toBinary64` rounds it to the nearest binary number.
`Decimal.outOfRange` says when the rounding loses the number: when it overflows,
or when the number is too small to keep its fifty-three bits and the binary
number differs from it.
-/

namespace FleetControl

/-- The number `significand * 10 ^ exponent`, negated if so marked. -/
structure Decimal where
  negative : Bool
  significand : Nat
  exponent : Int
deriving DecidableEq

namespace Decimal

attribute [local instance (2000)] instPowNat

/-- How many decimal digits a natural number has; zero has none. -/
def digitCount (n : Nat) : Nat :=
  if n = 0 then 0 else digitCount (n / 10) + 1
termination_by n

/-- The numerator of the magnitude. -/
def numerator (x : Decimal) : Nat :=
  x.significand * 10 ^ x.exponent.toNat

/-- The denominator of the magnitude. -/
def denominator (x : Decimal) : Nat :=
  10 ^ (-x.exponent).toNat

/-- The place of the decimal point before the first digit that counts: the
magnitude lies in `10 ^ (point - 1) ≤ m < 10 ^ point`. -/
def point (x : Decimal) : Int :=
  digitCount x.significand + x.exponent

/-- No finite binary number reaches `10 ^ 400`. -/
def isHuge (x : Decimal) : Bool :=
  x.significand ≠ 0 && 400 < x.point

/-- No binary number but zero is as small as `10 ^ -400`. -/
def isMinute (x : Decimal) : Bool :=
  x.significand ≠ 0 && x.point < -400

/-- The nearest binary number; the powers of ten of numbers far out of range are
not computed. -/
def toBinary64 (x : Decimal) : Binary64 :=
  if x.significand = 0 || x.isMinute then .zero x.negative
  else if x.isHuge then .infinity x.negative
  else .nearest x.negative x.numerator x.denominator

/-- The binary number has exactly the value of the decimal one. -/
def isExact (x : Decimal) : Bool :=
  let y := x.toBinary64
  y.isFinite && x.numerator * y.denominator == y.numerator * x.denominator

/-- The number cannot be given as a binary number of full precision,
nor exactly. -/
def outOfRange (x : Decimal) : Bool :=
  if x.significand = 0 then false
  else if x.isHuge || x.isMinute then true
  else if !x.toBinary64.isFinite then true
  else decide (Binary64.IsTiny x.numerator x.denominator) && !x.isExact

end Decimal
end FleetControl

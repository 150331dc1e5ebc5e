/-!
# Binary floating point numbers of 64 bits

A number is its word: one sign bit, eleven bits of exponent, fifty-two bits of
fraction.  The magnitude of a finite number is `mantissa * 2 ^ scale`, which
`numerator` and `denominator` give as a quotient of natural numbers, so every
question about its value is one of exact arithmetic.
-/

namespace FleetControl

/-- A binary floating point number, as its 64-bit word. -/
structure Binary64 where
  bits : UInt64
deriving DecidableEq, Inhabited

namespace Binary64

-- Powers are those of the core library, whichever others are in scope.
attribute [local instance (2000)] instPowNat

/-- The first word above those of the finite magnitudes. -/
def infinityWord : Nat :=
  2047 * 2 ^ (52 : Nat)

/-- The number whose sign is given apart from the word of its magnitude. -/
def ofMagnitude (negative : Bool) (word : Nat) : Binary64 :=
  ⟨UInt64.ofNat (if negative then 2 ^ (63 : Nat) + word else word)⟩

/-- The zero of a sign. -/
def zero (negative : Bool) : Binary64 :=
  ofMagnitude negative 0

/-- The infinity of a sign. -/
def infinity (negative : Bool) : Binary64 :=
  ofMagnitude negative infinityWord

/-- The result of reading a text that denotes no number. -/
def nan : Binary64 :=
  ofMagnitude false (infinityWord + 2 ^ (51 : Nat))

/-- The sign bit is set. -/
def negative (x : Binary64) : Bool :=
  2 ^ (63 : Nat) ≤ x.bits.toNat

/-- The word without its sign bit. -/
def magnitudeWord (x : Binary64) : Nat :=
  x.bits.toNat % 2 ^ (63 : Nat)

/-- The eleven bits of exponent. -/
def exponentField (x : Binary64) : Nat :=
  x.magnitudeWord / 2 ^ (52 : Nat)

/-- The fifty-two bits of fraction. -/
def fraction (x : Binary64) : Nat :=
  x.magnitudeWord % 2 ^ (52 : Nat)

/-- The number is neither infinite nor undefined. -/
def isFinite (x : Binary64) : Bool :=
  x.magnitudeWord < infinityWord

/-- The word denotes no number. -/
def isNaN (x : Binary64) : Bool :=
  infinityWord < x.magnitudeWord

/-- The whole mantissa: the fraction, with the leading bit that only normal
numbers have. -/
def mantissa (x : Binary64) : Nat :=
  if x.exponentField = 0 then x.fraction else x.fraction + 2 ^ (52 : Nat)

/-- The power of two that the mantissa counts. -/
def scale (x : Binary64) : Int :=
  max x.exponentField 1 - 1075

/-- The numerator of the magnitude of a finite number. -/
def numerator (x : Binary64) : Nat :=
  x.mantissa * 2 ^ x.scale.toNat

/-- The denominator of the magnitude of a finite number. -/
def denominator (x : Binary64) : Nat :=
  2 ^ (-x.scale).toNat

/-- The integer that a finite number becomes when its places after the point
are dropped. -/
def truncate (x : Binary64) : Int :=
  let whole : Int := Int.ofNat (x.numerator / x.denominator)
  if x.negative then -whole else whole

end Binary64
end FleetControl

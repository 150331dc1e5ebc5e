import FleetControl.Decimal

/-!
# Numerals

The parts of a written number: a run of digits, digits after a point, and a
power of ten after the letter `e`.  `Numeral.decimal?` reads a whole text in
which the digits on one side of the point may be missing, and `Numeral.integer?`
a whole text without point or power.
-/

namespace FleetControl
namespace Numeral

/-- The byte `+`. -/
def plus : UInt8 := 0x2b

/-- The byte `-`. -/
def minus : UInt8 := 0x2d

/-- The byte `.`. -/
def pointMark : UInt8 := 0x2e

/-- The byte is `e` or `E`. -/
def isExponentMark (b : UInt8) : Bool :=
  b == 0x65 || b == 0x45

/-- The leading digits of a text, and the rest. -/
def digits (t : Text) : Text × Text :=
  t.span Text.isDigit

/-- Whether a text starts with a minus sign, and the rest after at
most one sign. -/
def sign : Text → Bool × Text
  | [] => (false, [])
  | b :: rest =>
    if b = minus then (true, rest) else if b = plus then (false, rest)
    else (false, b :: rest)

/-- The integer of a sign and a run of digits. -/
def signed (negative : Bool) (ds : Text) : Int :=
  if negative then -Int.ofNat (Text.digitsValue ds)
  else Int.ofNat (Text.digitsValue ds)

/-- The digits after a leading point, if there is one, and the rest. -/
def fraction? : Text → Option (Text × Text)
  | [] => none
  | b :: rest => if b = pointMark then some (digits rest) else none

/-- The power of ten that a leading exponent mark gives, and the rest; `none`
unless digits follow the mark. -/
def power? : Text → Option (Int × Text)
  | [] => none
  | b :: rest =>
    if isExponentMark b then
      let (negative, rest) := sign rest
      let (ds, rest) := digits rest
      if ds.isEmpty then none else some (signed negative ds, rest)
    else none

/-- The decimal number of its digits before and after the point and its
power of ten. -/
def toDecimal (negative : Bool) (whole fraction : Text) (power : Int) :
    Decimal where
  negative := negative
  significand := Text.digitsValue (whole ++ fraction)
  exponent := power - fraction.length

/-- The integer that a whole text denotes: at most one sign, then digits. -/
def integer? (t : Text) : Option Int :=
  let (negative, rest) := sign t
  let (ds, rest) := digits rest
  if ds.isEmpty || !rest.isEmpty then none else some (signed negative ds)

/-- The number that a whole text denotes: at most one sign, digits with at most
one point among or beside them, and at most one power of ten. -/
def decimal? (t : Text) : Option Decimal :=
  let (negative, rest) := sign t
  let (whole, rest) := digits rest
  let (fraction, rest) := (fraction? rest).getD ([], rest)
  if whole.isEmpty && fraction.isEmpty then none
  else if rest.isEmpty then some (toDecimal negative whole fraction 0)
  else match power? rest with
    | some (power, []) => some (toDecimal negative whole fraction power)
    | _ => none

end Numeral
end FleetControl

import FleetControl.Json
import FleetControl.Text.Utf8
import FleetControl.Decimal.Shortest

/-!
# Writing JSON

`Json.render` writes a value without blanks, on one line: all bytes below the
space are escaped.  Only a value whose strings and keys all are well-formed
UTF-8 has a written form, which is what `Json.print?` gives.

Binary numbers are written by the digits of `Decimal.shortest`, with a point or
a power of ten in every case, so that none is read back as a whole number.
-/

namespace FleetControl
namespace Json

/-- The letter that stands for a byte after a backslash. -/
def shortEscape? (b : UInt8) : Option UInt8 :=
  if b = 0x22 then some 0x22
  else if b = 0x5c then some 0x5c
  else if b = 0x08 then some 0x62
  else if b = 0x0c then some 0x66
  else if b = 0x0a then some 0x6e
  else if b = 0x0d then some 0x72
  else if b = 0x09 then some 0x74
  else none

/-- A byte within a written string. -/
def escapeByte (b : UInt8) : Text :=
  match shortEscape? b with
  | some letter => [0x5c, letter]
  | none => if b < 0x20 then text "\\u00" ++ Text.hexByte b else [b]

/-- A written string. -/
def renderText (t : Text) : Text :=
  text "\"" ++ t.flatMap escapeByte ++ text "\""

/-- The digits of a number without its trailing zeros. -/
def significantDigits (n : Nat) : Text :=
  ((Text.ofNat n).reverse.dropWhile (· == 0x30)).reverse

/-- The sign of an exponent and at least two digits. -/
def renderExponent (e : Int) : Text :=
  (if e < 0 then text "-" else text "+")
    ++ (if e.natAbs < 10 then text "0" else []) ++ Text.ofNat e.natAbs

/-- The digits of a number with its decimal point after position `point`:
positional when the point falls among the first fifteen places or after at
most three leading zeros, and otherwise with one digit before the point and a
power of ten. -/
def renderDigits (digits : Text) (point : Int) : Text :=
  if 0 < point ∧ point ≤ 15 then
    let places := point.toNat
    if digits.length ≤ places then
      digits ++ List.replicate (places - digits.length) 0x30 ++ text ".0"
    else
      digits.take places ++ text "." ++ digits.drop places
  else if -4 < point ∧ point ≤ 0 then
    text "0." ++ List.replicate (-point).toNat 0x30 ++ digits
  else
    digits.take 1
      ++ (if digits.length ≤ 1 then [] else text "." ++ digits.drop 1)
      ++ text "e" ++ renderExponent (point - 1)

/-- A written binary number; what is no finite number is written as `null`. -/
def renderDouble (x : Binary64) : Text :=
  if !x.isFinite then text "null"
  else
    let d := Decimal.shortest x
    (if x.negative then text "-" else [])
      ++ (if d.significand = 0 then text "0.0"
          else renderDigits (significantDigits d.significand) d.point)

mutual

/-- A value, written on one line. -/
def render : Json → Text
  | .null => text "null"
  | .bool true => text "true"
  | .bool false => text "false"
  | .unsigned n => Text.ofNat n.toNat
  | .signed n => Text.ofInt n.toInt
  | .double x => renderDouble x
  | .string t => renderText t
  | .array items => text "[" ++ renderItems items ++ text "]"
  | .object entries => text "\x7b" ++ renderEntries entries ++ text "\x7d"

/-- The items of an array, with commas between them. -/
def renderItems : List Json → Text
  | [] => []
  | [item] => render item
  | item :: rest => render item ++ text "," ++ renderItems rest

/-- The entries of an object, with commas between them. -/
def renderEntries : List (Text × Json) → Text
  | [] => []
  | [(key, value)] => renderText key ++ text ":" ++ render value
  | (key, value) :: rest =>
    renderText key ++ text ":" ++ render value ++ text "," ++ renderEntries rest

end

mutual

/-- All strings and keys in a value are well-formed UTF-8. -/
def isPrintable : Json → Bool
  | .string t => Utf8.isWellFormed t
  | .array items => itemsPrintable items
  | .object entries => entriesPrintable entries
  | _ => true

/-- All strings and keys in the items are well-formed UTF-8. -/
def itemsPrintable : List Json → Bool
  | [] => true
  | item :: rest => isPrintable item && itemsPrintable rest

/-- All strings and keys in the entries are well-formed UTF-8. -/
def entriesPrintable : List (Text × Json) → Bool
  | [] => true
  | (key, value) :: rest =>
    Utf8.isWellFormed key && isPrintable value && entriesPrintable rest

end

/-- The written form of a value, unless a string in it is ill formed. -/
def print? (v : Json) : Option Text :=
  if v.isPrintable then some v.render else none

end Json
end FleetControl

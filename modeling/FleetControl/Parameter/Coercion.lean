import FleetControl.Json
import FleetControl.Text.Utf8
import FleetControl.Text.Blank
import FleetControl.Decimal.Numeral
import FleetControl.Parameter.Type

/-!
# Converting values to a base type

Requests may give a value in another kind of JSON than the parameter asks for.
Texts of numbers are read without the blanks around them, binary numbers become
integers by dropping their places after the point, and truth values are the
integers one and zero.  A conversion never changes a number without saying so:
what does not fit is refused.

`Coercion.toInt`, `toFloat`, `toText` and `toBool` give the converted value in
its own type, and `Coercion.coerce` gives it as JSON again.
-/

namespace FleetControl

/-- Why a parameter's value is refused. -/
inductive Misfit where
  | outOfRange
  | notInt
  | notFloat
  | notText
  | notBool
  | unknownType
  | notList
  | lengthDiffers
deriving DecidableEq

/-- The wording of a refusal. -/
def Misfit.message : Misfit → Text
  | .outOfRange => text "Value is out of range for int."
  | .notInt => text "Value is not a valid int."
  | .notFloat => text "Value is not a valid float."
  | .notText => text "Value is not a valid string."
  | .notBool => text "Value is not a valid bool."
  | .unknownType => text "Parameter type is invalid."
  | .notList => text "Value of an array parameter has to be a list."
  | .lengthDiffers =>
    text "Length of parameter specification does not match length of supplied values."

namespace Coercion

/-- The integer fits the signed numbers of 64 bits. -/
def fits (n : Int) : Bool :=
  Int64.minValue.toInt ≤ n && n ≤ Int64.maxValue.toInt

/-- The signed number of an integer that fits. -/
def signed (n : Int) (otherwise : Misfit) : Except Misfit Int64 :=
  if fits n then .ok (Int64.ofInt n) else .error otherwise

/-- The signed integer that a value stands for. -/
def toInt : Json → Except Misfit Int64
  | .bool b => .ok (if b then 1 else 0)
  | .unsigned n => signed n.toNat .outOfRange
  | .signed n => .ok n
  | .double x =>
    if x.isFinite then signed x.truncate .notInt else .error .notInt
  | .string t =>
    match Numeral.integer? t.trim with
    | some n => signed n .notInt
    | none => .error .notInt
  | _ => .error .notInt

/-- A word for a number without digits: an infinity, or no number at all.  The
word may carry a sign, and letters, digits and underscores in parentheses
after `nan`. -/
def namedFloat? (t : Text) : Option Binary64 :=
  let (negative, rest) := Numeral.sign t
  let word := rest.map Text.lower
  if word = text "inf" || word = text "infinity" then some (.infinity negative)
  else if word = text "nan" then some .nan
  else if (text "nan(").isPrefixOf word && word.getLast? = some 0x29 &&
      ((word.drop 4).dropLast.all fun b =>
        Text.isLetter b || Text.isDigit b || b == 0x5f) then
    some .nan
  else none

/-- The binary number that a text denotes; decimals out of range are refused. -/
def floatOfText? (t : Text) : Option Binary64 :=
  match Numeral.decimal? t with
  | some d => if d.outOfRange then none else some d.toBinary64
  | none =>
    if t.any fun b => Text.lower b == 0x78 then none else namedFloat? t

/-- The binary number that a value stands for; whole numbers are rounded to
the nearest. -/
def toFloat : Json → Except Misfit Binary64
  | .bool b => .ok (.ofInt (if b then 1 else 0))
  | .unsigned n => .ok (.ofInt n.toNat)
  | .signed n => .ok (.ofInt n.toInt)
  | .double x => .ok x
  | .string t =>
    match floatOfText? t.trim with
    | some x => .ok x
    | none => .error .notFloat
  | _ => .error .notFloat

/-- The text that a value is; it has to be well-formed UTF-8. -/
def toText : Json → Except Misfit Text
  | .string t => if Utf8.isWellFormed t then .ok t else .error .notText
  | _ => .error .notText

/-- The truth value that a value stands for: the words `true` and `false` in any
case, and otherwise whether the integer that it stands for is not zero. -/
def toBool : Json → Except Misfit Bool
  | .string t =>
    let word := t.trim.map Text.lower
    if word = text "true" then .ok true
    else if word = text "false" then .ok false
    else .error .notBool
  | v =>
    match toInt v with
    | .ok n => .ok (n ≠ 0)
    | .error _ => .error .notBool

/-- The value as one of a base type. -/
def coerce (type : BaseType) (v : Json) : Except Misfit Json :=
  match type with
  | .int => (toInt v).map .signed
  | .str => (toText v).map .string
  | .float => (toFloat v).map .double
  | .bool => (toBool v).map .bool

/-- The value as one of the base type that a token names. -/
def coerceToken (token : Text) (v : Json) : Except Misfit Json :=
  match BaseType.ofToken? token with
  | some type => coerce type v
  | none => .error .unknownType

/-- The values, each as one of the base type that its token names; the first
refusal ends it.  There have to be as many values as tokens. -/
def coerceAll (tokens : List Text) (values : List Json) :
    Except Misfit (List Json) :=
  if values.length = tokens.length then
    (tokens.zip values).mapM fun (token, v) => coerceToken token v
  else .error .lengthDiffers

end Coercion
end FleetControl

import FleetControl.Json
import FleetControl.Text.Utf8
import FleetControl.Decimal.Numeral

/-!
# Reading JSON

`Json.read?` reads the first value of a text, after an optional byte order mark,
and leaves alone whatever follows it.  The grammar is strict: strings are
well-formed UTF-8 without raw control bytes, escapes denote scalar values,
numbers have no leading zeros and no bare point.

A number without point and power of ten is unsigned if it has no minus sign and
fits 64 bits, signed if it has one and fits, and otherwise is a binary number;
one beyond the largest finite number is refused.

A reader takes a text and gives a value and the rest.  The readers of values,
items and entries call each other with one step less each time; a value needs no
more steps than it has bytes, so `Json.read?` grants one for each byte.
-/

namespace FleetControl
namespace Json

/-- The byte may stand between the tokens of a value. -/
def isSpace (b : UInt8) : Bool :=
  b == 0x20 || b == 0x09 || b == 0x0a || b == 0x0d

/-- The text without its leading spaces. -/
def skipSpace (t : Text) : Text :=
  t.dropWhile isSpace

/-- The rest of a text after a given beginning. -/
def after? (beginning t : Text) : Option Text :=
  if beginning.isPrefixOf t then some (t.drop beginning.length) else none

/-- The rest of a text after spaces and one given byte. -/
def expect? (b : UInt8) (t : Text) : Option Text :=
  match skipSpace t with
  | [] => none
  | first :: rest => if first = b then some rest else none

/-! ## Strings -/

/-- What a written string is made of: raw bytes, and the 16-bit units that
escapes give. -/
inductive Piece where
  | byte (b : UInt8)
  | unit (n : Nat)

/-- The byte that a letter after a backslash stands for. -/
def unescape? (letter : UInt8) : Option UInt8 :=
  if letter = 0x22 then some 0x22
  else if letter = 0x5c then some 0x5c
  else if letter = 0x2f then some 0x2f
  else if letter = 0x62 then some 0x08
  else if letter = 0x66 then some 0x0c
  else if letter = 0x6e then some 0x0a
  else if letter = 0x72 then some 0x0d
  else if letter = 0x74 then some 0x09
  else none

/-- The number that four hexadecimal digits denote. -/
def hexUnit? (a b c d : UInt8) : Option Nat := do
  let a ← Text.hexValue? a
  let b ← Text.hexValue? b
  let c ← Text.hexValue? c
  let d ← Text.hexValue? d
  return ((a * 16 + b) * 16 + c) * 16 + d

/-- The pieces of a string up to its closing quote, and the rest after
the quote. -/
def pieces? : Text → Option (List Piece × Text)
  | [] => none
  | b :: rest =>
    if b = 0x22 then some ([], rest)
    else if b < 0x20 then none
    else if b = 0x5c then
      match rest with
      | [] => none
      | letter :: rest =>
        if letter = 0x75 then
          match rest with
          | h1 :: h2 :: h3 :: h4 :: rest => do
            let n ← hexUnit? h1 h2 h3 h4
            let (more, rest) ← pieces? rest
            return (.unit n :: more, rest)
          | _ => none
        else do
          let c ← unescape? letter
          let (more, rest) ← pieces? rest
          return (.byte c :: more, rest)
    else do
      let (more, rest) ← pieces? rest
      return (.byte b :: more, rest)

/-- The unit is the first half of a surrogate pair. -/
def isHighSurrogate (n : Nat) : Bool :=
  0xd800 ≤ n && n < 0xdc00

/-- The unit is the second half of a surrogate pair. -/
def isLowSurrogate (n : Nat) : Bool :=
  0xdc00 ≤ n && n < 0xe000

/-- The bytes of the pieces; surrogates have to come in pairs. -/
def join? : List Piece → Option Text
  | [] => some []
  | .byte b :: rest => do
    return b :: (← join? rest)
  | .unit high :: .unit low :: rest =>
    if isHighSurrogate high then
      if isLowSurrogate low then do
        return Utf8.encode
          (0x10000 + (high - 0xd800) * 1024 + (low - 0xdc00)) ++ (← join? rest)
      else none
    else if isLowSurrogate high then none
    else do
      return Utf8.encode high ++ (← join? (.unit low :: rest))
  | .unit n :: rest =>
    if isHighSurrogate n || isLowSurrogate n then none
    else do
      return Utf8.encode n ++ (← join? rest)

/-- A string after its opening quote. -/
def readText? (t : Text) : Option (Text × Text) := do
  let (pieces, rest) ← pieces? t
  let value ← join? pieces
  if Utf8.isWellFormed value then some (value, rest) else none

/-! ## Numbers -/

/-- The digits of a whole part: a zero alone, or digits that start with
another one. -/
def wholePart? (t : Text) : Option (Text × Text) :=
  match t with
  | [] => none
  | b :: rest =>
    if b = 0x30 then some ([b], rest)
    else
      let (ds, rest) := Numeral.digits t
      if ds.isEmpty then none else some (ds, rest)

/-- The whole number of a sign and digits, or the nearest binary number if it
does not fit. -/
def ofDigits (negative : Bool) (ds : Text) : Json :=
  let n := Text.digitsValue ds
  if negative then
    if Int64.minValue.toInt ≤ -(n : Int) then .signed (Int64.ofInt (-(n : Int)))
    else .double (Decimal.toBinary64 ⟨true, n, 0⟩)
  else if n < UInt64.size then .unsigned (UInt64.ofNat n)
  else .double (Decimal.toBinary64 ⟨false, n, 0⟩)

/-- The value, unless it is a binary number without end. -/
def finite? : Json → Option Json
  | .double x => if x.isFinite then some (.double x) else none
  | v => some v

/-- A number, from its sign on. -/
def readNumber? (t : Text) : Option (Json × Text) := do
  let (negative, rest) := match t with
    | [] => (false, [])
    | b :: rest => if b = Numeral.minus then (true, rest) else (false, t)
  let (whole, rest) ← wholePart? rest
  let (fraction, rest) ← match Numeral.fraction? rest with
    | none => some (none, rest)
    | some (ds, rest) => if ds.isEmpty then none else some (some ds, rest)
  let (power, rest) ← match rest with
    | [] => some (none, rest)
    | b :: _ =>
      if Numeral.isExponentMark b then
        (Numeral.power? rest).map fun (p, rest) => (some p, rest)
      else some (none, rest)
  let value ← finite? (
    if fraction.isNone && power.isNone then ofDigits negative whole
    else .double
      (Numeral.toDecimal negative whole (fraction.getD [])
        (power.getD 0)).toBinary64)
  return (value, rest)

/-! ## Values -/

/-- A word that stands for a value, or a number. -/
def readScalar? (t : Text) : Option (Json × Text) :=
  match after? (text "null") t, after? (text "true") t,
    after? (text "false") t with
  | some rest, _, _ => some (.null, rest)
  | _, some rest, _ => some (.bool true, rest)
  | _, _, some rest => some (.bool false, rest)
  | none, none, none => readNumber? t

mutual

/-- A value within so many steps, after spaces. -/
def readValue? : Nat → Text → Option (Json × Text)
  | 0, _ => none
  | steps + 1, t =>
    match skipSpace t with
    | [] => none
    | b :: rest =>
      if b = 0x22 then do
        let (value, rest) ← readText? rest
        return (.string value, rest)
      else if b = 0x5b then
        match expect? 0x5d rest with
        | some rest => some (.array [], rest)
        | none => do
          let (items, rest) ← readItems? steps rest
          return (.array items, rest)
      else if b = 0x7b then
        match expect? 0x7d rest with
        | some rest => some (.object [], rest)
        | none => do
          let (entries, rest) ← readEntries? steps rest
          return (ofEntries entries, rest)
      else readScalar? (b :: rest)

/-- The items of an array up to its closing bracket. -/
def readItems? : Nat → Text → Option (List Json × Text)
  | 0, _ => none
  | steps + 1, t => do
    let (item, rest) ← readValue? steps t
    match expect? Text.comma rest with
    | some rest => do
      let (more, rest) ← readItems? steps rest
      return (item :: more, rest)
    | none => do
      let rest ← expect? 0x5d rest
      return ([item], rest)

/-- The entries of an object up to its closing brace. -/
def readEntries? : Nat → Text → Option (List (Text × Json) × Text)
  | 0, _ => none
  | steps + 1, t => do
    let rest ← expect? 0x22 t
    let (key, rest) ← readText? rest
    let rest ← expect? 0x3a rest
    let (value, rest) ← readValue? steps rest
    match expect? Text.comma rest with
    | some rest => do
      let (more, rest) ← readEntries? steps rest
      return ((key, value) :: more, rest)
    | none => do
      let rest ← expect? 0x7d rest
      return ([(key, value)], rest)

end

/-- The text without a leading byte order mark. -/
def dropMark (t : Text) : Text :=
  (after? [0xef, 0xbb, 0xbf] t).getD t

/-- The first value of a text. -/
def read? (t : Text) : Option Json :=
  (readValue? (t.length + 1) (dropMark t)).map (·.1)

end Json
end FleetControl

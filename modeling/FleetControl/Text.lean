/-!
# Texts

Names, addresses, messages and file contents are finite sequences of bytes;
nothing here assumes that they decode to characters.  A text is compared byte by
byte, so the order of texts is the order in which robots and containers are torn
down and in which the keys of an object are written.
-/

namespace FleetControl

/-- A sequence of bytes. -/
abbrev Text := List UInt8

/-- The UTF-8 bytes of a string written in the program. -/
def text (s : String) : Text :=
  s.toUTF8.data.toList

namespace Text

/-- The byte `/`. -/
def slash : UInt8 := 0x2f

/-- The byte `,`. -/
def comma : UInt8 := 0x2c

/-- The byte that ends a line. -/
def newline : UInt8 := 0x0a

/-- The byte is one of `0` to `9`. -/
def isDigit (b : UInt8) : Bool :=
  0x30 ≤ b && b ≤ 0x39

/-- The byte is an ASCII letter from `a` to `z`. -/
def isLower (b : UInt8) : Bool :=
  0x61 ≤ b && b ≤ 0x7a

/-- The byte is an ASCII letter from `A` to `Z`. -/
def isUpper (b : UInt8) : Bool :=
  0x41 ≤ b && b ≤ 0x5a

/-- The byte is an ASCII letter. -/
def isLetter (b : UInt8) : Bool :=
  isLower b || isUpper b

/-- The ASCII capital of a byte; bytes that are no small letters stay. -/
def upper (b : UInt8) : UInt8 :=
  if isLower b then b - 0x20 else b

/-- The ASCII small letter of a byte; bytes that are no capitals stay. -/
def lower (b : UInt8) : UInt8 :=
  if isUpper b then b + 0x20 else b

/-- The value of a decimal digit. -/
def digitValue (b : UInt8) : Nat :=
  b.toNat - 0x30

/-- The number that a run of decimal digits denotes, most significant
digit first. -/
def digitsValue (t : Text) : Nat :=
  t.foldl (fun n b => 10 * n + digitValue b) 0

/-- The byte of the decimal digit `n % 10`. -/
def digit (n : Nat) : UInt8 :=
  UInt8.ofNat (0x30 + n % 10)

/-- The decimal digits of a natural number, without leading zeros. -/
def ofNat (n : Nat) : Text :=
  if n < 10 then [digit n] else ofNat (n / 10) ++ [digit n]
termination_by n

/-- The decimal digits of an integer, after a minus sign if it is negative. -/
def ofInt : Int → Text
  | .ofNat n => ofNat n
  | .negSucc n => text "-" ++ ofNat (n + 1)

/-- The byte of a hexadecimal digit below sixteen, in small letters. -/
def hexDigit (n : Nat) : UInt8 :=
  if n < 10 then UInt8.ofNat (0x30 + n) else UInt8.ofNat (0x57 + n)

/-- The two hexadecimal digits of a byte, leading zero kept. -/
def hexByte (b : UInt8) : Text :=
  [hexDigit (b.toNat / 16), hexDigit (b.toNat % 16)]

/-- Each byte as two hexadecimal digits. -/
def hex (t : Text) : Text :=
  t.flatMap hexByte

/-- The value of a hexadecimal digit of either case. -/
def hexValue? (b : UInt8) : Option Nat :=
  if isDigit b then some (b.toNat - 0x30)
  else if 0x61 ≤ b && b ≤ 0x66 then some (b.toNat - 0x57)
  else if 0x41 ≤ b && b ≤ 0x46 then some (b.toNat - 0x37)
  else none

/-- The pieces of a text between the occurrences of a byte: always one more than
the byte has occurrences, so the empty text has one empty piece. -/
def pieces (separator : UInt8) : Text → List Text
  | [] => [[]]
  | b :: rest =>
    if b = separator then [] :: pieces separator rest
    else match pieces separator rest with
      | [] => [[b]]
      | first :: others => (b :: first) :: others

/-- The part of a text before its first zero byte.  A text that is handed on
with a zero byte for its end, instead of its length, comes down to this part. -/
def cut (t : Text) : Text :=
  t.takeWhile (· ≠ 0)

/-- The text between double quotes, as messages name things. -/
def quoted (t : Text) : Text :=
  text "\"" ++ t ++ text "\""

/-- Cutting always leaves at least one piece. -/
theorem pieces_ne_nil (separator : UInt8) (t : Text) :
    pieces separator t ≠ [] := by
  cases t with
  | nil => simp [pieces]
  | cons b rest =>
    simp only [pieces]
    split
    · simp
    · split <;> simp

/-- The number of pieces is one more than the number of separators. -/
theorem length_pieces (separator : UInt8) (t : Text) :
    (pieces separator t).length = t.count separator + 1 := by
  induction t with
  | nil => rfl
  | cons b rest ih =>
    simp only [pieces]
    split
    · next h => simp [h, ih]
    · next h =>
      have hcount : (b :: rest).count separator = rest.count separator := by
        simp [h]
      split
      · next hnil => exact absurd hnil (pieces_ne_nil separator rest)
      · next first others heq =>
        rw [heq] at ih
        simpa [hcount] using ih

end Text

end FleetControl

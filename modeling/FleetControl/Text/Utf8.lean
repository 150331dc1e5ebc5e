import FleetControl.Text

/-!
# Well-formed UTF-8

`Utf8.encode` writes one Unicode scalar value, and `Utf8.isWellFormed` reads a
text lead byte by lead byte.  Overlong forms, surrogates and values above
`10FFFF` are refused, because the range of the second byte depends on the first.
-/

namespace FleetControl
namespace Utf8

/-- The byte continues a sequence: it lies in `80..BF`. -/
def isContinuation (b : UInt8) : Bool :=
  0x80 ≤ b && b ≤ 0xbf

/-- The two bytes are a sequence for a value in `80..7FF`. -/
def isPair (a b : UInt8) : Bool :=
  0xc2 ≤ a && a ≤ 0xdf && isContinuation b

/-- The three bytes are a sequence for a value in `800..FFFF` that is
no surrogate. -/
def isTriple (a b c : UInt8) : Bool :=
  0xe0 ≤ a && a ≤ 0xef
    && (if a = 0xe0 then 0xa0 else 0x80) ≤ b
    && b ≤ (if a = 0xed then 0x9f else 0xbf) && isContinuation c

/-- The four bytes are a sequence for a value in `10000..10FFFF`. -/
def isQuadruple (a b c d : UInt8) : Bool :=
  0xf0 ≤ a && a ≤ 0xf4
    && (if a = 0xf0 then 0x90 else 0x80) ≤ b
    && b ≤ (if a = 0xf4 then 0x8f else 0xbf)
    && isContinuation c && isContinuation d

/-- The text is a concatenation of complete sequences. -/
def isWellFormed : Text → Bool
  | [] => true
  | a :: rest =>
    if a < 0x80 then isWellFormed rest
    else match rest with
      | [] => false
      | b :: rest =>
        if isPair a b then isWellFormed rest
        else match rest with
          | [] => false
          | c :: rest =>
            if isTriple a b c then isWellFormed rest
            else match rest with
              | [] => false
              | d :: rest => isQuadruple a b c d && isWellFormed rest

/-- The number is a Unicode scalar value: at most `10FFFF` and no surrogate. -/
def IsScalar (n : Nat) : Prop :=
  n < 0xd800 ∨ (0xe000 ≤ n ∧ n < 0x110000)

instance (n : Nat) : Decidable (IsScalar n) :=
  inferInstanceAs (Decidable (_ ∨ _))

/-- The sequence of a scalar value, in its shortest form. -/
def encode (n : Nat) : Text :=
  if n < 0x80 then
    [UInt8.ofNat n]
  else if n < 0x800 then
    [UInt8.ofNat (0xc0 + n / 64), UInt8.ofNat (0x80 + n % 64)]
  else if n < 0x10000 then
    [UInt8.ofNat (0xe0 + n / 4096), UInt8.ofNat (0x80 + n / 64 % 64),
      UInt8.ofNat (0x80 + n % 64)]
  else
    [UInt8.ofNat (0xf0 + n / 262144), UInt8.ofNat (0x80 + n / 4096 % 64),
      UInt8.ofNat (0x80 + n / 64 % 64), UInt8.ofNat (0x80 + n % 64)]

end Utf8
end FleetControl

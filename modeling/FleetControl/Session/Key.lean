import FleetControl.Act

/-!
# Robot keys

Keys are made from a source of random bytes, which may fail for reasons of its
own.  A successful call takes the next bytes of the stream, a failing one takes
none, so that no two keys share a byte.
-/

namespace FleetControl

/-- A source of random bytes: the stream, which of the calls fail, how far both
have come, and the reason that a failing call gives. -/
structure Entropy where
  stream : Nat → UInt8
  fails : Nat → Bool
  taken : Nat
  calls : Nat
  reason : Text := text "rand failure"

namespace Entropy

/-- The next `n` bytes of the stream. -/
def block (source : Entropy) (n : Nat) : Text :=
  (List.range n).map fun k => source.stream (source.taken + k)

/-- Takes `n` bytes, unless this call is one that fails. -/
def draw (n : Nat) : Act Entropy Text := do
  let source ← get
  if source.fails source.calls then
    set { source with calls := source.calls + 1 }
    throw (.noRandomness source.reason)
  set { source with calls := source.calls + 1, taken := source.taken + n }
  return source.block n

/-- A key of `n` random bytes in hexadecimal digits; its length has to be a
positive number of 31 bits. -/
def newKey (n : Nat) : Act Entropy Text := do
  if n = 0 || Int32.maxValue.toInt < n then throw (.keyLength n)
  return Text.hex (← draw n)

end Entropy
end FleetControl

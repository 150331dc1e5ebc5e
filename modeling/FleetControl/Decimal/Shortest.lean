import FleetControl.Decimal

/-!
# The shortest decimal of a binary number

`Decimal.shortest` gives a finite binary number with the fewest decimal digits
that are read back as that same number, and of two such decimals the nearer one.

On the grid of `n` digits only the two neighbours of the number can be wanted.
The search tries the grids from one digit up and keeps a neighbour that reads
back; if no grid up to seventeen digits has one, the exact decimal is given,
which always reads back.
-/

namespace FleetControl
namespace Decimal

attribute [local instance (2000)] instPowNat

/-- The place of the decimal point of a positive quotient: the `p` with
`10 ^ (p - 1) ≤ n / d < 10 ^ p`. -/
def pointOf (n d : Nat) : Int :=
  if d ≤ n then digitCount (n / d) else 1 - (digitCount ((d - 1) / n) : Int)

/-- The decimal of a whole multiple of a power of ten. -/
def ofGrid (negative : Bool) (count : Nat) (unit : Int) : Decimal :=
  ⟨negative, count, unit⟩

/-- The exact decimal of a finite binary number. -/
def exact (x : Binary64) : Decimal :=
  if 0 ≤ x.scale then ⟨x.negative, x.numerator, 0⟩
  else ⟨x.negative, x.mantissa * 5 ^ (-x.scale).toNat, x.scale⟩

/-- The nearer of the two neighbours of `n / d` among the multiples of
`10 ^ unit` that is read back as `x`; of two equally near ones the even
multiple. -/
def neighbour? (x : Binary64) (n d : Nat) (unit : Int) : Option Decimal :=
  let n := n * 10 ^ (-unit).toNat
  let d := d * 10 ^ unit.toNat
  let below := ofGrid x.negative (n / d) unit
  let above := ofGrid x.negative (n / d + 1) unit
  let belowIsNearer := 2 * (n % d) < d || (2 * (n % d) == d && n / d % 2 == 0)
  let (first, second) :=
    if belowIsNearer then (below, above) else (above, below)
  if first.toBinary64 = x then some first
  else if second.toBinary64 = x then some second
  else none

/-- The search on the grids of `digits` digits and of up to `further`
digits more. -/
def search? (x : Binary64) (n d : Nat) (digits : Nat) : Nat → Option Decimal
  | 0 => none
  | further + 1 =>
    match neighbour? x n d (pointOf n d - digits) with
    | some found => some found
    | none => search? x n d (digits + 1) further

/-- The decimal with the fewest digits that is read back as the finite
number `x`. -/
def shortest (x : Binary64) : Decimal :=
  if x.mantissa = 0 then ⟨x.negative, 0, 0⟩
  else (search? x x.numerator x.denominator 1 17).getD (exact x)

end Decimal
end FleetControl

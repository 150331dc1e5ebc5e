import FleetControl.Text

/-!
# Graph names

Namespaces and parameters live under names of a computation graph.  A legal name
is empty, or starts with a letter, a slash or a tilde, goes on with letters,
digits, underscores and slashes, and never has two slashes in a row.
-/

namespace FleetControl
namespace GraphName

/-- The byte may start a name. -/
def isFirst (b : UInt8) : Bool :=
  Text.isLetter b || b == Text.slash || b == 0x7e

/-- The byte may stand after the first one. -/
def isInner (b : UInt8) : Bool :=
  Text.isLetter b || Text.isDigit b || b == 0x5f || b == Text.slash

/-- Two slashes stand next to each other. -/
def hasDoubleSlash : Text → Bool
  | a :: b :: rest =>
    (a == Text.slash && b == Text.slash) || hasDoubleSlash (b :: rest)
  | _ => false

/-- The name may be used in a graph. -/
def isLegal : Text → Bool
  | [] => true
  | b :: rest => isFirst b && rest.all isInner && !hasDoubleSlash (b :: rest)

end GraphName
end FleetControl

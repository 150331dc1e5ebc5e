import FleetControl.Text

/-!
# Blanks at the ends of a text

Blanks are the six ASCII bytes that separate words: space, tab, line feed,
vertical tab, form feed and carriage return.  Numbers, truth values and type
descriptions are read from texts without the blanks at either end.
-/

namespace FleetControl
namespace Text

/-- The byte is one of the six blanks. -/
def isBlank (b : UInt8) : Bool :=
  b == 0x20 || (0x09 ≤ b && b ≤ 0x0d)

/-- The text without its leading blanks. -/
def dropBlanks (t : Text) : Text :=
  t.dropWhile isBlank

/-- The text without the blanks at its two ends. -/
def trim (t : Text) : Text :=
  (dropBlanks (dropBlanks t).reverse).reverse

end Text
end FleetControl

import FleetControl.Text.Blank

/-!
# Parameter types

A parameter type is written as a text: `file`, one token such as `int`, or a
bracketed list of tokens between commas.  `ParameterType.parse?` splits the text
and leaves the tokens unchecked; a token that names no base type is refused only
when a value has to be converted to it.

The type code of a list of tokens has one capital letter for each token that
is not empty.
-/

namespace FleetControl

/-- A type of single values. -/
inductive BaseType where
  | int
  | str
  | float
  | bool
deriving DecidableEq

/-- The base type that a token names. -/
def BaseType.ofToken? (token : Text) : Option BaseType :=
  if token = text "int" then some .int
  else if token = text "str" then some .str
  else if token = text "float" then some .float
  else if token = text "bool" then some .bool
  else none

/-- What a type text asks for: the content of a file, one value, or a list
of values. -/
inductive ParameterType where
  | file
  | scalar (token : Text)
  | array (tokens : List Text)
deriving DecidableEq

namespace ParameterType

/-- The text between an opening and a closing bracket. -/
def bracketed? (t : Text) : Option Text :=
  match t with
  | [] => none
  | b :: rest =>
    if b = 0x5b && rest.getLast? = some 0x5d then some rest.dropLast else none

/-- The type that a text describes; only a blank text describes none. -/
def parse? (t : Text) : Option ParameterType :=
  let t := t.trim
  if t.isEmpty then none
  else if t = text "file" then some .file
  else match bracketed? t with
    | some inner => some (.array ((Text.pieces Text.comma inner).map Text.trim))
    | none => some (.scalar t)

/-- The tokens of a type, of which a file has none. -/
def tokens : ParameterType → List Text
  | .file => []
  | .scalar token => [token]
  | .array tokens => tokens

/-- The capital first letters of the tokens. -/
def code (tokens : List Text) : Text :=
  tokens.filterMap fun token => token.head?.map Text.upper

end ParameterType
end FleetControl

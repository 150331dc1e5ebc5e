import FleetControl.Command
import FleetControl.Parameter.Coercion

/-!
# Parameters of a declared type

`Parameter.typed` converts a value to its declared type.  A single value becomes
a list of one, so that the values and the letters of the type code always stand
side by side.
-/

namespace FleetControl
namespace Parameter

/-- The parameter that a value makes under a type text. -/
def typed (name : Text) (value : Json) (typeText : Text) :
    Except Misfit Parameter :=
  match ParameterType.parse? typeText with
  | none => .error .unknownType
  | some .file => (Coercion.toText value).map (.file name)
  | some (.scalar token) => do
    let values ← Coercion.coerceAll [token] [value]
    return .value name (.array values) (ParameterType.code [token])
  | some (.array tokens) =>
    match value with
    | .array items => do
      let values ← Coercion.coerceAll tokens items
      return .array name (.array values) (ParameterType.code tokens)
    | _ => .error .notList

end Parameter
end FleetControl

import FleetControl.Dict
import FleetControl.Binary64

/-!
# JSON values

The values that requests, configurations and journals carry.  Whole numbers come
in two kinds of 64 bits each, unsigned and signed, and are distinct from binary
floating point numbers.  The entries of an object are a dictionary:
`Json.object` keeps one value for each key, in the order of the keys.
-/

namespace FleetControl

/-- A JSON value. -/
inductive Json where
  | null
  | bool (value : Bool)
  | unsigned (value : UInt64)
  | signed (value : Int64)
  | double (value : Binary64)
  | string (value : Text)
  | array (items : List Json)
  | object (entries : List (Text × Json))

namespace Json

instance : Inhabited Json := ⟨.null⟩

/-- The object with the given entries; of two entries under one key the
later stays. -/
def ofEntries (entries : List (Text × Json)) : Json :=
  .object (Dict.ofList entries)

/-- A text that is written in the program, as a value. -/
def str (s : String) : Json :=
  .string (text s)

/-- A count, as an unsigned number. -/
def ofNat (n : Nat) : Json :=
  .unsigned (UInt64.ofNat n)

/-- The whole number that a value holds, of either kind. -/
def integer? : Json → Option Int
  | .unsigned n => some n.toNat
  | .signed n => some n.toInt
  | _ => none

/-- The text that a value holds. -/
def text? : Json → Option Text
  | .string t => some t
  | _ => none

end Json
end FleetControl

import FleetControl.Json.Reader
import FleetControl.Proofs.Json.Printing

/-!
# Values that have been read can be printed

Only well-formed strings are read, and all strings and keys of a value that is
read come from the reader of strings.  `Json.Reads` is the property of readers
that goes through their sequences; the readers of values, items and entries have
it together, by induction on their steps.
-/

namespace FleetControl
namespace Json

variable {α β : Type} {P : α → Prop}

/-- What is read, if anything, has the property. -/
def Reads (P : α → Prop) (reading : Option (α × Text)) : Prop :=
  ∀ a rest, reading = some (a, rest) → P a

theorem Reads.bind {first : Option β} {next : β → Option (α × Text)}
    (h : ∀ b, first = some b → Reads P (next b)) :
    Reads P (first >>= next) := by
  intro a rest heq
  obtain ⟨b, hb, hnext⟩ := Option.bind_eq_some_iff.mp heq
  exact h b hb a rest hnext

/-! ## Strings and numbers -/

end Json
end FleetControl

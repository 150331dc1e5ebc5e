import FleetControl.GraphName
import FleetControl.Proofs.Text.Digits
import FleetControl.Proofs.Text.Utf8

/-!
# The bytes of graph names

Legal names are plain ASCII, so they can be printed.
-/

namespace FleetControl

namespace Text

variable {b : UInt8}

theorem lt_of_isLetter (h : isLetter b = true) : b < 0x80 := by
  simp only [isLetter, isLower, isUpper, Bool.or_eq_true, Bool.and_eq_true,
    decide_eq_true_eq, UInt8.le_iff_toNat_le, UInt8.reduceToNat] at h
  simp only [UInt8.lt_iff_toNat_lt, UInt8.reduceToNat]
  omega

theorem lt_of_isDigit (h : isDigit b = true) : b < 0x80 := by
  have hhigh := ((isDigit_iff b).mp h).2
  simp only [UInt8.lt_iff_toNat_lt, UInt8.reduceToNat]
  omega

end Text

namespace GraphName

theorem lt_of_isFirst {b : UInt8} (h : isFirst b = true) : b < 0x80 := by
  simp only [isFirst, Bool.or_eq_true, beq_iff_eq] at h
  rcases h with (hletter | rfl) | rfl
  · exact Text.lt_of_isLetter hletter
  · decide
  · decide

theorem lt_of_isInner {b : UInt8} (h : isInner b = true) : b < 0x80 := by
  simp only [isInner, Bool.or_eq_true, beq_iff_eq] at h
  rcases h with ((hletter | hdigit) | rfl) | rfl
  · exact Text.lt_of_isLetter hletter
  · exact Text.lt_of_isDigit hdigit
  · decide
  · decide

/-- A legal name consists of ASCII. -/
theorem lt_of_mem_of_isLegal {name : Text} (h : isLegal name = true) :
    ∀ b ∈ name, b < 0x80 := by
  cases name with
  | nil => nofun
  | cons first rest =>
    simp only [isLegal, Bool.and_eq_true, List.all_eq_true] at h
    exact List.forall_mem_cons.mpr
      ⟨lt_of_isFirst h.1.1, fun b hb => lt_of_isInner (h.1.2 b hb)⟩

theorem isWellFormed_of_isLegal {name : Text} (h : isLegal name = true) :
    Utf8.isWellFormed name = true :=
  Utf8.isWellFormed_of_ascii (lt_of_mem_of_isLegal h)

end GraphName
end FleetControl

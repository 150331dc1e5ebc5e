import FleetControl.Parameter.Coercion
import FleetControl.Proofs.Text.Blank
import FleetControl.Proofs.Text.Utf8

/-!
# Blanks around a value

A text is in one way only a text without blanks at its ends, with blanks before
and after it, and trimming finds the text in the middle.  Numbers, truth values
and types are read from there, so that it does not matter which blanks stand
around them.  A text that is taken for itself keeps its blanks; since they are
complete sequences, they play no part in whether it is well formed.
-/

namespace FleetControl

/-- Blanks are complete sequences of one byte. -/
theorem Text.IsPaddingOf.isWellFormed_eq {s t : Text} (h : s.IsPaddingOf t) :
    Utf8.isWellFormed s = Utf8.isWellFormed t := by
  obtain ⟨before, after, hbefore, hafter, rfl⟩ := h
  have hascii : Utf8.isWellFormed before = true :=
    Utf8.isWellFormed_of_ascii fun b hb => lt_of_isBlank (hbefore b hb)
  rw [List.append_assoc, Utf8.isWellFormed_append hascii,
    Utf8.isWellFormed_append_ascii fun b hb => lt_of_isBlank (hafter b hb)]

namespace Coercion

open Text

variable {s t : Text}

/-- Two texts are read as the same number, truth value and type, or refused for
the same reason. -/
structure ReadsAlike (s t : Text) : Prop where
  toInt_eq : toInt (.string s) = toInt (.string t)
  toFloat_eq : toFloat (.string s) = toFloat (.string t)
  toBool_eq : toBool (.string s) = toBool (.string t)
  parse?_eq : ParameterType.parse? s = ParameterType.parse? t

theorem readsAlike_of_trim_eq (h : s.trim = t.trim) : ReadsAlike s t where
  toInt_eq := by simp only [toInt, h]
  toFloat_eq := by simp only [toFloat, h]
  toBool_eq := by simp only [toBool, h]
  parse?_eq := by simp only [ParameterType.parse?, h]

/-- Trimming splits a text into what stands between its outer blanks and these
blanks, six bytes in all that there are.  No other text can be split off in this
way, and where one that is not empty has been split off, the blanks on either
side are the only ones.  Searches from the front and from the back find the same
text, without a look outside of the one that they search.  So more blanks around
a text change nothing in its trimming, nor in the numbers, truth values and
types that are read from it; as a text it keeps them. -/
theorem trim_splits (t : Text) :
    (∀ b, isBlank b = true ↔
      b ∈ ([0x09, 0x0a, 0x0b, 0x0c, 0x0d, 0x20] : List UInt8)) ∧
    (∃ before after, IsSplit t before t.trim after) ∧
    (∀ {before core after before' core' after'}, IsSplit t before core after →
      IsSplit t before' core' after' →
        core = core' ∧ (core ≠ [] → before = before' ∧ after = after')) ∧
    trimByPlaces? t = some t.trim ∧
    t.trim.trim = t.trim ∧
    ∀ s, s.IsPaddingOf t → s.trim = t.trim ∧ ReadsAlike s t ∧
      toText (.string s) = if Utf8.isWellFormed t then .ok s
        else .error .notText := by
  refine ⟨fun b => isBlank_iff, exists_isSplit_trim t, ?_, trimByPlaces?_eq t,
    ?_, ?_⟩
  · intro before core after before' core' after' h h'
    refine ⟨h.core_eq.trans h'.core_eq.symm, fun hne => ?_⟩
    obtain ⟨hbefore, -, hafter⟩ := h.unique h' hne
    exact ⟨hbefore, hafter⟩
  · exact (isPaddingOf_trim t).trim_eq.symm
  · intro s hs
    refine ⟨hs.trim_eq, readsAlike_of_trim_eq hs.trim_eq, ?_⟩
    rw [toText, hs.isWellFormed_eq]

/-- A number between blanks, with more blanks around them. -/
theorem trim_splits_number :
    let t := text "\t12 "
    let s := text " \n\t12 \r"
    IsSplit t (text "\t") (text "12") (text " ") ∧
      (∀ before after, IsSplit t before t.trim after →
        text "\t" = before ∧ text " " = after) ∧
      s.IsPaddingOf t ∧ s.trim = t.trim ∧
      toInt (.string s) = .ok 12 ∧ toText (.string s) = .ok s := by
  intro t s
  have hsplit : IsSplit t (text "\t") (text "12") (text " ") :=
    ⟨by decide, List.all_eq_true.mp (by decide),
      List.all_eq_true.mp (by decide),
      isBare_of_forall (isBlank_eq_false_of_all (by decide))⟩
  have hpadding : s.IsPaddingOf t :=
    ⟨text " \n", text "\r", List.all_eq_true.mp (by decide),
      List.all_eq_true.mp (by decide), by decide⟩
  obtain ⟨-, -, hunique, -, -, hsame⟩ := trim_splits t
  obtain ⟨htrim, hread, htext⟩ := hsame s hpadding
  have hnumber : toInt (.string t) = .ok 12 := by
    have hcore : t.trim = text "12" := by decide
    rw [toInt, hcore]
    rfl
  exact ⟨hsplit, fun before after h => (hunique hsplit h).2 (by decide),
    hpadding, htrim, hread.toInt_eq.trans hnumber, htext⟩

end Coercion
end FleetControl

import FleetControl.Proofs.Parameter.Language
import FleetControl.Proofs.Text.Blank

/-!
# Fields between brackets

Reading a type text neither loses a field nor makes one up.  A reader that goes
from comma to comma does not see an empty field at the end, so an empty token is
added when the last byte before the closing bracket is a comma, and when there
has been no field at all.  `ParameterType.readTokens` is this reader, with its
look at the one byte, and it finds all fields of the one cut at commas.
-/

namespace FleetControl
namespace ParameterType

/-- The text begins with an opening bracket and ends with another byte, which is
a closing bracket. -/
def IsBracketed (t : Text) : Prop :=
  2 ≤ t.length ∧ t.head? = some 0x5b ∧ t.getLast? = some 0x5d

/-- The tokens of a bracketed text, field after field, and the empty token at
the end that this would miss. -/
def readTokens (t : Text) : List Text :=
  let tokens :=
    (Text.readFields Text.comma ((t.drop 1).take (t.length - 2))).map Text.trim
  if tokens.isEmpty || t[t.length - 2]? == some Text.comma then tokens ++ [[]]
  else tokens

variable {t inner : Text}

/-! ## Brackets -/

theorem brackets_eq_cons (inner : Text) :
    text "[" ++ inner ++ text "]" = 0x5b :: (inner ++ [0x5d]) :=
  rfl

theorem isBracketed_iff :
    IsBracketed t ↔ ∃ inner, t = text "[" ++ inner ++ text "]" := by
  constructor
  · rintro ⟨hlength, hfirst, hlast⟩
    obtain ⟨rest, rfl⟩ := List.head?_eq_some_iff.mp hfirst
    cases rest with
    | nil => simp at hlength
    | cons b rest =>
      rw [List.getLast?_cons_cons] at hlast
      obtain ⟨inner, hinner⟩ := List.getLast?_eq_some_iff.mp hlast
      exact ⟨inner, by rw [hinner, brackets_eq_cons]⟩
  · rintro ⟨inner, rfl⟩
    rw [brackets_eq_cons]
    refine ⟨?_, rfl, ?_⟩
    · rw [List.length_cons, List.length_append, List.length_singleton]
      omega
    · rw [← List.cons_append, List.getLast?_concat]

/-- Brackets are no blanks, so nothing is trimmed around them. -/
theorem trim_brackets (inner : Text) :
    Text.trim (text "[" ++ inner ++ text "]") =
      text "[" ++ inner ++ text "]" := by
  obtain ⟨-, hfirst, hlast⟩ := isBracketed_iff.mpr ⟨inner, rfl⟩
  refine Text.trim_eq_iff.mpr
    ⟨⟨fun b hb => ?_, fun b hb => ?_⟩, Text.isPaddingOf_self _⟩
  · cases hfirst.symm.trans hb
    decide
  · cases hlast.symm.trans hb
    decide

/-- The byte before the closing bracket is a comma just if the text between the
brackets ends with one. -/
theorem getElem?_brackets_eq_comma (inner : Text) :
    (text "[" ++ inner ++ text "]")[inner.length]? = some Text.comma ↔
      inner.getLast? = some Text.comma := by
  rw [brackets_eq_cons]
  rcases List.eq_nil_or_concat inner with rfl | ⟨before, b, rfl⟩
  · decide
  · simp

theorem readTokens_brackets (inner : Text) :
    readTokens (text "[" ++ inner ++ text "]") =
      (Text.pieces Text.comma inner).map Text.trim := by
  have hlength : (text "[" ++ inner ++ text "]").length - 2 = inner.length := by
    rw [brackets_eq_cons, List.length_cons, List.length_append,
      List.length_singleton]
    omega
  have hinner :
      ((text "[" ++ inner ++ text "]").drop 1).take inner.length = inner := by
    rw [brackets_eq_cons, List.drop_one, List.tail_cons, List.take_left]
  have hnone : Text.readFields Text.comma inner = [] ↔ inner = [] := by
    constructor
    · intro h
      by_contra hne
      rw [Text.readFields_of_ne_nil hne] at h
      cases h
    · rintro rfl
      exact Text.readFields_nil _
  rw [readTokens, hlength, hinner, Text.pieces_eq_readFields]
  simp only [List.isEmpty_iff, List.map_eq_nil_iff, hnone, Bool.or_eq_true,
    beq_iff_eq, getElem?_brackets_eq_comma]
  split
  · rw [List.map_append]
    rfl
  · rfl

/-! ## The three notations -/

theorem parse?_eq_none_iff : parse? t = none ↔ t.trim = [] := by
  simp only [parse?, List.isEmpty_iff]
  split
  · next hempty => simp [hempty]
  · next hne =>
    split
    · simp [hne]
    · split <;> simp [hne]

theorem parse?_eq_file_iff : parse? t = some .file ↔ t.trim = text "file" := by
  constructor
  · intro h
    exact trim_of_parse? h
  · exact parse?_of_file

theorem exists_parse?_eq_array_iff :
    (∃ tokens, parse? t = some (.array tokens)) ↔ IsBracketed t.trim := by
  rw [isBracketed_iff]
  constructor
  · rintro ⟨tokens, h⟩
    obtain ⟨inner, htrim, -⟩ := trim_of_parse? h
    exact ⟨inner, htrim⟩
  · rintro ⟨inner, htrim⟩
    exact ⟨_, parse?_of_brackets htrim⟩

theorem parse?_eq_scalar_iff {token : Text} :
    parse? t = some (.scalar token) ↔
      token = t.trim ∧ t.trim ≠ [] ∧ t.trim ≠ text "file" ∧
      ¬ IsBracketed t.trim := by
  constructor
  · intro h
    refine ⟨trim_of_parse? h, ?_, ?_, ?_⟩
    · intro hempty
      cases h.symm.trans (parse?_eq_none_iff.mpr hempty)
    · intro hfile
      cases h.symm.trans (parse?_of_file hfile)
    · intro hbrackets
      obtain ⟨tokens, harray⟩ := exists_parse?_eq_array_iff.mpr hbrackets
      cases h.symm.trans harray
  · rintro ⟨rfl, hne, hfile, hbrackets⟩
    cases hparse : parse? t with
    | none => exact absurd (parse?_eq_none_iff.mp hparse) hne
    | some type =>
      cases type with
      | file => exact absurd (trim_of_parse? hparse) hfile
      | scalar token => exact congrArg _ (congrArg _ (trim_of_parse? hparse))
      | array tokens =>
        exact absurd (exists_parse?_eq_array_iff.mp ⟨tokens, hparse⟩) hbrackets

/-- The field is the token with blanks around it, and the token is one that can
be read back. -/
def IsFieldOf (field token : Text) : Prop :=
  Text.comma ∉ token ∧ token.IsBare ∧ field.IsPaddingOf token

theorem fields_of_forall₂ {fields tokens : List Text}
    (h : List.Forall₂ IsFieldOf fields tokens) :
    (∀ field ∈ fields, Text.comma ∉ field) ∧ fields.map Text.trim = tokens := by
  induction h with
  | nil => exact ⟨nofun, rfl⟩
  | cons hfirst _ ih =>
    obtain ⟨hfree, hbare, hpadding⟩ := hfirst
    obtain ⟨hrest, htokens⟩ := ih
    refine ⟨List.forall_mem_cons.mpr ⟨hpadding.notMem (by decide) hfree, hrest⟩,
      ?_⟩
    rw [List.map_cons, hbare.trim_padding hpadding, htokens]

/-- Tokens are read back from fields that are these tokens with blanks
around them. -/
theorem parse?_of_forall₂ {fields tokens : List Text} (hne : tokens ≠ [])
    (heach : List.Forall₂ IsFieldOf fields tokens) :
    parse? (text "[" ++ [Text.comma].intercalate fields ++ text "]") =
      some (.array tokens) := by
  obtain ⟨hfree, htokens⟩ := fields_of_forall₂ heach
  have hfields : fields ≠ [] := by
    rintro rfl
    exact hne htokens.symm
  rw [parse?_of_brackets (trim_brackets _),
    Text.pieces_eq_iff.mpr ⟨hfields, hfree, rfl⟩, htokens]

/-- The type text is trimmed, and only a blank one is refused.  It is a file
just if it is the word for files, a list just if it stands between brackets, and
one token otherwise.  The tokens of a list are the trimmed fields of the text
between the brackets: there is one cut into fields without commas that joins to
this text, and they are one more than the commas.  Reading from comma to comma,
with an empty field added at the end where it is needed, finds the same tokens.
Conversely, tokens without commas and outer blanks that are joined by commas,
with any blanks around each of them, are read back. -/
theorem parse?_splits :
    (∀ t : Text,
      (parse? t = none ↔ t.trim = []) ∧
      (parse? t = some .file ↔ t.trim = text "file") ∧
      ((∃ tokens, parse? t = some (.array tokens)) ↔ IsBracketed t.trim) ∧
      (∀ token, parse? t = some (.scalar token) ↔
        token = t.trim ∧ t.trim ≠ [] ∧ t.trim ≠ text "file" ∧
        ¬ IsBracketed t.trim) ∧
      ∀ tokens, parse? t = some (.array tokens) →
        tokens = readTokens t.trim ∧
        ∃ inner fields, t.trim = text "[" ++ inner ++ text "]" ∧
          (∀ cut : List Text, cut = fields ↔
            cut ≠ [] ∧ (∀ field ∈ cut, Text.comma ∉ field) ∧
            [Text.comma].intercalate cut = inner) ∧
          tokens = fields.map Text.trim ∧
          tokens.length = inner.count Text.comma + 1) ∧
    ∀ fields tokens : List Text,
      tokens ≠ [] → List.Forall₂ IsFieldOf fields tokens →
      parse? (text "[" ++ [Text.comma].intercalate fields ++ text "]") =
        some (.array tokens) := by
  refine ⟨fun t =>
    ⟨parse?_eq_none_iff, parse?_eq_file_iff, exists_parse?_eq_array_iff,
      fun _ => parse?_eq_scalar_iff, fun tokens h => ?_⟩,
      fun fields tokens hne heach => ?_⟩
  · obtain ⟨inner, htrim, htokens⟩ := trim_of_parse? h
    refine ⟨?_, inner, Text.pieces Text.comma inner, htrim, ?_, htokens, ?_⟩
    · rw [htrim, readTokens_brackets, htokens]
    · exact fun cut => eq_comm.trans Text.pieces_eq_iff
    · rw [htokens, List.length_map, Text.length_pieces]
  · exact parse?_of_forall₂ hne heach

/-- Blanks around two fields, with nothing between and after them. -/
theorem parse?_splits_blanks :
    parse? (text "[ int,,\tstr ,]") =
      some (.array [text "int", [], text "str", []]) := by
  obtain ⟨-, hread⟩ := parse?_splits
  have hint : IsFieldOf (text " int") (text "int") :=
    ⟨by decide, Text.trim_eq_iff.mp (by decide)⟩
  have hstr : IsFieldOf (text "\tstr ") (text "str") :=
    ⟨by decide, Text.trim_eq_iff.mp (by decide)⟩
  have hempty : IsFieldOf [] [] := ⟨nofun, Text.trim_eq_iff.mp rfl⟩
  exact hread [text " int", [], text "\tstr ", []] _ (by decide)
    (.cons hint (.cons hempty (.cons hstr (.cons hempty .nil))))

end ParameterType
end FleetControl

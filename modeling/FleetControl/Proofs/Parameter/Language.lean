import FleetControl.Proofs.Journal.Parameters
import FleetControl.Proofs.Text.Fields

/-!
# The language of parameter types

`Parameter.Describes` says which types there are and what each of them makes of
a value, in terms of the type text as a whole: `file`, one of four words, or
fields between brackets and commas that are these words with blanks around them.
Reading a type text, matching the lengths, converting the values and writing the
type code together come to this relation, `typed_eq_ok_iff`.
-/

namespace FleetControl

/-! ## Words for base types -/

namespace BaseType

/-- The word for a base type. -/
def token : BaseType → Text
  | .int => text "int"
  | .str => text "str"
  | .float => text "float"
  | .bool => text "bool"

/-- The base type that a letter of a type code stands for. -/
def ofLetter? (letter : UInt8) : Option BaseType :=
  [int, str, float, bool].find? fun type => type.letter = letter

theorem ofLetter?_letter (type : BaseType) :
    ofLetter? type.letter = some type := by
  cases type <;> decide

theorem ofToken?_eq_some_iff {t : Text} {type : BaseType} :
    ofToken? t = some type ↔ t = type.token := by
  constructor
  · intro h
    unfold ofToken? at h
    repeat' split at h
    all_goals cases h
    all_goals assumption
  · rintro rfl
    cases type <;> decide

theorem code_token (types : List BaseType) :
    ParameterType.code (types.map token) = types.map letter := by
  have hletter : (fun token : Text => token.head?.map Text.upper) ∘ token =
      some ∘ letter := by
    funext type
    cases type <;> decide
  rw [ParameterType.code, List.filterMap_map, hletter, List.filterMap_eq_map]

end BaseType

namespace Json

/-- The base type that a value is one of. -/
def baseType? : Json → Option BaseType
  | .signed _ => some .int
  | .string _ => some .str
  | .double _ => some .float
  | .bool _ => some .bool
  | _ => none

end Json

/-! ## Values of declared types -/

namespace Coercion

/-- Each of the values, converted to the base type at its place. -/
inductive CoerceEach : List BaseType → List Json → List Json → Prop where
  | nil : CoerceEach [] [] []
  | cons {type : BaseType} {v w : Json} {types : List BaseType}
      {values results : List Json}
      (hfirst : coerce type v = .ok w)
      (hrest : CoerceEach types values results) :
      CoerceEach (type :: types) (v :: values) (w :: results)

theorem baseType?_of_coerce {type : BaseType} {v w : Json}
    (h : coerce type v = .ok w) :
    w.baseType? = some type := by
  cases type <;>
    · obtain ⟨_, -, rfl⟩ := exists_of_map_eq_ok h
      rfl

theorem coerceToken_eq_ok_iff {token : Text} {v w : Json} :
    coerceToken token v = .ok w ↔
      ∃ type : BaseType, token = type.token ∧ coerce type v = .ok w := by
  unfold coerceToken
  constructor
  · intro h
    split at h
    · next type htype => exact ⟨type, BaseType.ofToken?_eq_some_iff.mp htype, h⟩
    · cases h
  · rintro ⟨type, htoken, h⟩
    rw [BaseType.ofToken?_eq_some_iff.mpr htoken]
    exact h

/-- Lists are converted when every token is a word for a base type and every
value can be converted to its own. -/
theorem coerceAll_eq_ok_iff {tokens : List Text} {values results : List Json} :
    coerceAll tokens values = .ok results ↔
      ∃ types : List BaseType, tokens = types.map BaseType.token ∧
        CoerceEach types values results := by
  constructor
  · intro h
    obtain ⟨hlength, hpairs⟩ := Parameter.coerceAll_eq_ok h
    clear h
    induction tokens generalizing values results with
    | nil =>
      cases List.length_eq_zero_iff.mp hlength
      cases hpairs
      exact ⟨[], rfl, .nil⟩
    | cons token tokens ih =>
      obtain ⟨v, values, rfl⟩ := List.exists_cons_of_length_eq_add_one hlength
      cases hpairs with
      | cons hfirst hrest =>
        obtain ⟨type, htoken, hv⟩ := coerceToken_eq_ok_iff.mp hfirst
        obtain ⟨types, htokens, heach⟩ := ih (Nat.succ.inj hlength) hrest
        refine ⟨type :: types, ?_, .cons hv heach⟩
        rw [List.map_cons, ← htokens, ← htoken]
  · rintro ⟨types, rfl, h⟩
    induction h with
    | nil => rfl
    | @cons type v w types values results hfirst _ ih =>
      have htoken := coerceToken_eq_ok_iff.mpr ⟨type, rfl, hfirst⟩
      unfold coerceAll at ih ⊢
      split at ih
      · next hlength =>
        rw [if_pos (by simpa using hlength), List.map_cons, List.zip_cons_cons,
          List.mapM_cons]
        simp only [htoken, ih]
        rfl
      · cases ih

end Coercion

/-! ## Type texts -/

namespace ParameterType

theorem bracketed?_eq_some_iff {t inner : Text} :
    bracketed? t = some inner ↔ t = text "[" ++ inner ++ text "]" := by
  have hopen : text "[" = [0x5b] := by decide
  have hclose : text "]" = [0x5d] := by decide
  rw [hopen, hclose]
  cases t with
  | nil => simp [bracketed?]
  | cons b rest =>
    rw [bracketed?]
    constructor
    · intro h
      split at h
      · next hends =>
        cases h
        obtain ⟨hfirst, hlast⟩ : b = 0x5b ∧ rest.getLast? = some 0x5d := by
          simpa using hends
        obtain ⟨inner, rfl⟩ := List.getLast?_eq_some_iff.mp hlast
        simp [hfirst]
      · cases h
    · intro h
      obtain ⟨rfl, rfl⟩ := List.cons.inj h
      simp

variable {t inner : Text}

theorem parse?_of_brackets (h : t.trim = text "[" ++ inner ++ text "]") :
    parse? t = some
      (.array ((Text.pieces Text.comma inner).map Text.trim)) := by
  have hfirst : (text "[" ++ inner ++ text "]").head? = some 0x5b := rfl
  have hne : t.trim.isEmpty = false := by
    rw [h]
    rfl
  have hfile : t.trim ≠ text "file" := by
    intro heq
    rw [← h, heq] at hfirst
    revert hfirst
    decide
  simp only [parse?, hne, hfile, bracketed?_eq_some_iff.mpr h, if_false,
    Bool.false_eq_true]

theorem parse?_of_token {type : BaseType} (h : t.trim = type.token) :
    parse? t = some (.scalar type.token) := by
  unfold parse?
  rw [h]
  cases type <;> decide

theorem parse?_of_file (h : t.trim = text "file") : parse? t = some .file := by
  unfold parse?
  rw [h]
  decide

/-- What has been read from a type text stands in it. -/
theorem trim_of_parse? {type : ParameterType} (h : parse? t = some type) :
    match type with
    | .file => t.trim = text "file"
    | .scalar token => token = t.trim
    | .array tokens => ∃ inner, t.trim = text "[" ++ inner ++ text "]" ∧
        tokens = (Text.pieces Text.comma inner).map Text.trim := by
  simp only [parse?] at h
  split at h
  · cases h
  · split at h
    · next hfile =>
      cases h
      exact hfile
    · split at h
      · next inner hinner =>
        cases h
        exact ⟨inner, bracketed?_eq_some_iff.mp hinner, rfl⟩
      · cases h
        rfl

end ParameterType

namespace Parameter

/-- What a type text makes of a value under a name, for each of the three
notations of types.  The type text stands without blanks around it. -/
inductive Describes (name : Text) : Text → Json → Parameter → Prop where
  | file {content : Text} (h : Utf8.isWellFormed content = true) :
      Describes name (text "file") (.string content) (.file name content)
  | scalar {type : BaseType} {v w : Json} (h : Coercion.coerce type v = .ok w) :
      Describes name type.token v (.value name (.array [w]) [type.letter])
  | array {fields : List Text} {types : List BaseType}
      {values results : List Json}
      (hfields : fields ≠ []) (hfree : ∀ field ∈ fields, Text.comma ∉ field)
      (htokens : fields.map Text.trim = types.map BaseType.token)
      (hvalues : Coercion.CoerceEach types values results) :
      Describes name (text "[" ++ [Text.comma].intercalate fields ++ text "]")
        (.array values)
        (.array name (.array results) (types.map BaseType.letter))

variable {name t : Text} {v : Json} {parameter : Parameter}

theorem toText_eq_ok_iff {content : Text} :
    Coercion.toText v = .ok content ↔
      v = .string content ∧ Utf8.isWellFormed content = true := by
  cases v with
  | string s =>
    rw [Coercion.toText]
    split
    · next hs =>
      constructor
      · rintro ⟨⟩
        exact ⟨rfl, hs⟩
      · rintro ⟨⟨⟩, -⟩
        rfl
    · next hs =>
      constructor
      · rintro ⟨⟩
      · rintro ⟨⟨⟩, hwell⟩
        exact absurd hwell hs
  | _ => simp [Coercion.toText]

theorem describes_of_typed (h : typed name v t = .ok parameter) :
    Describes name t.trim v parameter := by
  unfold typed at h
  split at h
  · cases h
  · next hparse =>
    obtain ⟨content, hcontent, rfl⟩ := exists_of_map_eq_ok h
    obtain ⟨rfl, hwell⟩ := toText_eq_ok_iff.mp hcontent
    rw [show t.trim = text "file" from ParameterType.trim_of_parse? hparse]
    exact .file hwell
  · next token hparse =>
    have htoken : token = t.trim := ParameterType.trim_of_parse? hparse
    obtain ⟨values, hvalues, h⟩ := exists_of_bind_eq_ok h
    cases h
    obtain ⟨types, htypes, heach⟩ := Coercion.coerceAll_eq_ok_iff.mp hvalues
    cases heach with
    | @cons type _ w types _ results hfirst hrest =>
      cases hrest
      rw [htypes, BaseType.code_token]
      obtain ⟨rfl, -⟩ := List.cons.inj htypes
      rw [← htoken]
      exact .scalar hfirst
  · next tokens hparse =>
    obtain ⟨inner, htrim, htokens⟩ := ParameterType.trim_of_parse? hparse
    split at h
    · next items =>
      obtain ⟨values, hvalues, h⟩ := exists_of_bind_eq_ok h
      cases h
      obtain ⟨types, htypes, heach⟩ := Coercion.coerceAll_eq_ok_iff.mp hvalues
      obtain ⟨hfields, hfree, hinner⟩ :=
        Text.pieces_eq_iff.mp (Eq.refl (Text.pieces Text.comma inner))
      rw [htrim, ← hinner, htypes, BaseType.code_token]
      exact .array hfields hfree (htokens.symm.trans htypes) heach
    · cases h

theorem Describes.typed_eq_ok (h : Describes name t.trim v parameter) :
    typed name v t = .ok parameter := by
  unfold typed
  generalize ht : t.trim = trimmed at h
  cases h with
  | file hwell =>
    rw [ParameterType.parse?_of_file ht]
    simp only [toText_eq_ok_iff.mpr ⟨rfl, hwell⟩]
    rfl
  | @scalar type v w hcoerce =>
    have hvalues : Coercion.coerceAll [type.token] [v] = .ok [w] :=
      Coercion.coerceAll_eq_ok_iff.mpr ⟨[type], rfl, .cons hcoerce .nil⟩
    have hcode : ParameterType.code [type.token] = [type.letter] :=
      BaseType.code_token [type]
    rw [ParameterType.parse?_of_token ht]
    simp only [hvalues, hcode]
    rfl
  | @array fields types values results hfields hfree htokens heach =>
    have hpieces := Text.pieces_eq_iff.mpr ⟨hfields, hfree, rfl⟩
    have hvalues := Coercion.coerceAll_eq_ok_iff.mpr ⟨types, rfl, heach⟩
    rw [ParameterType.parse?_of_brackets ht, hpieces, htokens]
    simp only [hvalues, BaseType.code_token]
    rfl

/-- A value makes a parameter just as its type text describes. -/
theorem typed_eq_ok_iff :
    typed name v t = .ok parameter ↔ Describes name t.trim v parameter :=
  ⟨describes_of_typed, Describes.typed_eq_ok⟩

/-! ## Letters and values -/

/-- The letters of the type code and the values stand side by side, each value
being of the base type that its letter stands for. -/
theorem Describes.letters (h : Describes name t v parameter) :
    List.Forall₂ (fun letter w => ∃ type,
      BaseType.ofLetter? letter = some type ∧
      w.baseType? = some type) parameter.code parameter.items := by
  have heach {types : List BaseType} {values results : List Json}
      (hvalues : Coercion.CoerceEach types values results) :
      List.Forall₂ (fun letter w => ∃ type,
        BaseType.ofLetter? letter = some type ∧ w.baseType? = some type)
          (types.map BaseType.letter) results := by
    induction hvalues with
    | nil => exact .nil
    | @cons type _ _ _ _ _ hfirst _ ih =>
      exact .cons ⟨type, type.ofLetter?_letter,
        Coercion.baseType?_of_coerce hfirst⟩ ih
  cases h with
  | file _ => exact .nil
  | scalar hcoerce => exact heach (.cons hcoerce .nil)
  | array _ _ _ hvalues => exact heach hvalues

/-- The tokens of the type can be had back from the type code. -/
theorem Describes.tokens_of_code (h : Describes name t.trim v parameter) :
    ∃ type, ParameterType.parse? t = some type ∧
      (parameter.code.filterMap BaseType.ofLetter?).map BaseType.token =
        type.tokens := by
  have hletters (types : List BaseType) :
      (types.map BaseType.letter).filterMap BaseType.ofLetter? = types := by
    have hsome : BaseType.ofLetter? ∘ BaseType.letter = some :=
      funext BaseType.ofLetter?_letter
    rw [List.filterMap_map, hsome, List.filterMap_some]
  generalize ht : t.trim = trimmed at h
  cases h with
  | file _ => exact ⟨_, ParameterType.parse?_of_file ht, rfl⟩
  | @scalar type _ _ _ =>
    have htokens := congrArg (List.map BaseType.token) (hletters [type])
    exact ⟨_, ParameterType.parse?_of_token ht, htokens⟩
  | array hfields hfree htokens _ =>
    refine ⟨_, ParameterType.parse?_of_brackets ht, ?_⟩
    rw [Text.pieces_eq_iff.mpr ⟨hfields, hfree, rfl⟩, ParameterType.tokens,
      htokens, code, hletters]

/-- There is always a value for a field, if only an empty field. -/
theorem not_describes_nil : ¬ Describes name t (.array []) parameter := by
  intro h
  cases h with
  | @scalar type _ _ hcoerce => cases type <;> cases hcoerce
  | array hfields _ htokens hvalues =>
    cases hvalues
    exact hfields (List.map_eq_nil_iff.mp htokens)

end Parameter

/-! ## Setting a parameter -/

namespace Fleet

variable {f : Fleet} {e : EndpointId} {c : ControlId}

/-- What comes of one command that is logged and handed to the delegate. -/
def forwarded (f : Fleet) (message : Text) (c : ControlId) (command : Command) :
    Except Fault Unit × Fleet :=
  match f.objection? c command with
  | none => (.ok (), f.granted message c command)
  | some fault => (.error fault, f.asked message c)

/-- The log entry shows that a command has been forwarded, even one that has
been refused. -/
theorem forwarded_snd_ne (message : Text) (command : Command) :
    (f.forwarded message c command).2 ≠ f := by
  intro heq
  have hlength := congrArg (fun g : Fleet => g.history.length) heq
  unfold forwarded at hlength
  split at hlength
  · simp only [granted, asked, called, log, record, List.length_cons] at hlength
    omega
  · simp only [asked, called, log, record, List.length_cons] at hlength
    omega

section Language

variable (hactive : (f.endpoint e).control = some c)
include hactive

/-- A parameter that its type text describes is forwarded. -/
theorem run_addParameter_of_describes {name t : Text} {v : Json}
    {parameter : Parameter} (hlegal : GraphName.isLegal name = true)
    (hdescribes : Parameter.Describes name t.trim v parameter) :
    ∃ message, Act.run (addParameter e name v t) f =
      f.forwarded message c (.addParameter parameter) := by
  obtain ⟨message, hrun⟩ := run_addParameter hactive name v t
  refine ⟨message, ?_⟩
  rw [hrun, if_pos hlegal, Parameter.typed_eq_ok_iff.mpr hdescribes]
  rfl

/-- An illegal name or a value that does not fit its type text is
refused at once. -/
theorem run_addParameter_of_not_describes {name t : Text} {v : Json}
    (hnot : ¬ (GraphName.isLegal name = true ∧
      ∃ parameter, Parameter.Describes name t.trim v parameter)) :
    ∃ fault, fault.kind = .invalid ∧
      Act.run (addParameter e name v t) f = (.error fault, f) := by
  obtain ⟨message, hrun⟩ := run_addParameter hactive name v t
  rw [hrun]
  split
  · next hlegal =>
    cases htyped : Parameter.typed name v t with
    | error misfit => exact ⟨_, rfl, rfl⟩
    | ok parameter =>
      exact absurd ⟨hlegal, parameter, Parameter.typed_eq_ok_iff.mp htyped⟩ hnot
  · exact ⟨_, rfl, rfl⟩

/-- Setting a parameter either is refused as invalid, and then nothing has
changed, or forwards the parameter that the value makes. -/
theorem run_addParameter_cases (name : Text) (v : Json) (t : Text) :
    (∃ fault, fault.kind = .invalid ∧
      Act.run (addParameter e name v t) f = (.error fault, f)) ∨
    ∃ message parameter, GraphName.isLegal name = true ∧
      Parameter.Describes name t.trim v parameter ∧
      Act.run (addParameter e name v t) f =
        f.forwarded message c (.addParameter parameter) := by
  by_cases hvalid : GraphName.isLegal name = true ∧
      ∃ parameter, Parameter.Describes name t.trim v parameter
  · obtain ⟨hlegal, parameter, hdescribes⟩ := hvalid
    obtain ⟨message, hrun⟩ :=
      run_addParameter_of_describes hactive hlegal hdescribes
    exact .inr ⟨message, parameter, hlegal, hdescribes, hrun⟩
  · exact .inl (run_addParameter_of_not_describes hactive hvalid)

/-- Setting a parameter is sound and complete for the language of types.  A
command is forwarded just if the name is legal and the type text describes a
parameter for the value; anything else is refused as invalid and changes
nothing.  The command that is forwarded is the one that carries the parameter.
Its values are as many as the letters of its type code, of the kinds that these
announce, and the tokens of the type can be had back from the letters.  No list
without values is accepted. -/
theorem addParameter_language (name : Text) (v : Json) (t : Text) :
    ((∃ message command, Act.run (addParameter e name v t) f =
        f.forwarded message c command) ↔
      GraphName.isLegal name = true ∧
        ∃ parameter, Parameter.Describes name t.trim v parameter) ∧
    (¬ (GraphName.isLegal name = true ∧
        ∃ parameter, Parameter.Describes name t.trim v parameter) →
      ∃ fault, fault.kind = .invalid ∧
        Act.run (addParameter e name v t) f = (.error fault, f)) ∧
    (∀ parameter, GraphName.isLegal name = true →
      Parameter.Describes name t.trim v parameter →
      (∃ message,
        Act.run (addParameter e name v t) f =
          f.forwarded message c (.addParameter parameter)) ∧
      (∀ g, Act.run (addParameter e name v t) f = (.ok (), g) →
        g.commands = f.commands ++ [(c, .addParameter parameter)]) ∧
      List.Forall₂
        (fun letter w => ∃ type, BaseType.ofLetter? letter = some type ∧
          w.baseType? = some type)
        parameter.code parameter.items ∧
      ∃ type, ParameterType.parse? t = some type ∧
        (parameter.code.filterMap BaseType.ofLetter?).map BaseType.token =
          type.tokens) ∧
    (v = .array [] → ∃ fault, fault.kind = .invalid ∧
      Act.run (addParameter e name v t) f = (.error fault, f)) := by
  refine ⟨⟨?_, ?_⟩, run_addParameter_of_not_describes hactive, ?_, ?_⟩
  · rintro ⟨_, _, hforwarded⟩
    by_contra hnot
    obtain ⟨fault, -, hsame⟩ := run_addParameter_of_not_describes hactive hnot
    have hfleet := congrArg Prod.snd (hforwarded.symm.trans hsame)
    exact forwarded_snd_ne _ _ hfleet
  · rintro ⟨hlegal, parameter, hdescribes⟩
    obtain ⟨message, hforwarded⟩ :=
      run_addParameter_of_describes hactive hlegal hdescribes
    exact ⟨message, _, hforwarded⟩
  · intro parameter hlegal hdescribes
    obtain ⟨message, hforwarded⟩ :=
      run_addParameter_of_describes hactive hlegal hdescribes
    refine ⟨⟨message, hforwarded⟩, fun g hg => ?_, hdescribes.letters,
      hdescribes.tokens_of_code⟩
    rw [hforwarded, forwarded] at hg
    split at hg
    · next hobjection =>
      cases hg
      exact (continues_granted message hobjection).commands_eq
    · cases hg
  · rintro rfl
    refine run_addParameter_of_not_describes hactive ?_
    exact fun ⟨_, _, hdescribes⟩ => Parameter.not_describes_nil hdescribes

end Language

/-- A list of two values of different types. -/
theorem addParameter_language_pair :
    (recording.endpoint 0).control = some 0 ∧
      (Act.run (addParameter 0 (text "/pair") (.array [.unsigned 1, .str "x"])
        (text " [int, str ] ")) recording).2.commands =
        [(0, .addParameter
          (.array (text "/pair") (.array [.signed 1, .str "x"])
            (text "IS")))] := by
  have hactive : (recording.endpoint 0).control = some 0 := rfl
  have hfields : (text " [int, str ] ").trim =
      text "[" ++ [Text.comma].intercalate [text "int", text " str "]
        ++ text "]" := by decide
  have hdescribes :
      Parameter.Describes (text "/pair") (text " [int, str ] ").trim
      (.array [.unsigned 1, .str "x"])
      (.array (text "/pair") (.array [.signed 1, .str "x"]) (text "IS")) := by
    have htokens : [text "int", text " str "].map Text.trim =
        [BaseType.int, BaseType.str].map BaseType.token := by decide
    rw [hfields]
    exact .array (by decide) (by decide) htokens (.cons rfl (.cons rfl .nil))
  obtain ⟨-, -, hpasses, -⟩ := addParameter_language hactive (text "/pair")
    (.array [.unsigned 1, .str "x"]) (text " [int, str ] ")
  obtain ⟨-, hcommands, -⟩ := hpasses _ rfl hdescribes
  have hrun :
      (Act.run (addParameter 0 (text "/pair") (.array [.unsigned 1, .str "x"])
      (text " [int, str ] ")) recording).1 = .ok () := rfl
  exact ⟨hactive, hcommands _ (Prod.ext hrun rfl)⟩

end Fleet
end FleetControl

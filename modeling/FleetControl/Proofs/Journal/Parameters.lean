import FleetControl.Proofs.Fleet.Endpoints
import FleetControl.Proofs.Journal.Calls
import FleetControl.Proofs.Parameter

/-!
# What a journal keeps of a parameter

The line of a parameter that has been accepted is read back as the same
parameter, each of its values with the kind that its letter of the type code
announces, as long as no value is an infinity or undefined: these are written as
`null`, whatever the type code says.
-/

namespace FleetControl

namespace Json

/-- The value is no infinity and not undefined. -/
def isFinite : Json → Bool
  | .double x => x.isFinite
  | _ => true

/-- The values are equal; whole numbers of either kind are compared
as numbers. -/
def Same (v w : Json) : Prop :=
  v = w ∨ ∃ n, v.integer? = some n ∧ w.integer? = some n

end Json

namespace Parameter

/-- The values that the parameter has, in the order of its type code. -/
def items : Parameter → List Json
  | .value _ (.array items) _ => items
  | .array _ (.array items) _ => items
  | _ => []

/-- The type code of the parameter; a file has none. -/
def code : Parameter → Text
  | .value _ _ code => code
  | .array _ _ code => code
  | .file _ _ => []

/-- The parameters are of one kind and equal in all parts, the values as
`Json.Same` compares them. -/
inductive Same : Parameter → Parameter → Prop where
  | value {items items' : List Json} (name code : Text)
      (h : List.Forall₂ Json.Same items items') :
    Same (.value name (.array items) code) (.value name (.array items') code)
  | array {items items' : List Json} (name code : Text)
      (h : List.Forall₂ Json.Same items items') :
    Same (.array name (.array items) code) (.array name (.array items') code)
  | file (name content : Text) : Same (.file name content) (.file name content)

/-- Each value is of the kind that its letter of the type code announces. -/
def IsTyped (parameter : Parameter) : Prop :=
  parameter.items.map Json.letter? = parameter.code.map some

/-- The values of the parameter are a list. -/
def IsListed (parameter : Parameter) : Prop :=
  (∃ name items code, parameter = .value name (.array items) code) ∨
    (∃ name items code, parameter = .array name (.array items) code) ∨
    ∃ name content, parameter = .file name content

/-- An accepted parameter has a list of values, each of the kind that its
letter announces. -/
theorem isTyped_of_typed {name type : Text} {value : Json}
    {parameter : Parameter} (h : typed name value type = .ok parameter) :
    parameter.IsTyped ∧ parameter.IsListed := by
  unfold typed at h
  split at h
  · cases h
  · obtain ⟨content, -, rfl⟩ := exists_of_map_eq_ok h
    exact ⟨rfl, .inr (.inr ⟨name, content, rfl⟩)⟩
  · obtain ⟨values, hvalues, h⟩ := exists_of_bind_eq_ok h
    cases h
    exact ⟨letters_of_coerceAll hvalues, .inl ⟨name, values, _, rfl⟩⟩
  · split at h
    · obtain ⟨values, hvalues, h⟩ := exists_of_bind_eq_ok h
      cases h
      exact ⟨letters_of_coerceAll hvalues, .inr (.inl ⟨name, values, _, rfl⟩)⟩
    · cases h

/-! ## Values that are read back -/

theorem toJson_normal (parameter : Parameter) :
    parameter.toJson.normal = parameter.normal.toJson := by
  cases parameter <;> rfl

end Parameter

namespace Json

theorem normal_of_not_finite {v : Json} (hfinite : v.isFinite = false) :
    v.normal = .null := by
  cases v with
  | double x =>
    have hx : ¬ x.isFinite = true := Bool.eq_false_iff.mp hfinite
    exact if_neg hx
  | _ => cases hfinite

/-- A value of one of the four kinds is read back as an equal one just if it
is finite. -/
theorem same_normal_iff {v : Json} {letter : UInt8}
    (hletter : v.letter? = some letter) :
    v.Same v.normal ↔ v.isFinite = true := by
  constructor
  · intro hsame
    by_contra hnot
    rw [normal_of_not_finite (Bool.eq_false_iff.mpr hnot)] at hsame
    rcases hsame with rfl | ⟨n, -, hn⟩
    · cases hletter
    · cases hn
  · intro hfinite
    cases v with
    | signed n => exact .inr ⟨n.toInt, rfl, integer?_normal (.signed n)⟩
    | double x =>
      have hx : x.isFinite = true := hfinite
      rw [normal, if_pos hx]
      exact .inl rfl
    | array items => cases hletter
    | object entries => cases hletter
    | _ => exact .inl rfl

theorem letter?_normal_iff {v : Json} {letter : UInt8}
    (hletter : v.letter? = some letter) :
    v.normal.letter? = v.letter? ↔ v.isFinite = true := by
  constructor
  · intro hsame
    by_contra hnot
    rw [normal_of_not_finite (Bool.eq_false_iff.mpr hnot), hletter] at hsame
    cases hsame
  · intro hfinite
    cases v with
    | signed n =>
      rw [normal]
      split <;> rfl
    | double x =>
      have hx : x.isFinite = true := hfinite
      rw [normal, if_pos hx]
    | _ => rfl

end Json

namespace Parameter

variable {parameter : Parameter}

theorem IsTyped.exists_letter (h : parameter.IsTyped) {v : Json}
    (hv : v ∈ parameter.items) :
    ∃ letter, v.letter? = some letter := by
  have hmem := List.mem_map_of_mem (f := Json.letter?) hv
  rw [h] at hmem
  obtain ⟨letter, -, hletter⟩ := List.mem_map.mp hmem
  exact ⟨letter, hletter.symm⟩

theorem IsListed.items_normal (h : parameter.IsListed) :
    parameter.normal.items = parameter.items.map Json.normal := by
  rcases h with
      ⟨name, items, code, rfl⟩ | ⟨name, items, code, rfl⟩ | ⟨name, content, rfl⟩
  · rw [normal, Json.normal, Json.normalItems_eq_map]
    rfl
  · rw [normal, Json.normal, Json.normalItems_eq_map]
    rfl
  · rfl

/-- Nothing of a parameter is lost just if all its values are finite. -/
theorem IsTyped.same_normal_iff (h : parameter.IsTyped)
    (hlisted : parameter.IsListed) :
    parameter.Same parameter.normal ↔
      ∀ v ∈ parameter.items, v.isFinite = true := by
  have hvalues :
      List.Forall₂ Json.Same parameter.items (parameter.items.map Json.normal) ↔
        ∀ v ∈ parameter.items, v.isFinite = true := by
    rw [List.forall₂_map_right_iff, List.forall₂_same]
    refine forall₂_congr fun v hv => ?_
    obtain ⟨letter, hletter⟩ := h.exists_letter hv
    exact Json.same_normal_iff hletter
  rw [← hvalues]
  rcases hlisted with
      ⟨name, items, code, rfl⟩ | ⟨name, items, code, rfl⟩ | ⟨name, content, rfl⟩
  · rw [normal, Json.normal, Json.normalItems_eq_map]
    refine ⟨?_, .value name code⟩
    rintro ⟨⟩
    assumption
  · rw [normal, Json.normal, Json.normalItems_eq_map]
    refine ⟨?_, .array name code⟩
    rintro ⟨⟩
    assumption
  · exact ⟨fun _ => .nil, fun _ => .file name content⟩

/-- The values that are read back have the announced kinds just if all values
are finite. -/
theorem IsTyped.normal_iff (h : parameter.IsTyped)
    (hlisted : parameter.IsListed) :
    parameter.normal.IsTyped ↔ ∀ v ∈ parameter.items, v.isFinite = true := by
  have hcode : parameter.normal.code = parameter.code := by
    cases parameter <;> rfl
  rw [IsTyped, hlisted.items_normal, hcode, ← h, List.map_map,
    List.map_inj_left]
  refine forall₂_congr fun v hv => ?_
  obtain ⟨letter, hletter⟩ := h.exists_letter hv
  exact Json.letter?_normal_iff hletter

end Parameter

namespace Fleet

theorem line?_of_objection?_eq_none {f : Fleet} {c : ControlId}
    {command : Command}
    (hjournal : f.nature c =
      some (Control.journal.capabilities, Control.journal.objection))
    (h : f.objection? c command = none) : command.line?.isSome = true := by
  rw [objection?_journal hjournal] at h
  split at h
  · assumption
  · cases h

/-- A parameter that an environment accepts becomes one line of its journal.
The line is read back as `add_parameter` with a parameter that is equal to the
one that has been built, and has the kinds that its type code announces, just if
no value is an infinity or undefined. -/
theorem parameter_of_line {f g : Fleet} {e : EndpointId} {c : ControlId}
    {name type : Text} {value : Json}
    (hactive : (f.endpoint e).control = some c)
    (hjournal : f.nature c =
      some (Control.journal.capabilities, Control.journal.objection))
    (hrun : Act.run (addParameter e name value type) f = (.ok (), g)) :
    ∃ parameter, Parameter.typed name value type = .ok parameter ∧
      parameter.IsTyped ∧
      g.commands = f.commands ++ [(c, .addParameter parameter)] ∧
      ∀ journal : Journal, ∃ line, Text.newline ∉ line ∧
        Act.run (Journal.write (.addParameter parameter)) journal =
          (.ok (),
            { written := journal.written ++ (line ++ [Text.newline])
              count := journal.count + 1 }) ∧
        ∃ read : Parameter,
          Json.readWhole? line = some (.ofEntries
            [(text "op", .str "add_parameter"),
              (text "command", read.toJson)]) ∧
          (parameter.Same read ↔ ∀ v ∈ parameter.items, v.isFinite = true) ∧
          (read.IsTyped ↔ ∀ v ∈ parameter.items, v.isFinite = true) := by
  obtain ⟨message, hcases⟩ := run_addParameter hactive name value type
  rw [hrun] at hcases
  split at hcases
  · split at hcases
    · cases hcases
    · next parameter hparameter =>
      split at hcases
      · next hobjection =>
        cases hcases
        obtain ⟨htyped, hlisted⟩ := Parameter.isTyped_of_typed hparameter
        have hprintable :
            (Command.addParameter parameter).isPrintable = true := by
          rw [← Command.isPrintable_toJson]
          exact Command.isPrintable_of_line?
            (line?_of_objection?_eq_none hjournal hobjection)
        have hread := Json.readWhole?_render
          ((Command.isPrintable_toJson (.addParameter parameter)).trans
            hprintable)
        rw [Command.toJson_normal, Command.body, Parameter.toJson_normal]
          at hread
        refine ⟨parameter, hparameter, htyped,
          (continues_granted message hobjection).commands_eq, fun journal =>
            ⟨_, Json.newline_notMem_render _,
              Journal.run_write_of_isPrintable hprintable journal,
              parameter.normal, hread, htyped.same_normal_iff hlisted,
              htyped.normal_iff hlisted⟩⟩
      · cases hcases
  · cases hcases

/-- A fleet of one environment, which a journal runs. -/
def recording : Fleet where
  controls := Store.empty.insert Control.journal
  endpoints :=
    Store.empty.insert ⟨.environment, text "c1", text "comm/c1", some 0, true,
      [], []⟩
  interfaces := .empty
  listener := ⟨none, false, fun _ _ _ => none, 0⟩
  history := []

theorem parameter_of_line_rate :
    (Act.run (addParameter 0 (text "/rate") (.unsigned 5) (text "float"))
      recording).1 = .ok () ∧
    ∃ parameter,
      Parameter.typed (text "/rate") (.unsigned 5) (text "float") =
        .ok parameter ∧
      ∃ line read,
        Json.readWhole? line = some (.ofEntries
          [(text "op", .str "add_parameter"),
            (text "command", Parameter.toJson read)]) ∧
        parameter.Same read ∧ read.IsTyped := by
  have hrun :
      (Act.run (addParameter 0 (text "/rate") (.unsigned 5) (text "float"))
        recording).1 = .ok () := rfl
  obtain ⟨parameter, hparameter, -, -, hline⟩ :=
    parameter_of_line (e := 0) (c := 0)
      (show (recording.endpoint 0).control = some 0 from rfl) rfl
      (Prod.ext hrun rfl)
  obtain ⟨line, -, -, read, hread, hsame, hkinds⟩ := hline (.startingWith [])
  have hfinite : ∀ v ∈ parameter.items, v.isFinite = true := by
    have htyped : Parameter.typed (text "/rate") (.unsigned 5) (text "float") =
        .ok (.value (text "/rate") (.array [.double (.ofInt 5)]) (text "F")) :=
      rfl
    rw [hparameter] at htyped
    cases htyped
    intro v hv
    rw [List.mem_singleton.mp hv]
    decide +kernel
  exact ⟨hrun, parameter, hparameter, line, read, hread, hsame.mpr hfinite,
    hkinds.mpr hfinite⟩

/-- The word `nan` is accepted as a floating point number, and read back
as `null`. -/
theorem parameter_lost_of_nan :
    ∃ (parameter read : Parameter) (line : Text),
      Parameter.typed (text "/rate") (.str "nan") (text "float") =
        .ok parameter ∧
      (Act.run (addParameter 0 (text "/rate") (.str "nan") (text "float"))
        recording).1 = .ok () ∧
      (Command.addParameter parameter).line? = some line ∧
      Json.readWhole? line = some (.ofEntries
        [(text "op", .str "add_parameter"), (text "command", read.toJson)]) ∧
      parameter.code = text "F" ∧ read.items = [.null] ∧
      ¬ parameter.Same read ∧ ¬ read.IsTyped := by
  let parameter : Parameter :=
    .value (text "/rate") (.array [.double .nan]) (text "F")
  have hprintable : (Command.addParameter parameter).toJson.isPrintable =
      true := by decide +kernel
  have htyped : parameter.IsTyped := rfl
  have hlisted : parameter.IsListed := .inl ⟨_, _, _, rfl⟩
  have hlost : ¬ ∀ v ∈ parameter.items, v.isFinite = true := by
    intro hfinite
    have hnan := hfinite (.double .nan) (List.mem_singleton_self _)
    revert hnan
    decide +kernel
  refine ⟨parameter, parameter.normal, _, rfl, rfl,
    Command.line?_eq_some hprintable, Json.readWhole?_render hprintable, rfl,
    rfl, ?_, ?_⟩
  · exact fun hsame => hlost ((htyped.same_normal_iff hlisted).mp hsame)
  · exact fun hkinds => hlost ((htyped.normal_iff hlisted).mp hkinds)

end Fleet
end FleetControl

import FleetControl.Proofs.GraphName
import FleetControl.Proofs.Parameter.Language
import FleetControl.Proofs.Text.Scalars

/-!
# Accepted texts are written

A text is accepted as the value of a parameter just if it is made of scalar
values, and these are also the texts that can be printed.  Since a legal name is
plain ASCII, a journal never refuses a parameter once it has been found valid.
-/

namespace FleetControl
namespace Coercion

theorem coerce_str_eq_ok_iff {s : Text} {w : Json} :
    coerce .str (.string s) = .ok w ↔
      w = .string s ∧ Utf8.EncodesScalars s := by
  rw [← Utf8.isWellFormed_iff, coerce, toText]
  split
  · next hs => simp [Except.map, hs, eq_comm]
  · next hs => simp [Except.map, hs]

end Coercion

namespace Fleet

/-- A journal accepts each parameter of a legal name, whatever its type
and value. -/
theorem isPrintable_of_describes {name t : Text} {v : Json}
    {parameter : Parameter} (hlegal : GraphName.isLegal name = true)
    (hdescribes : Parameter.Describes name t.trim v parameter) :
    (Command.addParameter parameter).isPrintable = true := by
  have hprintable :=
    Parameter.isPrintable_of_typed (GraphName.isWellFormed_of_isLegal hlegal)
      (Parameter.typed_eq_ok_iff.mpr hdescribes)
  rwa [Parameter.isPrintable_toJson] at hprintable

/-- A journal does what it is asked to write. -/
theorem forwarded_of_isPrintable {f : Fleet} {message : Text} {c : ControlId}
    {command : Command}
    (hjournal : f.nature c =
      some (Control.journal.capabilities, Control.journal.objection))
    (h : command.isPrintable = true) :
    f.forwarded message c command = (.ok (), f.granted message c command) := by
  rw [← Command.isPrintable_toJson] at h
  have hline : command.line?.isSome = true := by
    rw [Command.line?_eq_some h]
    rfl
  rw [forwarded, objection?_journal hjournal, if_pos hline]

/-- A text becomes a string, unchanged, just if it is a concatenation of
sequences of scalar values; going through it by positions, nothing outside of it
is looked up, and the verdict is the same.  Just these texts can be printed.  So
a parameter that an environment does not refuse as invalid is one that every
journal writes. -/
theorem strings_of_scalars :
    (∀ (s : Text) (w : Json), Coercion.coerce .str (.string s) = .ok w ↔
      w = .string s ∧ Utf8.EncodesScalars s) ∧
    (∀ s : Text, Utf8.scan? s 0 = some (Utf8.isWellFormed s) ∧
      (Utf8.isWellFormed s = true ↔ Utf8.EncodesScalars s)) ∧
    (∀ s : Text, (Json.string s).print?.isSome = true ↔ Utf8.EncodesScalars s) ∧
    ∀ (f : Fleet) (e : EndpointId) (c : ControlId) (name t : Text) (v : Json),
      (f.endpoint e).control = some c →
      (∃ fault, fault.kind = .invalid ∧
        Act.run (addParameter e name v t) f = (.error fault, f)) ∨
      ∃ message parameter,
        Act.run (addParameter e name v t) f =
          f.forwarded message c (.addParameter parameter) ∧
        (∀ journal : Journal,
          Act.run (Journal.write (.addParameter parameter)) journal =
          (.ok (),
            { written := journal.written ++
                ((Command.addParameter parameter).toJson.render
                  ++ [Text.newline])
              count := journal.count + 1 })) ∧
        (f.nature c = some
          (Control.journal.capabilities, Control.journal.objection) →
          Act.run (addParameter e name v t) f =
            (.ok (), f.granted message c (.addParameter parameter))) := by
  refine ⟨fun s w => Coercion.coerce_str_eq_ok_iff,
    fun s => ⟨?_, Utf8.isWellFormed_iff s⟩, ?_, ?_⟩
  · exact Utf8.scan?_eq (Nat.zero_le s.length)
  · intro s
    rw [← Utf8.isWellFormed_iff, Json.print?, Json.isPrintable_string]
    split
    · next hs => simp [hs]
    · next hs => simp [hs]
  · intro f e c name t v hactive
    rcases run_addParameter_cases hactive name v t with hinvalid |
      ⟨message, parameter, hlegal, hdescribes, hrun⟩
    · exact .inl hinvalid
    · have hprintable := isPrintable_of_describes hlegal hdescribes
      refine .inr ⟨message, parameter, hrun, fun journal => ?_,
        fun hjournal => ?_⟩
      · exact Journal.run_write_of_isPrintable hprintable journal
      · rw [hrun, forwarded_of_isPrintable hjournal hprintable]

/-- The content of a file, with sequences of two, three and four bytes. -/
theorem strings_of_scalars_file :
    (recording.endpoint 0).control = some 0 ∧
      recording.nature 0 =
        some (Control.journal.capabilities, Control.journal.objection) ∧
      ∃ message parameter,
        Act.run (addParameter 0 (text "/note")
          (.string (Utf8.encode 0xe9 ++ Utf8.encode 0x20ac
            ++ Utf8.encode 0x1f600))
          (text "file")) recording =
          (.ok (), recording.granted message 0 (.addParameter parameter)) := by
  have hactive : (recording.endpoint 0).control = some 0 := rfl
  have hjournal :
      recording.nature 0 =
        some (Control.journal.capabilities, Control.journal.objection) := rfl
  obtain ⟨-, -, -, hwritten⟩ := strings_of_scalars
  rcases hwritten recording 0 0 (text "/note") (text "file")
    (.string (Utf8.encode 0xe9 ++ Utf8.encode 0x20ac ++ Utf8.encode 0x1f600))
    hactive with
    ⟨fault, -, hinvalid⟩ | ⟨message, parameter, -, -, hrun⟩
  · cases congrArg Prod.fst hinvalid
  · exact ⟨hactive, hjournal, message, parameter, hrun hjournal⟩

end Fleet
end FleetControl

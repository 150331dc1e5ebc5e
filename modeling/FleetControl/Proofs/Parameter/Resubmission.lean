import FleetControl.Proofs.Parameter.Language

/-!
# Setting a parameter again

What a conversion gives is a value of the type already, so converting it once
more changes nothing.  The values of a parameter can therefore be submitted
under its own type text, and make the same parameter.
-/

namespace FleetControl

namespace Coercion

variable {type : BaseType} {token : Text} {v w : Json}

/-- A converted value is its own conversion. -/
theorem coerce_of_coerce (h : coerce type v = .ok w) :
    coerce type w = .ok w := by
  cases type with
  | int =>
    obtain ⟨n, -, rfl⟩ := exists_of_map_eq_ok h
    rfl
  | str =>
    obtain ⟨t, ht, rfl⟩ := exists_of_map_eq_ok h
    rw [coerce, Parameter.toText_eq_ok_iff.mpr
      ⟨rfl, Parameter.isWellFormed_of_toText ht⟩]
    rfl
  | float =>
    obtain ⟨x, -, rfl⟩ := exists_of_map_eq_ok h
    rfl
  | bool =>
    -- A truth value is read through the integers one and zero.
    obtain ⟨b, -, rfl⟩ := exists_of_map_eq_ok h
    cases b <;> rfl

theorem coerceToken_of_coerceToken (h : coerceToken token v = .ok w) :
    coerceToken token w = .ok w := by
  obtain ⟨type, htoken, hv⟩ := coerceToken_eq_ok_iff.mp h
  exact coerceToken_eq_ok_iff.mpr ⟨type, htoken, coerce_of_coerce hv⟩

theorem CoerceEach.again {types : List BaseType} {values results : List Json}
    (h : CoerceEach types values results) :
    CoerceEach types results results := by
  induction h with
  | nil => exact .nil
  | cons hfirst _ ih => exact .cons (coerce_of_coerce hfirst) ih

end Coercion

namespace Parameter

/-- The value to set the parameter with once more: the content of a file, a
single value, or the list of all values. -/
def resubmission : Parameter → Json
  | .value _ (.array [w]) _ => w
  | .value _ values _ => values
  | .array _ values _ => values
  | .file _ content => .string content

/-- A parameter is what its own values make. -/
theorem Describes.again {name t : Text} {v : Json} {parameter : Parameter}
    (h : Describes name t v parameter) :
    Describes name t parameter.resubmission parameter := by
  cases h with
  | file hcontent => exact .file hcontent
  | scalar hvalue => exact .scalar (Coercion.coerce_of_coerce hvalue)
  | array hfields hfree htokens hvalues =>
    exact .array hfields hfree htokens hvalues.again

end Parameter

namespace Fleet

variable {f g : Fleet} {e : EndpointId} {c : ControlId} {name t : Text}
    {v : Json} {parameter : Parameter}

/-- Setting a parameter to its own values is the same program as setting it to
the values it has been made of. -/
theorem addParameter_resubmission
    (h : Parameter.Describes name t.trim v parameter) (e : EndpointId) :
    addParameter e name parameter.resubmission t = addParameter e name v t := by
  rw [addParameter, addParameter, Parameter.typed_eq_ok_iff.mpr h.again,
    Parameter.typed_eq_ok_iff.mpr h]

/-- A parameter that has been accepted is one that its type text describes, and
the delegate of a live environment has not objected to it. -/
theorem exists_of_run_addParameter_eq_ok
    (h : Act.run (addParameter e name v t) f = (.ok (), g)) :
    ∃ message c parameter, (f.endpoint e).control = some c ∧
      GraphName.isLegal name = true ∧
      Parameter.Describes name t.trim v parameter ∧
      f.objection? c (.addParameter parameter) = none ∧
      g = f.granted message c (.addParameter parameter) := by
  cases hactive : (f.endpoint e).control with
  | none => simp [addParameter, active, Act.run_bind, hactive] at h
  | some c =>
    rcases run_addParameter_cases hactive name v t with ⟨fault, -, hinvalid⟩ |
      ⟨message, parameter, hlegal, hdescribes, hforwarded⟩
    · cases hinvalid.symm.trans h
    · rw [h, forwarded] at hforwarded
      split at hforwarded
      · next hobjection =>
        exact ⟨message, c, parameter, rfl, hlegal, hdescribes, hobjection,
          congrArg Prod.snd hforwarded⟩
      · cases hforwarded

/-- Conversion settles a value: converted again, it stays as it is.  So once a
parameter is not refused as invalid, setting it to its own values is, for every
environment and in every state, the same as setting it to the value it has been
made of.  In particular what has been accepted would have been accepted with
its own values in the same state, and from then on these forward the same
command once more, which a delegate that judges commands by their content
accepts again. -/
theorem resubmission_forwards :
    (∀ (token : Text) (v w : Json), Coercion.coerceToken token v = .ok w →
      Coercion.coerceToken token w = .ok w) ∧
    ∀ (f : Fleet) (e : EndpointId) (name : Text) (v : Json) (t : Text),
      (∀ c, (f.endpoint e).control = some c →
        (∃ fault, fault.kind = .invalid ∧
          Act.run (addParameter e name v t) f = (.error fault, f)) ∨
        ∃ message parameter,
          Act.run (addParameter e name v t) f =
            f.forwarded message c (.addParameter parameter) ∧
          ∀ e', addParameter e' name parameter.resubmission t =
            addParameter e' name v t) ∧
      ∀ g, Act.run (addParameter e name v t) f = (.ok (), g) →
        ∃ c parameter, (f.endpoint e).control = some c ∧
          g.commands = f.commands ++ [(c, .addParameter parameter)] ∧
          Act.run (addParameter e name parameter.resubmission t) f =
            (.ok (), g) ∧
          (∃ message, Act.run (addParameter e name parameter.resubmission t) g =
            g.forwarded message c (.addParameter parameter)) ∧
          ((∃ capabilities objection,
              f.nature c = some (capabilities, fun _ => objection)) →
            ∃ h,
              Act.run (addParameter e name parameter.resubmission t) g =
                (.ok (), h) ∧
              h.commands = f.commands
                ++ [(c, .addParameter parameter),
                  (c, .addParameter parameter)]) := by
  refine ⟨fun token v w => Coercion.coerceToken_of_coerceToken,
    fun f e name v t => ⟨?_, ?_⟩⟩
  · intro c hactive
    rcases run_addParameter_cases hactive name v t with hinvalid |
      ⟨message, parameter, -, hdescribes, hrun⟩
    · exact .inl hinvalid
    · exact .inr ⟨message, parameter, hrun,
        addParameter_resubmission hdescribes⟩
  · intro g hg
    obtain ⟨message, c, parameter, hactive, hlegal, hdescribes, hobjection,
      rfl⟩ :=
      exists_of_run_addParameter_eq_ok hg
    have hcontinues := continues_granted message hobjection
    have hstill :
        ((f.granted message c (.addParameter parameter)).endpoint e).control =
          some c :=
      hactive
    obtain ⟨message', hagain⟩ :=
      run_addParameter_of_describes hstill hlegal hdescribes.again
    refine ⟨c, parameter, hactive, hcontinues.commands_eq, ?_,
      ⟨message', hagain⟩, ?_⟩
    · rw [addParameter_resubmission hdescribes, hg]
    · rintro ⟨capabilities, objection, hnature⟩
      have hlater := (congrFun hcontinues.nature_eq c).trans hnature
      have hsame : (f.granted message c (.addParameter parameter)).objection? c
          (.addParameter parameter) = none := by
        rw [objection?_eq hlater, ← objection?_eq hnature, hobjection]
      refine ⟨_, hagain.trans (by rw [forwarded, hsame]), ?_⟩
      rw [(continues_granted message' hsame).commands_eq,
        hcontinues.commands_eq, List.append_assoc, List.singleton_append]

/-- A number read from a text and a truth value read from a number. -/
theorem resubmission_forwards_pair :
    ∃ g h,
      Act.run (addParameter 0 (text "/pair") (.array [.str " 12 ", .unsigned 1])
        (text "[int, bool ]")) recording = (.ok (), g) ∧
      Act.run (addParameter 0 (text "/pair") (.array [.signed 12, .bool true])
        (text "[int, bool ]")) g = (.ok (), h) ∧
      h.commands = List.replicate 2 (0, .addParameter
        (.array (text "/pair") (.array [.signed 12, .bool true])
          (text "IB"))) := by
  obtain ⟨-, hfleets⟩ := resubmission_forwards
  obtain ⟨-, haccepted⟩ :=
    hfleets recording 0 (text "/pair") (.array [.str " 12 ", .unsigned 1])
      (text "[int, bool ]")
  obtain ⟨c, parameter, hactive, hcommands, -, -, hagain⟩ :=
    haccepted _ (Prod.ext rfl rfl)
  cases show (some 0 : Option ControlId) = some c from hactive
  have hsame : parameter =
      .array (text "/pair") (.array [.signed 12, .bool true]) (text "IB") := by
    cases hcommands
    rfl
  rw [hsame] at hagain
  obtain ⟨h, hrun, htwice⟩ := hagain ⟨_, _, rfl⟩
  exact ⟨_, h, Prod.ext rfl rfl, hrun, htwice⟩

end Fleet
end FleetControl

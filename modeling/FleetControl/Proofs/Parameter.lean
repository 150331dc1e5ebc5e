import FleetControl.Parameter.Typed
import FleetControl.Proofs.Json.Printing
import FleetControl.Proofs.Request.Ask

/-!
# The values of a parameter

A converted value is of the kind that its letter of the type code announces.
So a parameter of a declared type can be printed under a well-formed name,
whatever its value was: a conversion gives numbers, truth values and texts that
it has found to be well formed, and the letters of a type code are those of the
four base types.
-/

namespace FleetControl

open Utf8

namespace Json

/-- The letter of a type code that announces values of this kind. -/
def letter? : Json → Option UInt8
  | .unsigned _ | .signed _ => some 0x49
  | .double _ => some 0x46
  | .string _ => some 0x53
  | .bool _ => some 0x42
  | _ => none

theorem lt_of_letter? {v : Json} {letter : UInt8}
    (h : v.letter? = some letter) :
    letter < 0x80 := by
  cases v <;> cases h <;> decide

end Json

/-- The letter of a type code that stands for a base type. -/
def BaseType.letter : BaseType → UInt8
  | .int => 0x49
  | .str => 0x53
  | .float => 0x46
  | .bool => 0x42

namespace Parameter

theorem forall₂_of_mapM {ε α β : Type} {f : α → Except ε β} {l : List α}
    {results : List β} (h : l.mapM f = .ok results) :
    List.Forall₂ (fun a b => f a = .ok b) l results := by
  induction l generalizing results with
  | nil =>
    cases h
    exact .nil
  | cons first rest ih =>
    rw [List.mapM_cons] at h
    obtain ⟨b, hb, h⟩ := exists_of_bind_eq_ok h
    obtain ⟨later, hlater, h⟩ := exists_of_bind_eq_ok h
    cases h
    exact .cons hb (ih hlater)

theorem isWellFormed_of_toText {value : Json} {t : Text}
    (h : Coercion.toText value = .ok t) :
    isWellFormed t = true := by
  unfold Coercion.toText at h
  split at h
  · split at h
    · next hvalue =>
      cases h
      exact hvalue
    · cases h
  · cases h

/-- A value of a base type can be printed. -/
theorem isPrintable_of_coerce {type : BaseType} {value result : Json}
    (h : Coercion.coerce type value = .ok result) :
    result.isPrintable = true := by
  cases type with
  | int =>
    obtain ⟨n, -, rfl⟩ := exists_of_map_eq_ok h
    rfl
  | str =>
    obtain ⟨t, ht, rfl⟩ := exists_of_map_eq_ok h
    exact isWellFormed_of_toText ht
  | float =>
    obtain ⟨x, -, rfl⟩ := exists_of_map_eq_ok h
    rfl
  | bool =>
    obtain ⟨b, -, rfl⟩ := exists_of_map_eq_ok h
    rfl

/-- A value of a base type is of the kind that the letter of the
type announces. -/
theorem letter?_of_coerce {type : BaseType} {value result : Json}
    (h : Coercion.coerce type value = .ok result) :
    result.letter? = some type.letter := by
  cases type with
  | int =>
    obtain ⟨n, -, rfl⟩ := exists_of_map_eq_ok h
    rfl
  | str =>
    obtain ⟨t, -, rfl⟩ := exists_of_map_eq_ok h
    rfl
  | float =>
    obtain ⟨x, -, rfl⟩ := exists_of_map_eq_ok h
    rfl
  | bool =>
    obtain ⟨b, -, rfl⟩ := exists_of_map_eq_ok h
    rfl

theorem letter_of_ofToken? {token : Text} {type : BaseType}
    (h : BaseType.ofToken? token = some type) :
    token.head?.map Text.upper = some type.letter := by
  unfold BaseType.ofToken? at h
  repeat' split at h
  all_goals cases h
  all_goals
    subst token
    decide

/-- A value is converted to the base type that its token names. -/
theorem coerceToken_eq_ok {token : Text} {value result : Json}
    (h : Coercion.coerceToken token value = .ok result) :
    ∃ type : BaseType, token.head?.map Text.upper = some type.letter ∧
      Coercion.coerce type value = .ok result := by
  unfold Coercion.coerceToken at h
  split at h
  · next type htype => exact ⟨type, letter_of_ofToken? htype, h⟩
  · cases h

variable {tokens : List Text} {values results : List Json}

theorem coerceAll_eq_ok (h : Coercion.coerceAll tokens values = .ok results) :
    values.length = tokens.length ∧
      List.Forall₂ (fun pair result =>
        Coercion.coerceToken pair.1 pair.2 = .ok result)
        (tokens.zip values) results := by
  unfold Coercion.coerceAll at h
  split at h
  · next hlength => exact ⟨hlength, forall₂_of_mapM h⟩
  · cases h

/-- The type code of the tokens has one letter for each converted value, the one
that announces its kind. -/
theorem letters_of_coerceAll
    (h : Coercion.coerceAll tokens values = .ok results) :
    results.map Json.letter? = (ParameterType.code tokens).map some := by
  obtain ⟨hlength, hpairs⟩ := coerceAll_eq_ok h
  have htokens : (tokens.zip values).map Prod.fst = tokens :=
    List.map_fst_zip (Nat.le_of_eq hlength.symm)
  rw [← htokens, ParameterType.code, List.filterMap_map]
  clear h htokens
  generalize tokens.zip values = pairs at hpairs
  induction hpairs with
  | nil => rfl
  | @cons pair result _ _ hpair _ ih =>
    obtain ⟨type, htoken, hresult⟩ := coerceToken_eq_ok hpair
    have hletter :
        ((fun token : Text => token.head?.map Text.upper) ∘ Prod.fst) pair =
        some type.letter := htoken
    rw [List.map_cons, ih, letter?_of_coerce hresult,
      List.filterMap_cons_some hletter, List.map_cons]

theorem isWellFormed_code (h : Coercion.coerceAll tokens values = .ok results) :
    isWellFormed (ParameterType.code tokens) = true := by
  apply isWellFormed_of_ascii
  intro b hb
  have hmem := List.mem_map_of_mem (f := some) hb
  rw [← letters_of_coerceAll h] at hmem
  obtain ⟨result, -, hletter⟩ := List.mem_map.mp hmem
  exact Json.lt_of_letter? hletter

theorem isPrintable_of_coerceAll
    (h : Coercion.coerceAll tokens values = .ok results) :
    (Json.array results).isPrintable = true := by
  rw [Json.isPrintable, Json.itemsPrintable_iff]
  obtain ⟨-, hpairs⟩ := coerceAll_eq_ok h
  generalize tokens.zip values = pairs at hpairs
  clear h
  induction hpairs with
  | nil =>
    intro result hresult
    cases hresult
  | cons hpair _ ih =>
    obtain ⟨type, -, hresult⟩ := coerceToken_eq_ok hpair
    exact List.forall_mem_cons.mpr ⟨isPrintable_of_coerce hresult, ih⟩

/-- A parameter of a declared type can be written under a well-formed name,
whatever its value. -/
theorem isPrintable_of_typed {name type : Text} {value : Json}
    {parameter : Parameter} (hname : isWellFormed name = true)
    (h : typed name value type = .ok parameter) :
    parameter.toJson.isPrintable = true := by
  unfold typed at h
  split at h
  · cases h
  · obtain ⟨content, hcontent, rfl⟩ := exists_of_map_eq_ok h
    have hwritten := isWellFormed_of_toText hcontent
    apply Json.isPrintable_ofEntries
    simp [hname, hwritten]
  · obtain ⟨values, hvalues, h⟩ := exists_of_bind_eq_ok h
    cases h
    apply Json.isPrintable_ofEntries
    simp [hname, isWellFormed_code hvalues, isPrintable_of_coerceAll hvalues]
  · split at h
    · obtain ⟨values, hvalues, h⟩ := exists_of_bind_eq_ok h
      cases h
      apply Json.isPrintable_ofEntries
      simp [hname, isWellFormed_code hvalues, isPrintable_of_coerceAll hvalues]
    · cases h

end Parameter
end FleetControl

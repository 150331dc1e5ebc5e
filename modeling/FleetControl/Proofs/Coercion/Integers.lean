import FleetControl.Parameter.Coercion
import FleetControl.Proofs.Binary64.Order
import FleetControl.Proofs.Request.Ask

/-!
# Numbers as integers

A JSON number becomes an integer exactly when its value without the places after
the point is one of 64 bits; `truncateDouble?` finds that out by comparing
binary numbers only.  Truth values are asked of that integer, and the integers
that a binary number can hold survive the way there and back.
-/

namespace FleetControl

attribute [local instance (2000)] instPowNat

namespace Json

/-- The value is a number of one of the three kinds. -/
def isNumber : Json → Bool
  | .unsigned _ | .signed _ | .double _ => true
  | _ => false

/-- The exact value of a number; infinities and undefined numbers have none. -/
def exactValue? : Json → Option ℚ
  | .unsigned n => some n.toNat
  | .signed n => some n.toInt
  | .double x => if x.isFinite then some x.value else none
  | _ => none

variable {v : Json} {n : Int}

theorem exactValue?_of_integer? (h : v.integer? = some n) :
    v.exactValue? = some (n : ℚ) := by
  cases v with
  | unsigned m =>
    cases h
    rw [exactValue?, Int.cast_natCast]
  | signed m =>
    cases h
    rfl
  | _ => cases h

theorem integer?_bounds (h : v.integer? = some n) :
    -2 ^ (63 : Nat) ≤ n ∧ n < 2 ^ (64 : Nat) := by
  cases v with
  | unsigned m =>
    cases h
    have hlt := m.toNat_lt
    omega
  | signed m =>
    cases h
    have hlow := m.le_toInt
    have hhigh := m.toInt_lt
    omega
  | _ => cases h

end Json

namespace Coercion

open Binary64

variable {v : Json} {n : Int} {m : Int64} {otherwise : Misfit}

theorem fits_iff (n : Int) :
    fits n = true ↔ -2 ^ (63 : Nat) ≤ n ∧ n ≤ 2 ^ (63 : Nat) - 1 := by
  have hmin : Int64.minValue.toInt = -2 ^ (63 : Nat) := rfl
  have hmax : Int64.maxValue.toInt = 2 ^ (63 : Nat) - 1 := rfl
  rw [fits, Bool.and_eq_true, decide_eq_true_iff, decide_eq_true_iff, hmin,
    hmax]

theorem fits_toInt (m : Int64) : fits m.toInt = true := by
  have hlow := m.le_toInt
  have hhigh := m.toInt_lt
  rw [fits_iff]
  omega

theorem toInt_ofInt_of_fits (h : fits n = true) :
    (Int64.ofInt n).toInt = n := by
  obtain ⟨hlow, hhigh⟩ := (fits_iff n).mp h
  exact Int64.toInt_ofInt_of_le hlow (by omega)

theorem signed_eq_ok_iff : signed n otherwise = .ok m ↔ m.toInt = n := by
  constructor
  · intro h
    unfold signed at h
    split at h
    · next hfits =>
      cases h
      exact toInt_ofInt_of_fits hfits
    · cases h
  · rintro rfl
    rw [signed, if_pos (fits_toInt m), Int64.ofInt_toInt]

/-- A number becomes the integer next to its exact value on the side of zero. -/
theorem toInt_eq_ok_iff (hv : v.isNumber = true) :
    toInt v = .ok m ↔ ∃ q, v.exactValue? = some q ∧ m.toInt = towardZero q := by
  cases v with
  | unsigned n =>
    have hvalue : towardZero ((n.toNat : Nat) : ℚ) = n.toNat := by
      exact_mod_cast towardZero_intCast n.toNat
    simp [toInt, signed_eq_ok_iff, Json.exactValue?, hvalue]
  | signed n =>
    simp [toInt, Json.exactValue?, towardZero_intCast, Int64.toInt_inj, eq_comm]
  | double x =>
    rw [toInt, Json.exactValue?]
    split
    · simp [signed_eq_ok_iff, truncate_eq]
    · simp
  | _ => cases hv

/-- A number becomes an integer just if the integer has 64 bits. -/
theorem exists_toInt_iff (hv : v.isNumber = true) :
    (∃ m, toInt v = .ok m) ↔ ∃ q, v.exactValue? = some q ∧
      -2 ^ (63 : Nat) ≤ towardZero q ∧ towardZero q ≤ 2 ^ (63 : Nat) - 1 := by
  simp only [toInt_eq_ok_iff hv, ← fits_iff]
  constructor
  · rintro ⟨m, q, hq, hm⟩
    exact ⟨q, hq, hm ▸ fits_toInt m⟩
  · rintro ⟨q, hq, hfits⟩
    exact ⟨_, q, hq, toInt_ofInt_of_fits hfits⟩

/-- A number becomes the truth value of the integer that it becomes. -/
theorem toBool_eq_ok_iff (hv : v.isNumber = true) {b : Bool} :
    toBool v = .ok b ↔ ∃ m, toInt v = .ok m ∧ b = decide (m ≠ 0) := by
  cases hint : toInt v with
  | ok n =>
    have hbool : toBool v = .ok (n ≠ 0 : Bool) := by
      cases v with
      | string t => cases hv
      | _ => simp only [toBool, hint]
    simp [hbool, eq_comm]
  | error misfit =>
    have hbool : toBool v = .error .notBool := by
      cases v with
      | string t => cases hv
      | _ => simp only [toBool, hint]
    simp [hbool]

theorem toFloat_of_integer? (h : v.integer? = some n) :
    toFloat v = .ok (.ofInt n) := by
  cases v with
  | unsigned m =>
    cases h
    rfl
  | signed m =>
    cases h
    rfl
  | _ => cases h

/-- An integer of fifty-three bits is met by a binary number, from which it can
be had back. -/
theorem toInt_double_ofInt (h : n.natAbs ≤ 2 ^ (53 : Nat)) :
    ∃ m : Int64, toInt (.double (.ofInt n)) = .ok m ∧ m.toInt = n := by
  have hfinite := (isNearest_ofInt (h.trans (by decide))).isFinite
  have hfits : fits n = true := by
    rw [fits_iff]
    omega
  have hm := toInt_ofInt_of_fits hfits
  refine ⟨Int64.ofInt n, (toInt_eq_ok_iff rfl).mpr ⟨n, ?_, ?_⟩, hm⟩
  · rw [Json.exactValue?, if_pos hfinite, value_ofInt h]
  · rw [hm, towardZero_intCast]

/-! ## Limits that are binary numbers -/

/-- The integer of a binary number, found by binary numbers alone.  It is
truncated first and then held against the limits of the signed numbers of 64
bits, taken as binary numbers.  The lower limit is one and may be met; the upper
one is rounded to `2 ^ 63`, so that the number has to stay below it. -/
def truncateDouble? (x : Binary64) : Option Int64 :=
  if !x.isFinite then none
  else
    let truncated := x.trunc
    if truncated.less (.ofInt Int64.minValue.toInt)
        || truncated.atLeast (.ofInt Int64.maxValue.toInt) then none
    else some (Int64.ofInt truncated.truncate)

/-- Both limits have the word of `2 ^ 63`: as a power of two the lower one is a
binary number itself, and the upper one is rounded up. -/
theorem value_limit (negative : Bool)
    (h : Binary64.ofInt n = ofMagnitude negative (1086 * 2 ^ (52 : Nat))) :
    (Binary64.ofInt n).isFinite = true ∧
      (Binary64.ofInt n).value = signFactor negative * 2 ^ (63 : Nat) := by
  have hlt : 1086 * 2 ^ (52 : Nat) < 2 ^ (63 : Nat) := by decide
  have hword : wordValue (1086 * 2 ^ (52 : Nat)) = 2 ^ (63 : Nat) := by
    have hgrid := wordValue_of_grid (m := 2 ^ (52 : Nat)) (g := 11)
      (by decide) (by decide) (.inl le_rfl)
    norm_num at hgrid ⊢
    exact hgrid
  rw [h, value_ofMagnitude _ hlt, hword, isFinite,
    magnitudeWord_ofMagnitude _ hlt]
  exact ⟨by decide, rfl⟩

/-- Held against these limits, a truncated number fits just if its integer
does. -/
theorem truncateDouble?_eq (x : Binary64) :
    truncateDouble? x = if x.isFinite && fits x.truncate then
      some (Int64.ofInt x.truncate) else none := by
  cases hfinite : x.isFinite with
  | false => simp [truncateDouble?, hfinite]
  | true =>
    have htrunc := isFinite_trunc hfinite
    obtain ⟨hlower, hleast⟩ :=
      value_limit true (n := Int64.minValue.toInt) (by decide)
    obtain ⟨hupper, hgreatest⟩ :=
      value_limit false (n := Int64.maxValue.toInt) (by decide)
    have hless : x.trunc.less (.ofInt Int64.minValue.toInt) = true ↔
        x.truncate < -2 ^ (63 : Nat) := by
      rw [less_iff htrunc hlower, hleast, value_trunc, signFactor_true,
        neg_one_mul]
      exact_mod_cast Iff.rfl
    have hatLeast : x.trunc.atLeast (.ofInt Int64.maxValue.toInt) = true ↔
        2 ^ (63 : Nat) ≤ x.truncate := by
      rw [atLeast_iff htrunc hupper, hgreatest, value_trunc, signFactor_false,
        one_mul]
      exact_mod_cast Iff.rfl
    have hfits : (x.trunc.less (.ofInt Int64.minValue.toInt)
        || x.trunc.atLeast (.ofInt Int64.maxValue.toInt)) =
        !fits x.truncate := by
      rw [Bool.eq_iff_iff, Bool.or_eq_true, hless, hatLeast, Bool.not_eq_true',
        Bool.eq_false_iff, Ne, fits_iff]
      omega
    simp only [truncateDouble?, hfinite, hfits, truncate_trunc]
    cases fits x.truncate <;> rfl

/-- A binary number becomes an integer just as its comparisons with the limits
say. -/
theorem toInt_double (x : Binary64) :
    toInt (.double x) = (truncateDouble? x).elim (.error .notInt) .ok := by
  rw [truncateDouble?_eq, toInt, signed]
  cases x.isFinite with
  | false => rfl
  | true => cases fits x.truncate <;> rfl

/-! ## As JSON again -/

variable {w : Json}

theorem coerce_int_eq_ok_iff :
    coerce .int v = .ok w ↔ ∃ m, toInt v = .ok m ∧ w = .signed m := by
  rw [coerce]
  cases toInt v with
  | ok n => simp [Except.map, eq_comm]
  | error misfit => simp [Except.map]

theorem coerce_bool_eq_ok_iff :
    coerce .bool v = .ok w ↔ ∃ b, toBool v = .ok b ∧ w = .bool b := by
  rw [coerce]
  cases toBool v with
  | ok b => simp [Except.map, eq_comm]
  | error misfit => simp [Except.map]

/-- Integers are taken out of numbers exactly.  A number becomes an integer just
if its value, cut towards zero, is one of 64 bits, and then it becomes that
integer; for an integer of either kind only the upper end is a limit.  A truth
value is asked of numbers in the same cases and says whether that integer is
zero.  An integer of fifty-three bits becomes a binary number of its own value,
which becomes the same integer again.  For a binary number all this comes of
comparisons with the limits as binary numbers, of which the upper one is
`2 ^ 63` and has to stay above. -/
theorem coerce_number_exact (v : Json) (hv : v.isNumber = true) :
    ((∃ w, coerce .int v = .ok w) ↔ ∃ q, v.exactValue? = some q ∧
      -2 ^ (63 : Nat) ≤ towardZero q ∧ towardZero q ≤ 2 ^ (63 : Nat) - 1) ∧
    (∀ w, coerce .int v = .ok w →
      ∃ m q, w = .signed m ∧ v.exactValue? = some q ∧ m.toInt = towardZero q) ∧
    (∀ n, v.integer? = some n →
      ((∃ w, coerce .int v = .ok w) ↔ n ≤ 2 ^ (63 : Nat) - 1) ∧
      ∀ w, coerce .int v = .ok w → ∃ m, w = .signed m ∧ m.toInt = n) ∧
    ((∃ w, coerce .bool v = .ok w) ↔ ∃ w, coerce .int v = .ok w) ∧
    (∀ w, coerce .bool v = .ok w →
      ∃ m, coerce .int v = .ok (.signed m) ∧ w = .bool (decide (m ≠ 0))) ∧
    (∀ n, v.integer? = some n → n.natAbs ≤ 2 ^ (53 : Nat) →
      ∃ x m, coerce .float v = .ok (.double x) ∧
        x.isFinite = true ∧ x.value = n ∧
        coerce .int (.double x) = .ok (.signed m) ∧ m.toInt = n) ∧
    ∀ x, v = .double x → ∀ w,
      coerce .int v = .ok w ↔
        ∃ m, truncateDouble? x = some m ∧ w = .signed m := by
  have hsucceeds : (∃ w, coerce .int v = .ok w) ↔ ∃ m, toInt v = .ok m := by
    simp only [coerce_int_eq_ok_iff]
    exact ⟨fun ⟨_, m, hm, _⟩ => ⟨m, hm⟩, fun ⟨m, hm⟩ => ⟨_, m, hm, rfl⟩⟩
  have hresult : ∀ w, coerce .int v = .ok w →
      ∃ m q, w = .signed m ∧ v.exactValue? = some q ∧
      m.toInt = towardZero q := by
    intro w hw
    obtain ⟨m, hm, rfl⟩ := coerce_int_eq_ok_iff.mp hw
    obtain ⟨q, hq, hmq⟩ := (toInt_eq_ok_iff hv).mp hm
    exact ⟨m, q, rfl, hq, hmq⟩
  refine ⟨hsucceeds.trans (exists_toInt_iff hv), hresult, ?_, ?_, ?_, ?_, ?_⟩
  · intro n hn
    have hvalue := Json.exactValue?_of_integer? hn
    constructor
    · obtain ⟨hlow, -⟩ := Json.integer?_bounds hn
      rw [hsucceeds, exists_toInt_iff hv, hvalue]
      constructor
      · rintro ⟨_, ⟨⟩, -, hhigh⟩
        rwa [towardZero_intCast] at hhigh
      · intro hhigh
        refine ⟨n, rfl, ?_⟩
        rw [towardZero_intCast]
        exact ⟨hlow, hhigh⟩
    · intro w hw
      obtain ⟨m, q, rfl, hq, hmq⟩ := hresult w hw
      cases hvalue.symm.trans hq
      exact ⟨m, rfl, hmq.trans (towardZero_intCast n)⟩
  · simp only [hsucceeds, coerce_bool_eq_ok_iff, toBool_eq_ok_iff hv]
    exact ⟨fun ⟨_, _, ⟨m, hm, _⟩, _⟩ => ⟨m, hm⟩, fun ⟨m, hm⟩ =>
      ⟨_, _, ⟨m, hm, rfl⟩, rfl⟩⟩
  · intro w hw
    obtain ⟨b, hb, rfl⟩ := coerce_bool_eq_ok_iff.mp hw
    obtain ⟨m, hm, rfl⟩ := (toBool_eq_ok_iff hv).mp hb
    exact ⟨m, coerce_int_eq_ok_iff.mpr ⟨m, hm, rfl⟩, rfl⟩
  · intro n hn hsmall
    obtain ⟨m, hm, hmn⟩ := toInt_double_ofInt hsmall
    refine ⟨.ofInt n, m, ?_,
      (isNearest_ofInt (hsmall.trans (by decide))).isFinite, value_ofInt hsmall,
      coerce_int_eq_ok_iff.mpr ⟨m, hm, rfl⟩, hmn⟩
    rw [coerce, toFloat_of_integer? hn]
    rfl
  · rintro x rfl w
    rw [coerce_int_eq_ok_iff, toInt_double]
    cases truncateDouble? x <;> simp

/-- The number `2 ^ 63`, one above the largest integer, is refused. -/
theorem coerce_number_exact_at_limit :
    (Json.unsigned 9223372036854775808).isNumber = true ∧
      ¬ ∃ w, coerce .int (.unsigned 9223372036854775808) = .ok w := by
  have hv : (Json.unsigned 9223372036854775808).isNumber = true := rfl
  obtain ⟨-, -, hinteger, -⟩ :=
    coerce_number_exact (.unsigned 9223372036854775808) hv
  refine ⟨hv, fun hok => ?_⟩
  have hle := (hinteger 9223372036854775808 rfl).1.mp hok
  omega

end Coercion
end FleetControl

import FleetControl.Json.Printer
import FleetControl.Json.Reader
import FleetControl.Proofs.Text.Digits

/-!
# Written numbers are read back

A written number is a sign, the digits of its whole part, and maybe a fraction
and a power of ten.  `readNumber?_eq` reads it part by part, and each part ends
where the next one begins.
-/

namespace FleetControl
namespace Json

open Numeral

/-- The minus sign of a negative number. -/
def signText (negative : Bool) : Text :=
  if negative then text "-" else []

/-- The digits are a zero alone, or start with another one. -/
structure IsWhole (ds : Text) : Prop where
  digits : ∀ b ∈ ds, Text.isDigit b = true
  leading : ds = [0x30] ∨ ds ≠ [] ∧ ∀ b ∈ ds.head?, b ≠ 0x30

theorem isWhole_zero : IsWhole (text "0") :=
  ⟨fun _ hb => Text.isDigit_of_mem_zeros (n := 1) hb, .inl rfl⟩

theorem isWhole_ofNat (n : Nat) : IsWhole (Text.ofNat n) := by
  refine ⟨fun _ hb => Text.isDigit_of_mem_ofNat hb, ?_⟩
  rcases Nat.eq_zero_or_pos n with rfl | hpos
  · exact .inl Text.ofNat_zero
  · exact .inr ⟨Text.ofNat_ne_nil n, Text.head?_ofNat hpos⟩

theorem IsWhole.ne_nil {ds : Text} (h : IsWhole ds) : ds ≠ [] := by
  rcases h.leading with rfl | ⟨hne, -⟩
  · exact List.cons_ne_nil _ _
  · exact hne

/-- A whole part is read up to the end of its digits. -/
theorem IsWhole.wholePart? {ds rest : Text} (h : IsWhole ds)
    (hrest : ∀ b ∈ rest.head?, Text.isDigit b = false) :
    wholePart? (ds ++ rest) = some (ds, rest) := by
  rcases h.leading with rfl | ⟨hne, hhead⟩
  · rfl
  · have hdigits := digits_append h.digits hrest
    cases ds with
    | nil => exact absurd rfl hne
    | cons b ds =>
      have hb : b ≠ 0x30 := hhead b rfl
      rw [List.cons_append] at hdigits ⊢
      rw [Json.wholePart?, if_neg hb, hdigits]
      rfl

theorem minus_ne_of_isDigit {b : UInt8} (h : Text.isDigit b = true) :
    b ≠ minus := by
  rintro rfl
  revert h
  decide

/-! ## The parts of a number -/

/-- Whether a text starts with a minus sign, and the rest after it. -/
def minusPart : Text → Bool × Text
  | [] => (false, [])
  | b :: rest => if b = minus then (true, rest) else (false, b :: rest)

/-- The digits after a point, if there is one. -/
def fractionPart? (t : Text) : Option (Option Text × Text) :=
  match fraction? t with
  | none => some (none, t)
  | some (ds, rest) => if ds.isEmpty then none else some (some ds, rest)

/-- The power of ten after an exponent mark, if there is one. -/
def powerPart? (t : Text) : Option (Option Int × Text) :=
  match t with
  | [] => some (none, t)
  | b :: _ =>
    if isExponentMark b then (power? t).map fun (p, rest) => (some p, rest)
    else some (none, t)

/-- The value of a number, from its parts. -/
def numberOf (negative : Bool) (whole : Text) (fraction : Option Text)
    (power : Option Int) :
    Json :=
  if fraction.isNone && power.isNone then ofDigits negative whole
  else .double
    (Numeral.toDecimal negative whole (fraction.getD [])
      (power.getD 0)).toBinary64

theorem powerPart?_bind (rest : Text) (value : Option Int → Json) :
    ((powerPart? rest).bind fun (power, rest) =>
      (value power).finite?.bind fun value => some (value, rest)) =
    (match rest with
      | [] => (do
        let value ← finite? (value none)
        return (value, rest))
      | b :: _ =>
        if isExponentMark b then (do
          let (power, rest) ← (power? rest).map fun (p, rest) => (some p, rest)
          let value ← finite? (value power)
          return (value, rest))
        else (do
          let value ← finite? (value none)
          return (value, rest))) := by
  cases rest with
  | nil => rfl
  | cons b rest =>
    simp only [powerPart?]
    split
    · rfl
    · rfl

/-- A number is read part by part. -/
theorem readNumber?_eq (t : Text) :
    readNumber? t =
      (wholePart? (minusPart t).2).bind fun (whole, rest) =>
        (fractionPart? rest).bind fun (fraction, rest) =>
          (powerPart? rest).bind fun (power, rest) =>
            (numberOf (minusPart t).1 whole fraction power).finite?.bind
              fun value =>
              some (value, rest) := by
  cases t with
  | nil => rfl
  | cons b rest =>
    have hsign : (if b = minus then (true, rest) else (false, b :: rest)) =
        minusPart (b :: rest) :=
      rfl
    unfold readNumber?
    dsimp only
    rw [hsign]
    cases wholePart? (minusPart (b :: rest)).2 with
    | none => rfl
    | some whole =>
      rw [Option.bind_eq_bind, Option.bind_some, Option.bind_some,
        fractionPart?]
      cases fraction? whole.2 with
      | none =>
        rw [Option.bind_some]
        dsimp only
        rw [powerPart?_bind]
        rfl
      | some fraction =>
        dsimp only
        split
        · rfl
        · rw [Option.bind_some]
          dsimp only
          rw [powerPart?_bind]
          rfl

/-! ## Writing the parts -/

/-- The written fraction of a number. -/
def fractionText : Option Text → Text
  | none => []
  | some ds => text "." ++ ds

/-- The written power of ten of a number. -/
def powerText : Option Int → Text
  | none => []
  | some power => text "e" ++ renderExponent power

/-- The parts of a written number after its sign. -/
structure NumberParts where
  whole : Text
  fraction : Option Text
  power : Option Int

namespace NumberParts

/-- The written number after its sign. -/
def written (parts : NumberParts) : Text :=
  parts.whole ++ (fractionText parts.fraction ++ powerText parts.power)

/-- The value of the number under a sign. -/
def value (parts : NumberParts) (negative : Bool) : Json :=
  numberOf negative parts.whole parts.fraction parts.power

/-- The decimal that the parts denote under a sign. -/
def decimal (parts : NumberParts) (negative : Bool) : Decimal :=
  toDecimal negative parts.whole (parts.fraction.getD []) (parts.power.getD 0)

/-- The number has a fraction or a power of ten, so that it is no
whole number. -/
def hasPlaces (parts : NumberParts) : Bool :=
  parts.fraction.isSome || parts.power.isSome

theorem value_of_hasPlaces {parts : NumberParts} (h : parts.hasPlaces = true)
    (negative : Bool) :
    parts.value negative = .double (parts.decimal negative).toBinary64 := by
  have hnot : (parts.fraction.isNone && parts.power.isNone) = false := by
    rw [hasPlaces] at h
    cases hfraction : parts.fraction <;> cases hpower : parts.power <;> simp_all
  rw [value, numberOf, hnot, decimal]
  rfl

/-- The digits are as the grammar asks for. -/
structure WellFormed (parts : NumberParts) : Prop where
  whole : IsWhole parts.whole
  fraction : ∀ ds ∈ parts.fraction, ds ≠ [] ∧ ∀ b ∈ ds, Text.isDigit b = true

end NumberParts

theorem minusPart_append {whole : Text} (hwhole : IsWhole whole)
    (negative : Bool) (rest : Text) :
    minusPart (signText negative ++ (whole ++ rest)) =
      (negative, whole ++ rest) := by
  cases negative with
  | true => rfl
  | false =>
    cases whole with
    | nil => exact absurd rfl hwhole.ne_nil
    | cons b ds =>
      have hb := minus_ne_of_isDigit (hwhole.digits b List.mem_cons_self)
      exact if_neg hb

theorem digitsValue_renderExponent (power : Int) :
    Text.digitsValue ((if power.natAbs < 10 then text "0" else [])
      ++ Text.ofNat power.natAbs) =
      power.natAbs := by
  rw [Text.digitsValue_append, Text.digitsValue_ofNat]
  split
  · rw [show text "0" = List.replicate 1 0x30 from rfl, Text.digitsValue_zeros]
    omega
  · rw [show Text.digitsValue [] = 0 from rfl]
    omega

theorem power?_signed (negative : Bool) {ds rest : Text} (hne : ds ≠ [])
    (hds : ∀ b ∈ ds, Text.isDigit b = true) (hrest : Ends rest) :
    power? (text "e"
      ++ ((if negative then text "-" else text "+") ++ (ds ++ rest))) =
      some (Numeral.signed negative ds, rest) := by
  have hread : (if (Numeral.digits (ds ++ rest)).1.isEmpty then none
      else some (Numeral.signed negative (Numeral.digits (ds ++ rest)).1,
        (Numeral.digits (ds ++ rest)).2)) =
          some (Numeral.signed negative ds, rest) := by
    rw [hrest.digits_append hds]
    simp [hne]
  cases negative with
  | true => exact hread
  | false => exact hread

/-- A power of ten is read up to the end of its digits. -/
theorem power?_renderExponent (power : Int) {rest : Text} (hrest : Ends rest) :
    power? (text "e" ++ renderExponent power ++ rest) = some (power, rest) := by
  have hdigits :
      ∀ b ∈ (if power.natAbs < 10 then text "0" else [])
        ++ Text.ofNat power.natAbs, Text.isDigit b = true := by
    intro b hb
    rcases List.mem_append.mp hb with hb | hb
    · split at hb
      · rw [List.mem_singleton.mp hb]
        rfl
      · cases hb
    · exact Text.isDigit_of_mem_ofNat hb
  have hne :
      (if power.natAbs < 10 then text "0" else [])
        ++ Text.ofNat power.natAbs ≠ [] :=
    List.append_ne_nil_of_right_ne_nil _ (Text.ofNat_ne_nil _)
  have hread := power?_signed (decide (power < 0)) hne hdigits hrest
  have hvalue : Numeral.signed (decide (power < 0))
      ((if power.natAbs < 10 then text "0" else [])
        ++ Text.ofNat power.natAbs) = power := by
    rw [Numeral.signed, digitsValue_renderExponent]
    split
    · next hnegative =>
      have hlt : power < 0 := of_decide_eq_true hnegative
      rw [Int.ofNat_eq_natCast]
      omega
    · next hpositive =>
      have hle : ¬ power < 0 := fun hlt => hpositive (decide_eq_true hlt)
      rw [Int.ofNat_eq_natCast]
      omega
  rw [hvalue] at hread
  simpa only [renderExponent, List.append_assoc, decide_eq_true_eq] using hread

theorem powerPart?_mark {b : UInt8} (h : isExponentMark b = true)
    (rest : Text) :
    powerPart? (b :: rest) = (power? (b :: rest)).map fun (p, rest) =>
      (some p, rest) :=
  if_pos h

theorem powerPart?_powerText (power : Option Int) {rest : Text}
    (hrest : Ends rest) :
    powerPart? (powerText power ++ rest) = some (power, rest) := by
  cases power with
  | none =>
    rw [powerText, List.nil_append]
    cases rest with
    | nil => rfl
    | cons b rest => exact if_neg (by simp [(hrest b rfl).2.2])
  | some power =>
    have hmark : isExponentMark 0x65 = true := rfl
    have hread := power?_renderExponent power hrest
    exact (powerPart?_mark hmark _).trans (congrArg (Option.map _) hread)

theorem head?_powerText (power : Option Int) {rest : Text} (hrest : Ends rest) :
    ∀ b ∈ (powerText power ++ rest).head?, Text.isDigit b = false ∧
      b ≠ pointMark := by
  cases power with
  | none => exact fun b hb => ⟨(hrest b hb).1, (hrest b hb).2.1⟩
  | some power =>
    rintro b ⟨⟩
    exact ⟨rfl, by decide⟩

theorem NumberParts.WellFormed.fractionPart? {parts : NumberParts}
    (h : parts.WellFormed) {rest : Text} (hrest : Ends rest) :
    fractionPart? (fractionText parts.fraction
      ++ (powerText parts.power ++ rest)) =
      some (parts.fraction, powerText parts.power ++ rest) := by
  have htail := head?_powerText parts.power hrest
  cases hfraction : parts.fraction with
  | none =>
    have hnone : fraction? (powerText parts.power ++ rest) = none := by
      cases htext : powerText parts.power ++ rest with
      | nil => rfl
      | cons b tail =>
        rw [htext] at htail
        exact if_neg (htail b rfl).2
    rw [fractionText, List.nil_append, Json.fractionPart?, hnone]
  | some ds =>
    obtain ⟨hne, hds⟩ := h.fraction ds hfraction
    have hread : fraction? (text "." ++ ds ++ (powerText parts.power ++ rest)) =
        some (ds, powerText parts.power ++ rest) := by
      have hdigits := digits_append hds fun b hb => (htail b hb).1
      exact congrArg some hdigits
    rw [fractionText, Json.fractionPart?, hread]
    simp [hne]

/-- A number is read up to its end, as the value of its parts. -/
theorem NumberParts.WellFormed.readNumber? {parts : NumberParts}
    (h : parts.WellFormed) (negative : Bool) {rest : Text} (hrest : Ends rest) :
    readNumber? (signText negative ++ (parts.written ++ rest)) =
      (parts.value negative).finite?.map fun value => (value, rest) := by
  have hstop :
      ∀ b ∈
        (fractionText parts.fraction ++ (powerText parts.power ++ rest)).head?,
      Text.isDigit b = false := by
    cases parts.fraction with
    | none => exact fun b hb => (head?_powerText parts.power hrest b hb).1
    | some ds =>
      rintro b ⟨⟩
      rfl
  rw [written, List.append_assoc, List.append_assoc, readNumber?_eq,
    minusPart_append h.whole, h.whole.wholePart? hstop, Option.bind_some]
  dsimp only
  rw [h.fractionPart? hrest, Option.bind_some]
  dsimp only
  rw [powerPart?_powerText parts.power hrest, Option.bind_some, ← value]
  cases (parts.value negative).finite? with
  | none => rfl
  | some value => rfl

/-- The text is a number, written in parts that denote the value. -/
def WritesNumber (t : Text) (value : Json) : Prop :=
  ∃ (negative : Bool) (parts : NumberParts), parts.WellFormed ∧
    t = signText negative ++ parts.written ∧
    (parts.value negative).finite? = some value

/-- A written number is read up to its end. -/
theorem WritesNumber.readNumber? {t rest : Text} {value : Json}
    (h : WritesNumber t value)
    (hrest : Ends rest) : readNumber? (t ++ rest) = some (value, rest) := by
  obtain ⟨negative, parts, hparts, rfl, hvalue⟩ := h
  rw [List.append_assoc, hparts.readNumber? negative hrest, hvalue]
  rfl

/-- A written number starts with a digit or a minus sign. -/
theorem WritesNumber.exists_eq_cons {t : Text} {value : Json}
    (h : WritesNumber t value) :
    ∃ b tail, t = b :: tail ∧ (Text.isDigit b = true ∨ b = minus) := by
  obtain ⟨negative, parts, hparts, rfl, -⟩ := h
  cases negative with
  | true => exact ⟨minus, parts.written, rfl, .inr rfl⟩
  | false =>
    cases hwhole : parts.whole with
    | nil => exact absurd hwhole hparts.whole.ne_nil
    | cons b ds =>
      refine ⟨b, ds ++ (fractionText parts.fraction ++ powerText parts.power),
        ?_, .inl ?_⟩
      · rw [NumberParts.written, hwhole]
        rfl
      · apply hparts.whole.digits
        rw [hwhole]
        exact List.mem_cons_self

/-! ## Whole numbers -/

theorem writesNumber_digits (negative : Bool) {n : Nat} {value : Json}
    (hvalue : (ofDigits negative (Text.ofNat n)).finite? = some value) :
    WritesNumber (signText negative ++ Text.ofNat n) value := by
  refine ⟨negative, ⟨Text.ofNat n, none, none⟩, ⟨isWhole_ofNat n, nofun⟩, ?_,
    hvalue⟩
  rw [NumberParts.written, fractionText, powerText, List.append_nil,
    List.append_nil]

theorem writesNumber_unsigned (n : UInt64) :
    WritesNumber (Text.ofNat n.toNat) (.unsigned n) := by
  have hlt : n.toNat < UInt64.size := n.toNat_lt
  apply writesNumber_digits false
  simp [ofDigits, Text.digitsValue_ofNat, hlt, finite?]

theorem writesNumber_negative {n : Int64} (hn : n.toInt < 0) :
    WritesNumber (Text.ofInt n.toInt) (.signed n) := by
  have htext : Text.ofInt n.toInt =
      signText true ++ Text.ofNat n.toInt.natAbs := by
    cases hcase : n.toInt with
    | ofNat m =>
      rw [hcase] at hn
      exact absurd hn (Int.not_lt.mpr (Int.natCast_nonneg m))
    | negSucc m => rfl
  have habs : -(n.toInt.natAbs : Int) = n.toInt := by omega
  rw [htext]
  apply writesNumber_digits true
  simp only [ofDigits, Text.digitsValue_ofNat, habs, n.minValue_le_toInt,
    Int64.ofInt_toInt, if_true, finite?]

/-- A signed number that is not negative is written as an unsigned one is. -/
theorem writesNumber_nonnegative {n : Int64} (hn : 0 ≤ n.toInt) :
    WritesNumber (Text.ofInt n.toInt)
      (.unsigned (UInt64.ofNat n.toInt.toNat)) := by
  have hlt : n.toInt.toNat < 2 ^ 64 := by
    have := n.toInt_lt
    omega
  have htext : Text.ofInt n.toInt =
      Text.ofNat (UInt64.ofNat n.toInt.toNat).toNat := by
    rw [UInt64.toNat_ofNat_of_lt' hlt]
    cases hcase : n.toInt with
    | ofNat m => rfl
    | negSucc m =>
      rw [hcase] at hn
      exact absurd hn (Int.not_le.mpr (Int.negSucc_lt_zero m))
  rw [htext]
  exact writesNumber_unsigned _

end Json
end FleetControl

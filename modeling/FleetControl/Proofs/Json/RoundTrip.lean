import FleetControl.Proofs.Dict
import FleetControl.Proofs.Json.Doubles
import FleetControl.Proofs.Json.Strings

/-!
# Written values are read back

`Json.normal` is what a written value is read back as.  It differs from the
value where the written form does not tell two values apart: a signed number
that is not negative is written as an unsigned one is, and what is no finite
number is written as `null`.  An object is read back as a dictionary.

A value is read from its own bytes alone: what follows it only has to end a
number.  The induction is on the value, with one theorem for the values, one for
the items of an array and one for the entries of an object; the steps that a
reader needs are bounded by the length of what it reads.
-/

namespace FleetControl
namespace Json

open Numeral

mutual

/-- What the written form of a value is read back as. -/
def normal : Json → Json
  | .signed n =>
    if 0 ≤ n.toInt then .unsigned (UInt64.ofNat n.toInt.toNat) else .signed n
  | .double x => if x.isFinite then .double x else .null
  | .array items => .array (normalItems items)
  | .object entries => .ofEntries (normalEntries entries)
  | v => v

/-- What the written items of an array are read back as. -/
def normalItems : List Json → List Json
  | [] => []
  | item :: rest => normal item :: normalItems rest

/-- What the written entries of an object are read back as. -/
def normalEntries : List (Text × Json) → List (Text × Json)
  | [] => []
  | (key, value) :: rest => (key, normal value) :: normalEntries rest

end

@[simp]
theorem normalItems_eq_map (items : List Json) :
    normalItems items = items.map normal := by
  induction items with
  | nil => rfl
  | cons item rest ih => rw [normalItems, ih, List.map_cons]

/-- The numbers of a value stay the same numbers. -/
theorem integer?_normal (v : Json) : v.normal.integer? = v.integer? := by
  cases v with
  | signed n =>
    rw [normal]
    split
    · next hn =>
      have hlt : n.toInt.toNat < 2 ^ 64 := by
        have := n.toInt_lt
        omega
      rw [integer?, integer?, UInt64.toNat_ofNat_of_lt' hlt,
        Int.toNat_of_nonneg hn]
    · rfl
  | double x =>
    rw [normal]
    split <;> rfl
  | _ => rfl

/-! ## Tokens -/

theorem skipSpace_cons {b : UInt8} (h : isSpace b = false) (rest : Text) :
    skipSpace (b :: rest) = b :: rest := by
  rw [skipSpace, List.dropWhile_cons_of_neg (by simp [h])]

theorem expect?_self {b : UInt8} (h : isSpace b = false) (rest : Text) :
    expect? b (b :: rest) = some rest := by
  rw [expect?, skipSpace_cons h]
  exact if_pos rfl

theorem expect?_of_ne {a b : UInt8} (h : isSpace b = false) (hne : b ≠ a)
    (rest : Text) :
    expect? a (b :: rest) = none := by
  rw [expect?, skipSpace_cons h]
  exact if_neg hne

theorem after?_of_ne {a b : UInt8} (hne : b ≠ a) (beginning rest : Text) :
    after? (a :: beginning) (b :: rest) = none := by
  have hbeq : (a == b) = false := beq_eq_false_iff_ne.mpr (Ne.symm hne)
  rw [after?, List.isPrefixOf, hbeq, Bool.false_and, if_neg Bool.false_ne_true]

/-- The text starts with a byte that is no space, closes no array and starts no
byte order mark. -/
def StartsValue (t : Text) : Prop :=
  ∃ b tail, t = b :: tail ∧ isSpace b = false ∧ b ≠ 0x5d ∧ b ≠ 0xef

theorem StartsValue.append {t : Text} (h : StartsValue t) (rest : Text) :
    StartsValue (t ++ rest) := by
  obtain ⟨b, tail, rfl, hb⟩ := h
  exact ⟨b, tail ++ rest, rfl, hb⟩

theorem StartsValue.length_pos {t : Text} (h : StartsValue t) :
    0 < t.length := by
  obtain ⟨b, tail, rfl, -⟩ := h
  exact Nat.succ_pos _

theorem StartsValue.expect? {t : Text} (h : StartsValue t) :
    expect? 0x5d t = none := by
  obtain ⟨b, tail, rfl, hspace, hne, -⟩ := h
  exact expect?_of_ne hspace hne tail

/-- What may start a number starts none of the other tokens. -/
theorem ne_of_startsNumber {b : UInt8} (h : Text.isDigit b = true ∨ b = minus) :
    isSpace b = false ∧ b ≠ 0x5d ∧ b ≠ 0x22 ∧ b ≠ 0x5b ∧ b ≠ 0x7b ∧
      b ≠ 0x6e ∧ b ≠ 0x74 ∧ b ≠ 0x66 ∧ b ≠ 0xef := by
  have hrange : 0x2d ≤ b.toNat ∧ b.toNat ≤ 0x39 := by
    rcases h with h | rfl
    · have := (Text.isDigit_iff b).mp h
      omega
    · decide
  simp only [isSpace, Bool.or_eq_false_iff, beq_eq_false_iff_ne, ne_eq,
    ← UInt8.toNat_inj, UInt8.reduceToNat]
  omega

theorem WritesNumber.startsValue {t : Text} {value : Json}
    (h : WritesNumber t value) :
    StartsValue t := by
  obtain ⟨b, tail, rfl, hb⟩ := h.exists_eq_cons
  obtain ⟨hspace, hbracket, -, -, -, -, -, -, hmark⟩ := ne_of_startsNumber hb
  exact ⟨b, tail, rfl, hspace, hbracket, hmark⟩

theorem render_double_of_not_finite {x : Binary64} (h : x.isFinite = false) :
    (double x).render = text "null" := by
  rw [render, renderDouble, h]
  rfl

theorem startsValue_render (v : Json) : StartsValue v.render := by
  cases v with
  | null => exact ⟨_, _, rfl, rfl, by decide⟩
  | bool value =>
    cases value with
    | true => exact ⟨_, _, rfl, rfl, by decide⟩
    | false => exact ⟨_, _, rfl, rfl, by decide⟩
  | unsigned n => exact (writesNumber_unsigned n).startsValue
  | signed n =>
    rcases Int.lt_or_le n.toInt 0 with hn | hn
    · exact (writesNumber_negative hn).startsValue
    · exact (writesNumber_nonnegative hn).startsValue
  | double x =>
    cases hfinite : x.isFinite with
    | true => exact (writesNumber_double hfinite).startsValue
    | false =>
      rw [render_double_of_not_finite hfinite]
      exact ⟨_, _, rfl, rfl, by decide⟩
  | string t => exact ⟨_, _, rfl, rfl, by decide⟩
  | array items => exact ⟨_, _, rfl, rfl, by decide⟩
  | object entries => exact ⟨_, _, rfl, rfl, by decide⟩

/-! ## Values without parts -/

theorem readValue?_scalar {b : UInt8} (hspace : isSpace b = false)
    (hother : b ≠ 0x22 ∧ b ≠ 0x5b ∧ b ≠ 0x7b) (rest : Text) (steps : Nat) :
    readValue? (steps + 1) (b :: rest) = readScalar? (b :: rest) := by
  rw [readValue?, skipSpace_cons hspace]
  simp only [if_neg hother.1, if_neg hother.2.1, if_neg hother.2.2]

/-- A number is read from its own bytes. -/
theorem WritesNumber.readValue? {t rest : Text} {value : Json}
    (h : WritesNumber t value) (hrest : Ends rest) (steps : Nat) :
    readValue? (steps + 1) (t ++ rest) = some (value, rest) := by
  have hread := h.readNumber? hrest
  obtain ⟨b, tail, rfl, hb⟩ := h.exists_eq_cons
  obtain ⟨hspace, -, hquote, hbracket, hbrace, hn, ht, hf, -⟩ :=
    ne_of_startsNumber hb
  rw [List.cons_append] at hread ⊢
  have hnull : after? (text "null") (b :: (tail ++ rest)) = none :=
    after?_of_ne hn _ _
  have htrue : after? (text "true") (b :: (tail ++ rest)) = none :=
    after?_of_ne ht _ _
  have hfalse : after? (text "false") (b :: (tail ++ rest)) = none :=
    after?_of_ne hf _ _
  rw [readValue?_scalar hspace ⟨hquote, hbracket, hbrace⟩, readScalar?, hnull,
    htrue, hfalse]
  exact hread

theorem readValue?_string {t : Text} (h : Utf8.isWellFormed t = true)
    (rest : Text) (steps : Nat) :
    readValue? (steps + 1) (renderText t ++ rest) = some (.string t, rest) := by
  have htext : renderText t ++ rest = 0x22 ::
      (t.flatMap escapeByte ++ 0x22 :: rest) := by
    rw [renderText, List.append_assoc]
    rfl
  rw [htext, readValue?, skipSpace_cons rfl]
  simp only [if_true, readText?_escaped h]
  rfl

/-! ## One step of a reader -/

section
variable {t t' rest rest' key : Text} {value : Json} {steps : Nat}

theorem readValue?_array (h : expect? 0x5d t = none) :
    readValue? (steps + 1) (0x5b :: t) =
      (readItems? steps t).map fun (items, rest) => (.array items, rest) := by
  rw [readValue?, skipSpace_cons rfl]
  simp only [h]
  cases readItems? steps t <;> rfl

theorem readValue?_object (h : expect? 0x7d t = none) :
    readValue? (steps + 1) (0x7b :: t) =
      (readEntries? steps t).map fun (entries, rest) =>
        (ofEntries entries, rest) := by
  rw [readValue?, skipSpace_cons rfl]
  simp only [h]
  cases readEntries? steps t <;> rfl

theorem readItems?_last (h : readValue? steps t = some (value, 0x5d :: rest)) :
    readItems? (steps + 1) t = some ([value], rest) := by
  have hcomma : expect? Text.comma (0x5d :: rest) = none :=
    expect?_of_ne rfl (by decide) rest
  have hend : expect? 0x5d (0x5d :: rest) = some rest := expect?_self rfl rest
  simp only [readItems?, h, hcomma, hend, Option.bind_eq_bind, Option.bind_some,
    Option.pure_def]

theorem readItems?_cons {more : List Json}
    (h : readValue? steps t = some (value, Text.comma :: rest))
    (hmore : readItems? steps rest = some (more, rest')) :
    readItems? (steps + 1) t = some (value :: more, rest') := by
  have hcomma : expect? Text.comma (Text.comma :: rest) = some rest :=
    expect?_self rfl rest
  simp only [readItems?, h, hcomma, hmore, Option.bind_eq_bind,
    Option.bind_some, Option.pure_def]

theorem readEntries?_last (hkey : readText? t = some (key, 0x3a :: t'))
    (h : readValue? steps t' = some (value, 0x7d :: rest)) :
    readEntries? (steps + 1) (0x22 :: t) = some ([(key, value)], rest) := by
  have hquote : expect? 0x22 (0x22 :: t) = some t := expect?_self rfl t
  have hcolon : expect? 0x3a (0x3a :: t') = some t' := expect?_self rfl t'
  have hcomma : expect? Text.comma (0x7d :: rest) = none :=
    expect?_of_ne rfl (by decide) rest
  have hend : expect? 0x7d (0x7d :: rest) = some rest := expect?_self rfl rest
  simp only [readEntries?, hquote, hkey, hcolon, h, hcomma, hend,
    Option.bind_eq_bind, Option.bind_some, Option.pure_def]

theorem readEntries?_cons {more : List (Text × Json)}
    (hkey : readText? t = some (key, 0x3a :: t'))
    (h : readValue? steps t' = some (value, Text.comma :: rest))
    (hmore : readEntries? steps rest = some (more, rest')) :
    readEntries? (steps + 1) (0x22 :: t) =
      some ((key, value) :: more, rest') := by
  have hquote : expect? 0x22 (0x22 :: t) = some t := expect?_self rfl t
  have hcolon : expect? 0x3a (0x3a :: t') = some t' := expect?_self rfl t'
  have hcomma : expect? Text.comma (Text.comma :: rest) = some rest :=
    expect?_self rfl rest
  simp only [readEntries?, hquote, hkey, hcolon, h, hcomma, hmore,
    Option.bind_eq_bind, Option.bind_some, Option.pure_def]

end

/-! ## Values -/

theorem renderItems_cons (item next : Json) (rest : List Json) :
    renderItems (item :: next :: rest) =
      item.render ++ text "," ++ renderItems (next :: rest) :=
  rfl

theorem renderEntries_cons (key : Text) (value : Json) (next : Text × Json)
    (rest : List (Text × Json)) :
    renderEntries ((key, value) :: next :: rest) =
      renderText key ++ text ":" ++ value.render ++ text ","
        ++ renderEntries (next :: rest) :=
  rfl

theorem startsValue_renderItems {items : List Json} (hne : items ≠ []) :
    StartsValue (renderItems items) := by
  cases items with
  | nil => exact absurd rfl hne
  | cons item rest =>
    cases rest with
    | nil => exact startsValue_render item
    | cons next rest =>
      rw [renderItems_cons, List.append_assoc]
      exact (startsValue_render item).append _

theorem expect?_renderEntries {entries : List (Text × Json)}
    (hne : entries ≠ []) (rest : Text) :
    expect? 0x7d (renderEntries entries ++ rest) = none := by
  have hquote : ∀ key tail, expect? 0x7d (renderText key ++ tail) = none :=
    fun _ _ => expect?_of_ne rfl (by decide) _
  cases entries with
  | nil => exact absurd rfl hne
  | cons entry entries =>
    cases entries with
    | nil =>
      rw [renderEntries]
      simp only [List.append_assoc, hquote]
    | cons next entries =>
      rw [renderEntries_cons]
      simp only [List.append_assoc, hquote]

theorem ends_separator {b : UInt8} (h : b = Text.comma ∨ b = 0x5d ∨ b = 0x7d)
    (rest : Text) :
    Ends (b :: rest) := by
  rcases h with rfl | rfl | rfl
  · exact ends_cons rfl (by decide) rfl rest
  · exact ends_cons rfl (by decide) rfl rest
  · exact ends_cons rfl (by decide) rfl rest

mutual

/-- A written value is read from its own bytes. -/
theorem readValue?_render :
    ∀ v : Json, v.isPrintable = true → ∀ (steps : Nat) {rest : Text},
    v.render.length ≤ steps + 1 → Ends rest →
      readValue? (steps + 1) (v.render ++ rest) = some (v.normal, rest)
  | .null, _, _, _, _, _ => rfl
  | .bool true, _, _, _, _, _ => rfl
  | .bool false, _, _, _, _, _ => rfl
  | .unsigned n, _, steps, _, _, hrest =>
    (writesNumber_unsigned n).readValue? hrest steps
  | .signed n, _, steps, _, _, hrest => by
    rw [normal]
    split
    · next hn => exact (writesNumber_nonnegative hn).readValue? hrest steps
    · next hn =>
        exact (writesNumber_negative (Int.not_le.mp hn)).readValue? hrest steps
  | .double x, _, steps, rest, _, hrest => by
    rw [normal]
    split
    · next hfinite => exact (writesNumber_double hfinite).readValue? hrest steps
    · next hinfinite =>
      rw [render_double_of_not_finite (Bool.eq_false_iff.mpr hinfinite)]
      rfl
  | .string t, hv, steps, rest, _, _ => readValue?_string hv rest steps
  | .array items, hv, steps, rest, hsteps, _ => by
    by_cases hitems : items = []
    · rw [hitems]
      rfl
    · have htext : (Json.array items).render ++ rest =
          0x5b :: (renderItems items ++ 0x5d :: rest) := by
        rw [render, List.append_assoc]
        rfl
      have hlength : (Json.array items).render.length =
          1 + (renderItems items).length + 1 := by
        rw [render, List.length_append, List.length_append]
        rfl
      obtain ⟨left, rfl⟩ : ∃ left, steps = left + 1 :=
        Nat.exists_eq_add_of_le' (by omega)
      have hread := readItems?_render items hitems hv left rest (by omega)
      rw [htext, readValue?_array
        ((startsValue_renderItems hitems).append _).expect?, hread]
      rfl
  | .object entries, hv, steps, rest, hsteps, _ => by
    by_cases hentries : entries = []
    · rw [hentries]
      rfl
    · have htext : (Json.object entries).render ++ rest =
          0x7b :: (renderEntries entries ++ 0x7d :: rest) := by
        rw [render, List.append_assoc]
        rfl
      have hlength : (Json.object entries).render.length =
          1 + (renderEntries entries).length + 1 := by
        rw [render, List.length_append, List.length_append]
        rfl
      obtain ⟨left, rfl⟩ : ∃ left, steps = left + 1 :=
        Nat.exists_eq_add_of_le' (by omega)
      have hread := readEntries?_render entries hentries hv left rest (by omega)
      rw [htext, readValue?_object (expect?_renderEntries hentries _), hread]
      rfl

theorem readItems?_render :
    ∀ (items : List Json), items ≠ [] → itemsPrintable items = true →
    ∀ (steps : Nat) (rest : Text), (renderItems items).length ≤ steps →
      readItems? (steps + 1) (renderItems items ++ 0x5d :: rest) =
        some (normalItems items, rest)
  | [], hne, _, _, _, _ => absurd rfl hne
  | [item], _, hitems, steps, rest, hsteps => by
    have hitem : item.isPrintable = true := (Bool.and_eq_true_iff.mp hitems).1
    have hpos := (startsValue_render item).length_pos
    rw [renderItems] at hsteps ⊢
    obtain ⟨left, rfl⟩ : ∃ left, steps = left + 1 :=
      Nat.exists_eq_add_of_le' (by omega)
    exact readItems?_last
      (readValue?_render item hitem left hsteps (ends_separator (by simp) rest))
  | item :: next :: items, _, hitems, steps, rest, hsteps => by
    obtain ⟨hitem, hrest⟩ := Bool.and_eq_true_iff.mp hitems
    have hpos := (startsValue_render item).length_pos
    have hlength : (renderItems (item :: next :: items)).length =
        item.render.length + 1 + (renderItems (next :: items)).length := by
      rw [renderItems_cons, List.length_append, List.length_append]
      rfl
    have htext : renderItems (item :: next :: items) ++ 0x5d :: rest =
        item.render ++ Text.comma ::
          (renderItems (next :: items) ++ 0x5d :: rest) := by
      rw [renderItems_cons, List.append_assoc, List.append_assoc]
      rfl
    obtain ⟨left, rfl⟩ : ∃ left, steps = left + 1 :=
      Nat.exists_eq_add_of_le' (by omega)
    rw [htext]
    exact readItems?_cons
      (readValue?_render item hitem left (by omega)
        (ends_separator (by simp) _))
      (readItems?_render (next :: items) nofun hrest left rest (by omega))

theorem readEntries?_render : ∀ (entries : List (Text × Json)), entries ≠ [] →
    entriesPrintable entries = true → ∀ (steps : Nat) (rest : Text),
      (renderEntries entries).length ≤ steps →
      readEntries? (steps + 1) (renderEntries entries ++ 0x7d :: rest) =
        some (normalEntries entries, rest)
  | [], hne, _, _, _, _ => absurd rfl hne
  | [(key, value)], _, hentries, steps, rest, hsteps => by
    obtain ⟨hentry, -⟩ := Bool.and_eq_true_iff.mp hentries
    obtain ⟨hkey, hvalue⟩ := Bool.and_eq_true_iff.mp hentry
    have hpos := (startsValue_render value).length_pos
    have hlength : (renderEntries [(key, value)]).length =
        (renderText key).length + 1 + value.render.length := by
      rw [renderEntries, List.length_append, List.length_append]
      rfl
    have htext : renderEntries [(key, value)] ++ 0x7d :: rest =
        0x22 ::
          (key.flatMap escapeByte ++ 0x22 ::
            (0x3a :: (value.render ++ 0x7d :: rest))) := by
      rw [renderEntries, renderText, List.append_assoc, List.append_assoc,
        List.append_assoc, List.append_assoc]
      rfl
    obtain ⟨left, rfl⟩ : ∃ left, steps = left + 1 :=
      Nat.exists_eq_add_of_le' (by omega)
    rw [htext]
    exact readEntries?_last (readText?_escaped hkey _)
      (readValue?_render value hvalue left (by omega)
        (ends_separator (by simp) rest))
  | (key, value) :: next :: entries, _, hentries, steps, rest, hsteps => by
    obtain ⟨hentry, hrest⟩ := Bool.and_eq_true_iff.mp hentries
    obtain ⟨hkey, hvalue⟩ := Bool.and_eq_true_iff.mp hentry
    have hpos := (startsValue_render value).length_pos
    have hlength : (renderEntries ((key, value) :: next :: entries)).length =
        (renderText key).length + 1 + value.render.length + 1 +
          (renderEntries (next :: entries)).length := by
      rw [renderEntries_cons, List.length_append, List.length_append,
        List.length_append, List.length_append]
      rfl
    have htext :
        renderEntries ((key, value) :: next :: entries) ++ 0x7d :: rest =
        0x22 :: (key.flatMap escapeByte ++ 0x22 :: (0x3a :: (value.render ++
          Text.comma ::
            (renderEntries (next :: entries) ++ 0x7d :: rest)))) := by
      rw [renderEntries_cons, renderText]
      simp only [List.append_assoc]
      rfl
    obtain ⟨left, rfl⟩ : ∃ left, steps = left + 1 :=
      Nat.exists_eq_add_of_le' (by omega)
    rw [htext]
    exact readEntries?_cons (readText?_escaped hkey _)
      (readValue?_render value hvalue left (by omega)
        (ends_separator (by simp) _))
      (readEntries?_render (next :: entries) nofun hrest left rest (by omega))

end

/-- The value of a text that holds one value and nothing else but spaces. -/
def readWhole? (t : Text) : Option Json :=
  match readValue? (t.length + 1) (dropMark t) with
  | some (value, rest) => if (skipSpace rest).isEmpty then some value else none
  | none => none

/-- A written value is read back, and nothing is left over. -/
theorem readWhole?_render {v : Json} (hv : v.isPrintable = true) :
    readWhole? v.render = some v.normal := by
  have hmark : dropMark v.render = v.render := by
    obtain ⟨b, tail, hrender, -, -, hne⟩ := startsValue_render v
    rw [dropMark, hrender, after?_of_ne hne]
    rfl
  have hread := readValue?_render v hv v.render.length (Nat.le_succ _) ends_nil
  rw [List.append_nil] at hread
  rw [readWhole?, hmark, hread]
  rfl

end Json
end FleetControl

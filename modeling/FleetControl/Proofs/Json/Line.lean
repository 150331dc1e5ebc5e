import FleetControl.Json.Printer

/-!
# A written value stands on one line

Numbers are written with digits, points, signs and an `e`, and within
strings all bytes below the space are escaped, so that no byte of a written
value ends a line.
-/

namespace FleetControl

open Text

/-! ## Numbers -/

theorem newline_ne_digit (n : Nat) : newline ≠ digit n := by
  intro h
  have hdigit := congrArg UInt8.toNat h
  rw [digit, UInt8.toNat_ofNat'] at hdigit
  simp only [newline, UInt8.reduceToNat] at hdigit
  omega

theorem newline_notMem_ofNat (n : Nat) : newline ∉ Text.ofNat n := by
  induction n using Text.ofNat.induct with
  | case1 n hlt =>
    rw [Text.ofNat, if_pos hlt]
    simp [newline_ne_digit]
  | case2 n hnot ih =>
    rw [Text.ofNat, if_neg hnot]
    simp [newline_ne_digit, ih]

theorem newline_notMem_ofInt (n : Int) : newline ∉ Text.ofInt n := by
  have hsign : newline ∉ text "-" := by decide
  cases n with
  | ofNat n => exact newline_notMem_ofNat n
  | negSucc n =>
    rw [Text.ofInt, List.mem_append, not_or]
    exact ⟨hsign, newline_notMem_ofNat (n + 1)⟩

namespace Json

theorem newline_notMem_significantDigits (n : Nat) :
    newline ∉ significantDigits n := by
  intro h
  have hreverse := List.mem_reverse.mp h
  have hdropped := (List.dropWhile_suffix _).subset hreverse
  exact newline_notMem_ofNat n (List.mem_reverse.mp hdropped)

theorem newline_notMem_renderExponent (e : Int) :
    newline ∉ renderExponent e := by
  have hdigits := newline_notMem_ofNat e.natAbs
  have hsign : newline ∉ (if e < 0 then text "-" else text "+") := by
    split <;> decide
  have hzero : newline ∉ (if e.natAbs < 10 then text "0" else []) := by
    split <;> decide
  simp only [renderExponent, List.mem_append, not_or]
  exact ⟨⟨hsign, hzero⟩, hdigits⟩

theorem newline_notMem_renderDigits {digits : Text} (h : newline ∉ digits)
    (point : Int) :
    newline ∉ renderDigits digits point := by
  have htake : ∀ n, newline ∉ digits.take n :=
    fun n hmem => h (List.mem_of_mem_take hmem)
  have hdrop : ∀ n, newline ∉ digits.drop n :=
    fun n hmem => h (List.mem_of_mem_drop hmem)
  have hzeros : ∀ n, newline ∉ List.replicate n (0x30 : UInt8) := by
    intro n hmem
    cases (List.mem_replicate.mp hmem).2
  have hpoint : newline ∉ text "." := by decide
  have hwhole : newline ∉ text ".0" := by decide
  have hpart : newline ∉ text "0." := by decide
  have hpower : newline ∉ text "e" := by decide
  have hexponent := newline_notMem_renderExponent (point - 1)
  unfold renderDigits
  split
  · dsimp only
    split
    · simp [h, hzeros, hwhole]
    · simp [htake, hdrop, hpoint]
  · split
    · simp [h, hzeros, hpart]
    · split
      · simp [htake, hpower, hexponent]
      · have htail : newline ∉ digits.tail :=
          fun hmem => h (List.mem_of_mem_tail hmem)
        simp [htake, htail, hpoint, hpower, hexponent]

theorem newline_notMem_renderDouble (x : Binary64) :
    newline ∉ renderDouble x := by
  have hsign : newline ∉ (if x.negative then text "-" else []) := by
    split <;> decide
  unfold renderDouble
  split
  · decide
  · dsimp only
    rw [List.mem_append, not_or]
    refine ⟨hsign, ?_⟩
    split
    · decide
    · exact newline_notMem_renderDigits (newline_notMem_significantDigits _) _

/-! ## Strings -/

theorem newline_ne_hexDigit (n : Nat) (h : n < 16) : newline ≠ hexDigit n := by
  intro heq
  have hdigit := congrArg UInt8.toNat heq
  unfold hexDigit at hdigit
  split at hdigit
  · rw [UInt8.toNat_ofNat'] at hdigit
    simp only [newline, UInt8.reduceToNat] at hdigit
    omega
  · rw [UInt8.toNat_ofNat'] at hdigit
    simp only [newline, UInt8.reduceToNat] at hdigit
    omega

theorem newline_notMem_hexByte (b : UInt8) : newline ∉ hexByte b := by
  have hb := b.toNat_lt
  have hhigh := newline_ne_hexDigit (b.toNat / 16) (by omega)
  have hlow := newline_ne_hexDigit (b.toNat % 16) (by omega)
  simp [hexByte, hhigh, hlow]

/-- A byte that ends a line is written with a letter. -/
theorem newline_notMem_escapeByte (b : UInt8) : newline ∉ escapeByte b := by
  have hquote : newline ∉ text "\\u00" := by decide
  unfold escapeByte
  split
  · next letter hletter =>
    have hne : newline ≠ letter := by
      rintro rfl
      simp only [shortEscape?] at hletter
      repeat' split at hletter
      all_goals cases hletter
    rw [List.mem_cons, List.mem_singleton, not_or]
    exact ⟨by decide, hne⟩
  · split
    · simp [hquote, newline_notMem_hexByte]
    · next hprinted =>
      intro hmem
      rw [← List.mem_singleton.mp hmem] at hprinted
      exact hprinted (by decide)

theorem newline_notMem_renderText (t : Text) : newline ∉ renderText t := by
  have hquote : newline ∉ text "\"" := by decide
  simp [renderText, hquote, newline_notMem_escapeByte]

/-! ## Values -/

mutual

/-- No byte of a written value ends a line. -/
theorem newline_notMem_render : ∀ v : Json, newline ∉ v.render
  | .null => by decide
  | .bool true => by decide
  | .bool false => by decide
  | .unsigned n => newline_notMem_ofNat n.toNat
  | .signed n => newline_notMem_ofInt n.toInt
  | .double x => newline_notMem_renderDouble x
  | .string t => newline_notMem_renderText t
  | .array items => by
    have hitems := newline_notMem_renderItems items
    have hopen : newline ∉ text "[" := by decide
    have hclose : newline ∉ text "]" := by decide
    simp [render, hopen, hclose, hitems]
  | .object entries => by
    have hentries := newline_notMem_renderEntries entries
    have hopen : newline ∉ text "\x7b" := by decide
    have hclose : newline ∉ text "\x7d" := by decide
    simp [render, hopen, hclose, hentries]

theorem newline_notMem_renderItems :
    ∀ items : List Json, newline ∉ renderItems items
  | [] => by simp [renderItems]
  | [item] => newline_notMem_render item
  | item :: next :: rest => by
    have hitem := newline_notMem_render item
    have hrest := newline_notMem_renderItems (next :: rest)
    have hcomma : newline ∉ text "," := by decide
    simp [renderItems, hitem, hrest, hcomma]

theorem newline_notMem_renderEntries : ∀ entries : List (Text × Json),
    newline ∉ renderEntries entries
  | [] => by simp [renderEntries]
  | [(key, value)] => by
    have hvalue := newline_notMem_render value
    have hcolon : newline ∉ text ":" := by decide
    simp [renderEntries, newline_notMem_renderText, hvalue, hcolon]
  | (key, value) :: next :: rest => by
    have hvalue := newline_notMem_render value
    have hrest := newline_notMem_renderEntries (next :: rest)
    have hcolon : newline ∉ text ":" := by decide
    have hcomma : newline ∉ text "," := by decide
    simp [renderEntries, newline_notMem_renderText, hvalue, hrest, hcolon,
      hcomma]

end

end Json
end FleetControl

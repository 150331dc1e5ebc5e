import FleetControl.Json.Printer
import FleetControl.Json.Reader
import FleetControl.Proofs.Text.Hex

/-!
# Written strings are read back

Each byte of a string is written as one piece of its own: as itself, as a letter
after a backslash, or as an escaped unit below the space.  No such unit is a
surrogate, so the pieces are joined to the bytes again.
-/

namespace FleetControl
namespace Json

/-- The piece that a written byte is read as. -/
def pieceOf (b : UInt8) : Piece :=
  if (shortEscape? b).isNone && b < 0x20 then .unit b.toNat else .byte b

theorem hexUnit?_hexByte (b : UInt8) :
    hexUnit? 0x30 0x30 (Text.hexDigit (b.toNat / 16))
      (Text.hexDigit (b.toNat % 16)) = some b.toNat := by
  have hb := b.toNat_lt
  have hhigh := Text.hexValue?_hexDigit (n := b.toNat / 16) (by omega)
  have hlow := Text.hexValue?_hexDigit (n := b.toNat % 16) (by omega)
  have hzero : Text.hexValue? 0x30 = some 0 := rfl
  simp only [hexUnit?, hzero, hhigh, hlow, Option.bind_eq_bind,
    Option.bind_some, Option.pure_def, Option.some.injEq]
  omega

theorem unescape?_of_shortEscape? {b letter : UInt8}
    (h : shortEscape? b = some letter) :
    letter ≠ 0x75 ∧ unescape? letter = some b := by
  unfold shortEscape? at h
  repeat' split at h
  all_goals cases h
  all_goals
    subst b
    decide

theorem ne_of_shortEscape? {b : UInt8} (h : shortEscape? b = none) :
    b ≠ 0x22 ∧ b ≠ 0x5c := by
  constructor
  · rintro rfl
    cases h
  · rintro rfl
    cases h

theorem pieces?_quote (rest : Text) :
    pieces? (0x22 :: rest) = some ([], rest) := by
  rw [pieces?.eq_def]
  exact if_pos rfl

theorem pieces?_raw {b : UInt8} (hquote : b ≠ 0x22) (hbackslash : b ≠ 0x5c)
    (hprinted : ¬ b < 0x20) (rest : Text) :
    pieces? (b :: rest) = (pieces? rest).map fun (more, rest) =>
      (.byte b :: more, rest) := by
  rw [pieces?.eq_def]
  simp only [if_neg hquote, if_neg hprinted, if_neg hbackslash]
  cases pieces? rest with
  | none => rfl
  | some read => rfl

theorem backslash_printed :
    ¬ (0x5c : UInt8) = 0x22 ∧ ¬ (0x5c : UInt8) < 0x20 := by
  decide

theorem pieces?_letter {letter b : UInt8} (hne : letter ≠ 0x75)
    (h : unescape? letter = some b) (rest : Text) :
    pieces? (0x5c :: letter :: rest) =
      (pieces? rest).map fun (more, rest) => (.byte b :: more, rest) := by
  rw [pieces?.eq_def]
  simp only [if_neg backslash_printed.1, if_neg backslash_printed.2, if_true,
    if_neg hne, h]
  cases pieces? rest with
  | none => rfl
  | some read => rfl

theorem pieces?_unit {h1 h2 h3 h4 : UInt8} {n : Nat}
    (h : hexUnit? h1 h2 h3 h4 = some n) (rest : Text) :
    pieces? (0x5c :: 0x75 :: h1 :: h2 :: h3 :: h4 :: rest) =
      (pieces? rest).map fun (more, rest) => (.unit n :: more, rest) := by
  rw [pieces?.eq_def]
  simp only [if_neg backslash_printed.1, if_neg backslash_printed.2, if_true, h]
  cases pieces? rest with
  | none => rfl
  | some read => rfl

/-- A written byte is read as its piece. -/
theorem pieces?_escapeByte (b : UInt8) (rest : Text) :
    pieces? (escapeByte b ++ rest) =
      (pieces? rest).map fun (more, rest) => (pieceOf b :: more, rest) := by
  unfold escapeByte
  cases hescape : shortEscape? b with
  | some letter =>
    obtain ⟨hne, hletter⟩ := unescape?_of_shortEscape? hescape
    have hpiece : pieceOf b = .byte b := by simp [pieceOf, hescape]
    rw [hpiece]
    exact pieces?_letter hne hletter rest
  | none =>
    dsimp only
    split
    · next hcontrol =>
      have hpiece : pieceOf b = .unit b.toNat := by
        simp [pieceOf, hescape, hcontrol]
      rw [hpiece]
      exact pieces?_unit (hexUnit?_hexByte b) rest
    · next hprinted =>
      have hpiece : pieceOf b = .byte b := by simp [pieceOf, hprinted]
      obtain ⟨hquote, hbackslash⟩ := ne_of_shortEscape? hescape
      rw [hpiece]
      exact pieces?_raw hquote hbackslash hprinted rest

theorem pieces?_escaped (t rest : Text) :
    pieces? (t.flatMap escapeByte ++ 0x22 :: rest) =
      some (t.map pieceOf, rest) := by
  induction t with
  | nil => exact pieces?_quote rest
  | cons b t ih =>
    rw [List.flatMap_cons, List.append_assoc, pieces?_escapeByte, ih]
    rfl

theorem join?_byte (b : UInt8) (rest : List Piece) :
    join? (.byte b :: rest) = (join? rest).map (b :: ·) := by
  rw [join?]
  cases join? rest with
  | none => rfl
  | some t => rfl

/-- A unit that is no surrogate is joined to what follows, whatever that is. -/
theorem join?_unit {n : Nat} (hn : n < 0x80) (rest : List Piece) :
    join? (.unit n :: rest) = (join? rest).map (UInt8.ofNat n :: ·) := by
  have hhigh : isHighSurrogate n = false := by
    simp [isHighSurrogate]
    omega
  have hlow : isLowSurrogate n = false := by
    simp [isLowSurrogate]
    omega
  have hencode : Utf8.encode n = [UInt8.ofNat n] := if_pos hn
  have hmore : (do return Utf8.encode n ++ (← join? rest)) =
      (join? rest).map (UInt8.ofNat n :: ·) := by
    rw [hencode]
    cases join? rest with
    | none => rfl
    | some t => rfl
  rw [← hmore, join?.eq_def]
  cases rest with
  | nil => simp only [hhigh, hlow, Bool.or_false, Bool.false_eq_true, if_false]
  | cons piece rest =>
    cases piece with
    | byte b =>
      simp only [hhigh, hlow, Bool.or_false, Bool.false_eq_true, if_false]
    | unit m => simp only [hhigh, hlow, Bool.false_eq_true, if_false]

theorem join?_pieceOf (t : Text) : join? (t.map pieceOf) = some t := by
  induction t with
  | nil => rfl
  | cons b t ih =>
    rw [List.map_cons, pieceOf]
    split
    · next hunit =>
      have hlt : b.toNat < 0x80 := by
        have hcontrol := (Bool.and_eq_true_iff.mp hunit).2
        rw [decide_eq_true_eq, UInt8.lt_iff_toNat_lt] at hcontrol
        exact Nat.lt_trans hcontrol (by decide)
      rw [join?_unit hlt, ih, UInt8.ofNat_toNat]
      rfl
    · rw [join?_byte, ih]
      rfl

/-- A well-formed string is read back. -/
theorem readText?_escaped {t : Text} (h : Utf8.isWellFormed t = true)
    (rest : Text) :
    readText? (t.flatMap escapeByte ++ 0x22 :: rest) = some (t, rest) := by
  have hpieces := pieces?_escaped t rest
  have hjoin := join?_pieceOf t
  simp only [readText?, hpieces, hjoin, h, Option.bind_eq_bind,
    Option.bind_some, if_true]

end Json
end FleetControl

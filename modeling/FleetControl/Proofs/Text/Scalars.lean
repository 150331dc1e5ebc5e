import FleetControl.Proofs.Text.Utf8

/-!
# Scalar values and the scan that finds them

A text is well formed just if it is a concatenation of sequences of scalar
values, and the same verdict comes from a scan by positions.  `Utf8.scan?` looks
up single bytes, as one does in an array: the lead of a sequence tells how many
bytes follow it and in which range the first of them lies, and nothing of the
sequence is looked up unless the text is long enough for it.  A look-up outside
of the text would leave the scan without an answer; `scan?_eq` says that it
always has one.
-/

namespace FleetControl
namespace Utf8

variable {a b c d : UInt8} {rest : Text}

/-! ## Encoding -/

/-- A scalar value is encoded as the character that it is. -/
theorem encode_toNat (c : Char) : encode c.toNat = String.utf8EncodeChar c := by
  have hbound : c.val.toNat < 0x110000 := by
    rcases c.valid with hlow | ⟨-, hhigh⟩
    · exact Nat.lt_trans hlow (by decide)
    · exact hhigh
  unfold String.utf8EncodeChar encode
  rw [Char.toNat]
  generalize c.val.toNat = v at hbound
  dsimp only
  rcases Nat.lt_or_ge v 0x80 with hone | hone
  · rw [if_pos hone, if_pos (Nat.le_of_lt_succ hone)]
  rw [if_neg (Nat.not_lt_of_le hone), if_neg (Nat.not_le_of_lt hone)]
  rcases Nat.lt_or_ge v 0x800 with htwo | htwo
  · have hlead : v / 64 < 32 := by omega
    rw [if_pos htwo, if_pos (Nat.le_of_lt_succ htwo), Nat.mod_eq_of_lt hlead,
      Nat.add_comm 0xc0, Nat.add_comm 0x80]
  rw [if_neg (Nat.not_lt_of_le htwo), if_neg (Nat.not_le_of_lt htwo)]
  rcases Nat.lt_or_ge v 0x10000 with hthree | hthree
  · have hlead : v / 4096 < 16 := by omega
    rw [if_pos hthree, if_pos (Nat.le_of_lt_succ hthree),
      Nat.mod_eq_of_lt hlead, Nat.add_comm 0xe0, Nat.add_comm 0x80,
      Nat.add_comm 0x80]
  · have hlead : v / 262144 < 8 := by omega
    rw [if_neg (Nat.not_lt_of_le hthree), if_neg (Nat.not_le_of_lt hthree),
      Nat.mod_eq_of_lt hlead, Nat.add_comm 0xf0, Nat.add_comm 0x80,
      Nat.add_comm 0x80, Nat.add_comm 0x80]

/-- The sequence of a scalar value is complete. -/
theorem isWellFormed_encode {n : Nat} (hn : IsScalar n) (rest : Text) :
    isWellFormed (encode n ++ rest) = isWellFormed rest := by
  have hvalid : n.isValidChar := by
    rcases hn with hlow | ⟨hlow, hhigh⟩
    · exact .inl hlow
    · exact .inr ⟨Nat.lt_of_lt_of_le (by decide) hlow, hhigh⟩
  have hvalue : (Char.ofNatAux n hvalid).toNat = n := rfl
  rw [← hvalue, encode_toNat, isWellFormed_utf8EncodeChar]

/-! ## Decoding -/

theorem ofNat_of_eq_toNat {n : Nat} (h : n = a.toNat) : UInt8.ofNat n = a := by
  rw [h, UInt8.ofNat_toNat]

theorem exists_encode_of_ascii (h : a < 0x80) :
    ∃ n, IsScalar n ∧ encode n = [a] := by
  have hlt : a.toNat < 0x80 := UInt8.lt_iff_toNat_lt.mp h
  refine ⟨a.toNat, .inl (by omega), ?_⟩
  rw [encode, if_pos hlt, UInt8.ofNat_toNat]

theorem exists_encode_of_isPair (h : isPair a b = true) :
    ∃ n, IsScalar n ∧ encode n = [a, b] := by
  have hranges := isPair_iff.mp h
  refine ⟨(a.toNat - 0xc0) * 64 + (b.toNat - 0x80), .inl (by omega), ?_⟩
  rw [encode, if_neg (by omega), if_pos (by omega),
    ofNat_of_eq_toNat (a := a) (by omega),
    ofNat_of_eq_toNat (a := b) (by omega)]

theorem exists_encode_of_isTriple (h : isTriple a b c = true) :
    ∃ n, IsScalar n ∧ encode n = [a, b, c] := by
  have hranges := isTriple_iff.mp h
  refine ⟨(a.toNat - 0xe0) * 4096 + (b.toNat - 0x80) * 64 + (c.toNat - 0x80),
    ?_, ?_⟩
  · rw [IsScalar]
    omega
  · rw [encode, if_neg (by omega), if_neg (by omega), if_pos (by omega),
      ofNat_of_eq_toNat (a := a) (by omega),
      ofNat_of_eq_toNat (a := b) (by omega),
      ofNat_of_eq_toNat (a := c) (by omega)]

theorem exists_encode_of_isQuadruple (h : isQuadruple a b c d = true) :
    ∃ n, IsScalar n ∧ encode n = [a, b, c, d] := by
  have hranges := isQuadruple_iff.mp h
  refine ⟨(a.toNat - 0xf0) * 262144 + (b.toNat - 0x80) * 4096 +
    (c.toNat - 0x80) * 64 + (d.toNat - 0x80), .inr (by omega), ?_⟩
  rw [encode, if_neg (by omega), if_neg (by omega), if_neg (by omega),
    ofNat_of_eq_toNat (a := a) (by omega),
    ofNat_of_eq_toNat (a := b) (by omega),
    ofNat_of_eq_toNat (a := c) (by omega),
    ofNat_of_eq_toNat (a := d) (by omega)]

/-- The text is the sequences of scalar values, one after the other. -/
def EncodesScalars (t : Text) : Prop :=
  ∃ scalars : List Nat, (∀ n ∈ scalars, IsScalar n) ∧ scalars.flatMap encode = t

theorem EncodesScalars.append {sequence : Text} (h : EncodesScalars rest)
    (hsequence : ∃ n, IsScalar n ∧ encode n = sequence) :
    EncodesScalars (sequence ++ rest) := by
  obtain ⟨scalars, hscalars, rfl⟩ := h
  obtain ⟨n, hn, rfl⟩ := hsequence
  exact ⟨n :: scalars, List.forall_mem_cons.mpr ⟨hn, hscalars⟩, rfl⟩

/-- The well-formed texts are the concatenations of sequences of
scalar values. -/
theorem isWellFormed_iff (t : Text) :
    isWellFormed t = true ↔ EncodesScalars t := by
  constructor
  · intro h
    fun_induction isWellFormed t with
    | case1 => exact ⟨[], List.forall_mem_nil _, rfl⟩
    | case2 a rest hascii ih =>
      exact (ih h).append (exists_encode_of_ascii hascii)
    | case3 => cases h
    | case4 a ha b rest hpair ih =>
      exact (ih h).append (exists_encode_of_isPair hpair)
    | case5 => cases h
    | case6 a ha b hpair c rest htriple ih =>
      exact (ih h).append (exists_encode_of_isTriple htriple)
    | case7 => cases h
    | case8 a ha b hpair c htriple d rest ih =>
      rw [Bool.and_eq_true] at h
      exact (ih h.2).append (exists_encode_of_isQuadruple h.1)
  · rintro ⟨scalars, hscalars, rfl⟩
    induction scalars with
    | nil => rfl
    | cons n scalars ih =>
      obtain ⟨hn, hothers⟩ := List.forall_mem_cons.mp hscalars
      rw [List.flatMap_cons, isWellFormed_encode hn]
      exact ih hothers

/-! ## Leads -/

/-- What the first byte of a longer sequence asks for: the number of the bytes
that follow it, and the range of the first of these. -/
structure Lead where
  following : Nat
  least : UInt8
  greatest : UInt8

namespace Lead

/-- What a byte above ASCII asks for, if a sequence can begin with it. -/
def of? (a : UInt8) : Option Lead :=
  if 0xc2 ≤ a && a ≤ 0xdf then some ⟨1, 0x80, 0xbf⟩
  else if 0xe0 ≤ a && a ≤ 0xef then
    some ⟨2, if a = 0xe0 then 0xa0 else 0x80, if a = 0xed then 0x9f else 0xbf⟩
  else if 0xf0 ≤ a && a ≤ 0xf4 then
    some ⟨3, if a = 0xf0 then 0x90 else 0x80, if a = 0xf4 then 0x8f else 0xbf⟩
  else none

/-- The byte may be the first one after the lead. -/
def admits (lead : Lead) (b : UInt8) : Bool :=
  lead.least ≤ b && b ≤ lead.greatest

/-- The text begins with the bytes that the lead asks for. -/
def fits (lead : Lead) : Text → Bool
  | [] => false
  | b :: rest =>
    lead.following ≤ rest.length + 1 && lead.admits b &&
      (rest.take (lead.following - 1)).all isContinuation

variable {lead : Lead}

theorem one_le_following (h : of? a = some lead) : 1 ≤ lead.following := by
  unfold of? at h
  repeat' split at h
  all_goals cases h
  all_goals decide

theorem fits_of_length_lt (h : rest.length < lead.following) :
    lead.fits rest = false := by
  cases rest with
  | nil => rfl
  | cons b later =>
    rw [List.length_cons] at h
    have hshort : ¬ lead.following ≤ later.length + 1 := Nat.not_le_of_lt h
    simp [fits, hshort]

theorem of?_of_isPair (h : isPair a b = true) :
    of? a = some ⟨1, 0x80, 0xbf⟩ := by
  simp only [isPair, Bool.and_eq_true] at h
  simp [of?, h]

theorem of?_of_isTriple (h : isTriple a b c = true) :
    of? a = some ⟨2, if a = 0xe0 then 0xa0 else 0x80, if a = 0xed then 0x9f
      else 0xbf⟩ := by
  have hlow := (isTriple_iff.mp h).1
  have hpair : ¬ a ≤ 0xdf := by
    simp only [UInt8.le_iff_toNat_le, UInt8.reduceToNat]
    omega
  simp only [isTriple, Bool.and_eq_true] at h
  simp [of?, h, hpair]

theorem of?_of_isQuadruple (h : isQuadruple a b c d = true) :
    of? a = some ⟨3, if a = 0xf0 then 0x90 else 0x80, if a = 0xf4 then 0x8f
      else 0xbf⟩ := by
  have hlow := (isQuadruple_iff.mp h).1
  have hpair : ¬ a ≤ 0xdf := by
    simp only [UInt8.le_iff_toNat_le, UInt8.reduceToNat]
    omega
  have htriple : ¬ a ≤ 0xef := by
    simp only [UInt8.le_iff_toNat_le, UInt8.reduceToNat]
    omega
  simp only [isQuadruple, Bool.and_eq_true] at h
  simp [of?, h, hpair, htriple]

/-- With the bytes that it asks for, a lead makes a sequence of two, three or
four bytes. -/
theorem exists_of_fits (h : of? a = some lead) (hfits : lead.fits rest = true) :
    (∃ b later, rest = b :: later ∧ isPair a b = true ∧ lead.following = 1) ∨
    (∃ b c later, rest = b :: c :: later ∧ isTriple a b c = true ∧
      lead.following = 2) ∨
    ∃ b c d later, rest = b :: c :: d :: later ∧ isQuadruple a b c d = true ∧
      lead.following = 3 := by
  unfold of? at h
  split at h
  · next hrange =>
    cases h
    rcases rest with - | ⟨b, later⟩
    · cases hfits
    · refine .inl ⟨b, later, rfl, ?_, rfl⟩
      simp_all [isPair, isContinuation, fits, admits]
  · split at h
    · next hrange =>
      cases h
      rcases rest with - | ⟨b, - | ⟨c, later⟩⟩
      · cases hfits
      · cases hfits
      · refine .inr (.inl ⟨b, c, later, rfl, ?_, rfl⟩)
        simp_all [isTriple, fits, admits]
    · split at h
      · next hrange =>
        cases h
        rcases rest with - | ⟨b, - | ⟨c, - | ⟨d, later⟩⟩⟩
        · cases hfits
        · cases hfits
        · cases hfits
        · refine .inr (.inr ⟨b, c, d, later, rfl, ?_, rfl⟩)
          simp_all [isQuadruple, fits, admits]
      · cases h

end Lead

/-- A well-formed text that is not empty begins with a complete sequence. -/
theorem isWellFormed_cons_cases (h : isWellFormed (a :: rest) = true) :
    (a < 0x80 ∧ isWellFormed rest = true) ∨
    (∃ b later, rest = b :: later ∧ isPair a b = true ∧
      isWellFormed later = true) ∨
    (∃ b c later, rest = b :: c :: later ∧ isTriple a b c = true ∧
      isWellFormed later = true) ∨
    ∃ b c d later, rest = b :: c :: d :: later ∧ isQuadruple a b c d = true ∧
      isWellFormed later = true := by
  rw [isWellFormed.eq_def] at h
  dsimp only at h
  split at h
  · next ha => exact .inl ⟨ha, h⟩
  · split at h
    · cases h
    · next b later =>
      split at h
      · next hpair => exact .inr (.inl ⟨b, later, rfl, hpair, h⟩)
      · split at h
        · cases h
        · next c later =>
          split at h
          · next htriple =>
              exact .inr (.inr (.inl ⟨b, c, later, rfl, htriple, h⟩))
          · split at h
            · cases h
            · next d later =>
              rw [Bool.and_eq_true] at h
              exact .inr (.inr (.inr ⟨b, c, d, later, rfl, h⟩))

theorem isWellFormed_of_lead {lead : Lead} (ha : ¬ a < 0x80)
    (h : Lead.of? a = some lead) :
    isWellFormed (a :: rest) =
      (lead.fits rest && isWellFormed (rest.drop lead.following)) := by
  rw [Bool.eq_iff_iff, Bool.and_eq_true]
  constructor
  · intro hwell
    rcases isWellFormed_cons_cases hwell with
        ⟨hascii, -⟩ | ⟨b, later, rfl, hpair, hlater⟩ |
      ⟨b, c, later, rfl, htriple, hlater⟩ |
        ⟨b, c, d, later, rfl, hquadruple, hlater⟩
    · exact absurd hascii ha
    · cases h.symm.trans (Lead.of?_of_isPair hpair)
      simp only [isPair, isContinuation, Bool.and_eq_true] at hpair
      exact ⟨by simp [Lead.fits, Lead.admits, hpair], hlater⟩
    · cases h.symm.trans (Lead.of?_of_isTriple htriple)
      simp only [isTriple, Bool.and_eq_true] at htriple
      exact ⟨by simp [Lead.fits, Lead.admits, htriple], hlater⟩
    · cases h.symm.trans (Lead.of?_of_isQuadruple hquadruple)
      simp only [isQuadruple, Bool.and_eq_true] at hquadruple
      exact ⟨by simp [Lead.fits, Lead.admits, hquadruple], hlater⟩
  · rintro ⟨hfits, hlater⟩
    rcases Lead.exists_of_fits h hfits with ⟨b, later, rfl, hpair, hlength⟩ |
      ⟨b, c, later, rfl, htriple, hlength⟩ |
      ⟨b, c, d, later, rfl, hquadruple, hlength⟩
    · rw [hlength] at hlater
      exact (isWellFormed_of_isPair hpair later).trans hlater
    · rw [hlength] at hlater
      exact (isWellFormed_of_isTriple htriple later).trans hlater
    · rw [hlength] at hlater
      exact (isWellFormed_of_isQuadruple hquadruple later).trans hlater

theorem isWellFormed_of_no_lead (ha : ¬ a < 0x80) (h : Lead.of? a = none) :
    isWellFormed (a :: rest) = false := by
  rw [← Bool.not_eq_true]
  intro hwell
  rcases isWellFormed_cons_cases hwell with
      ⟨hascii, -⟩ | ⟨b, later, rfl, hpair, -⟩ |
    ⟨b, c, later, rfl, htriple, -⟩ | ⟨b, c, d, later, rfl, hquadruple, -⟩
  · exact absurd hascii ha
  · cases h.symm.trans (Lead.of?_of_isPair hpair)
  · cases h.symm.trans (Lead.of?_of_isTriple htriple)
  · cases h.symm.trans (Lead.of?_of_isQuadruple hquadruple)

/-! ## The scan by positions -/

/-- Whether the given number of bytes from a position on continue a sequence. -/
def continued? (t : Text) (i : Nat) : Nat → Option Bool
  | 0 => some true
  | count + 1 => do
    let b ← t[i]?
    if isContinuation b then continued? t (i + 1) count else return false

/-- Whether the text is well formed from a position on.  There is no answer
where a byte outside of the text is looked up. -/
def scan? (t : Text) (i : Nat) : Option Bool :=
  if _h : i < t.length then do
    let a ← t[i]?
    if a < 0x80 then scan? t (i + 1)
    else match Lead.of? a with
      | none => return false
      | some lead =>
        if t.length ≤ i + lead.following then return false
        let b ← t[i + 1]?
        if !lead.admits b then return false
        if ← continued? t (i + 2) (lead.following - 1) then
          scan? t (i + lead.following + 1)
        else return false
  else return true
termination_by t.length - i

variable {t : Text} {i : Nat}

theorem continued?_eq {count : Nat} (h : i + count ≤ t.length) :
    continued? t i count =
      some (((t.drop i).take count).all isContinuation) := by
  induction count generalizing i with
  | zero => simp [continued?]
  | succ count ih =>
    have hi : i < t.length := by omega
    have hnext := ih (i := i + 1) (by omega)
    rw [continued?, List.getElem?_eq_getElem hi, List.drop_eq_getElem_cons hi,
      List.take_succ_cons, List.all_cons]
    cases hb : isContinuation t[i] with
    | true => simp [hb, hnext]
    | false => simp [hb]

/-- At every position the scan has an answer, which is about the text
from there on. -/
theorem scan?_eq (h : i ≤ t.length) :
    scan? t i = some (isWellFormed (t.drop i)) := by
  -- On the bytes that are left; each sequence takes at least one of them.
  induction hleft : t.length - i using Nat.strongRecOn generalizing i with
  | _ left ih =>
    rw [scan?]
    split
    · next hi =>
      have hnext (k : Nat) (hk : i < k) (hle : k ≤ t.length) :
          scan? t k = some (isWellFormed (t.drop k)) :=
        ih (t.length - k) (by omega) hle rfl
      rw [List.getElem?_eq_getElem hi, List.drop_eq_getElem_cons hi]
      simp only [Option.bind_eq_bind, Option.bind_some]
      split
      · next hascii =>
          rw [isWellFormed_one hascii, hnext (i + 1) (by omega) (by omega)]
      · next hascii =>
        split
        · next hlead =>
          rw [isWellFormed_of_no_lead hascii hlead]
          rfl
        · next lead hlead =>
          have hpos := Lead.one_le_following hlead
          rw [isWellFormed_of_lead hascii hlead]
          split
          · next hend =>
            rw [Lead.fits_of_length_lt (by rw [List.length_drop]; omega)]
            rfl
          · next hend =>
            have hsecond : i + 1 < t.length := by omega
            have hlength :
                lead.following ≤ (t.drop (i + 1 + 1)).length + 1 := by
              rw [List.length_drop]
              omega
            have hothers : continued? t (i + 2) (lead.following - 1) =
                some (((t.drop (i + 2)).take (lead.following - 1)).all
                  isContinuation) :=
              continued?_eq (by omega)
            have hlater := hnext (i + lead.following + 1) (by omega) (by omega)
            rw [Nat.add_right_comm] at hlater
            rw [List.getElem?_eq_getElem hsecond, List.drop_drop,
              List.drop_eq_getElem_cons hsecond, Lead.fits,
              decide_eq_true hlength, Bool.true_and,
              Option.bind_some, hothers, Option.bind_some, Nat.add_right_comm,
              hlater]
            cases lead.admits t[i + 1] with
            | false => rfl
            | true =>
              cases ((t.drop (i + 2)).take (lead.following - 1)).all
                isContinuation <;> rfl
    · next hi =>
      rw [List.drop_eq_nil_of_le (Nat.le_of_not_lt hi)]
      rfl

end Utf8
end FleetControl

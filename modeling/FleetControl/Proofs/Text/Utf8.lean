import FleetControl.Text.Utf8

/-!
# Texts that are well formed

Concatenation, quoting and the writing of numbers give well-formed texts
again, and so does every string of the program: its bytes are the encodings of
its characters.
-/

namespace FleetControl
namespace Utf8

variable {a b c d : UInt8}

/-! ## Sequences -/

theorem isPair_iff :
    isPair a b = true ↔
      0xc2 ≤ a.toNat ∧ a.toNat ≤ 0xdf ∧ 0x80 ≤ b.toNat ∧ b.toNat ≤ 0xbf := by
  simp [isPair, isContinuation, UInt8.le_iff_toNat_le, and_assoc]

theorem isTriple_iff :
    isTriple a b c = true ↔
      0xe0 ≤ a.toNat ∧ a.toNat ≤ 0xef ∧ (a.toNat = 0xe0 → 0xa0 ≤ b.toNat) ∧
        (a.toNat = 0xed → b.toNat ≤ 0x9f) ∧ 0x80 ≤ b.toNat ∧ b.toNat ≤ 0xbf ∧
        0x80 ≤ c.toNat ∧ c.toNat ≤ 0xbf := by
  simp only [isTriple, isContinuation, UInt8.le_iff_toNat_le, Bool.and_eq_true,
    decide_eq_true_eq, and_assoc, ← UInt8.toNat_inj]
  split <;> split <;> simp only [UInt8.reduceToNat] at * <;> omega

theorem isQuadruple_iff :
    isQuadruple a b c d = true ↔
      0xf0 ≤ a.toNat ∧ a.toNat ≤ 0xf4 ∧ (a.toNat = 0xf0 → 0x90 ≤ b.toNat) ∧
        (a.toNat = 0xf4 → b.toNat ≤ 0x8f) ∧ 0x80 ≤ b.toNat ∧ b.toNat ≤ 0xbf ∧
        0x80 ≤ c.toNat ∧ c.toNat ≤ 0xbf ∧ 0x80 ≤ d.toNat ∧ d.toNat ≤ 0xbf := by
  simp only [isQuadruple, isContinuation, UInt8.le_iff_toNat_le,
    Bool.and_eq_true, decide_eq_true_eq, and_assoc, ← UInt8.toNat_inj]
  split <;> split <;> simp only [UInt8.reduceToNat] at * <;> omega

theorem not_lt_of_le_toNat (h : 0x80 ≤ a.toNat) : ¬ a < 0x80 := by
  rw [UInt8.lt_iff_toNat_lt]
  exact Nat.not_lt_of_le h

theorem isWellFormed_one (ha : a < 0x80) (rest : Text) :
    isWellFormed (a :: rest) = isWellFormed rest := by
  rw [isWellFormed.eq_def]
  simp only [ha, if_true]

theorem isWellFormed_of_isPair (h : isPair a b = true) (rest : Text) :
    isWellFormed (a :: b :: rest) = isWellFormed rest := by
  have hlow := (isPair_iff.mp h).1
  have ha : ¬ a < 0x80 := not_lt_of_le_toNat (by omega)
  rw [isWellFormed.eq_def]
  simp only [ha, h, if_true, if_false]

/-- The lead of three bytes is none of two. -/
theorem isWellFormed_of_isTriple (h : isTriple a b c = true) (rest : Text) :
    isWellFormed (a :: b :: c :: rest) = isWellFormed rest := by
  have hlow := (isTriple_iff.mp h).1
  have ha : ¬ a < 0x80 := not_lt_of_le_toNat (by omega)
  have hpair : ¬ isPair a b = true := by
    rw [isPair_iff]
    omega
  rw [isWellFormed.eq_def]
  simp only [ha, hpair, h, if_true, if_false, Bool.false_eq_true]

/-- The lead of four bytes is none of two or three. -/
theorem isWellFormed_of_isQuadruple (h : isQuadruple a b c d = true)
    (rest : Text) :
    isWellFormed (a :: b :: c :: d :: rest) = isWellFormed rest := by
  have hlow := (isQuadruple_iff.mp h).1
  have ha : ¬ a < 0x80 := not_lt_of_le_toNat (by omega)
  have hpair : ¬ isPair a b = true := by
    rw [isPair_iff]
    omega
  have htriple : ¬ isTriple a b c = true := by
    rw [isTriple_iff]
    omega
  rw [isWellFormed.eq_def]
  simp only [ha, hpair, htriple, h, if_false, Bool.false_eq_true, Bool.true_and]

/-- What stands behind a well-formed text alone decides about the whole. -/
@[simp]
theorem isWellFormed_append {t : Text} (h : isWellFormed t = true)
    (rest : Text) :
    isWellFormed (t ++ rest) = isWellFormed rest := by
  fun_induction isWellFormed t with
  | case1 => rfl
  | case2 a t ha ih => exact (isWellFormed_one ha _).trans (ih h)
  | case3 => cases h
  | case4 a ha b t hpair ih =>
    exact (isWellFormed_of_isPair hpair _).trans (ih h)
  | case5 => cases h
  | case6 a ha b hpair c t htriple ih =>
    exact (isWellFormed_of_isTriple htriple _).trans (ih h)
  | case7 => cases h
  | case8 a ha b hpair c htriple d t ih =>
    rw [Bool.and_eq_true] at h
    exact (isWellFormed_of_isQuadruple h.1 _).trans (ih h.2)

/-- A byte of ASCII continues no sequence, so that it neither mends nor breaks
what stands before it. -/
theorem isWellFormed_concat {a : UInt8} (ha : a < 0x80) (t : Text) :
    isWellFormed (t ++ [a]) = isWellFormed t := by
  have hlow : a.toNat < 0x80 := UInt8.lt_iff_toNat_lt.mp ha
  fun_induction isWellFormed t with
  | case1 => exact isWellFormed_one ha []
  | case2 b t hb ih => exact (isWellFormed_one hb _).trans ih
  | case3 b hb =>
    have hpair : ¬ isPair b a = true := by
      rw [isPair_iff]
      omega
    rw [List.singleton_append, isWellFormed.eq_def]
    simp only [hb, hpair, if_false, Bool.false_eq_true]
  | case4 b hb c t hpair ih => exact (isWellFormed_of_isPair hpair _).trans ih
  | case5 b hb c hpair =>
    have htriple : ¬ isTriple b c a = true := by
      rw [isTriple_iff]
      omega
    rw [List.cons_append, List.singleton_append, isWellFormed.eq_def]
    simp only [hb, hpair, htriple, if_false, Bool.false_eq_true]
  | case6 b hb c hpair d t htriple ih =>
    exact (isWellFormed_of_isTriple htriple _).trans ih
  | case7 b hb c hpair d htriple =>
    have hquadruple : isQuadruple b c d a = false := by
      rw [Bool.eq_false_iff, Ne, isQuadruple_iff]
      omega
    rw [List.cons_append, List.cons_append, List.singleton_append,
      isWellFormed.eq_def]
    simp only [hb, hpair, htriple, hquadruple, if_false, Bool.false_eq_true,
      Bool.false_and]
  | case8 b hb c hpair d htriple e t ih =>
    cases hquadruple : isQuadruple b c d e with
    | true => exact (isWellFormed_of_isQuadruple hquadruple _).trans ih
    | false =>
      simp only [List.cons_append]
      rw [isWellFormed.eq_def]
      simp only [hb, hpair, htriple, hquadruple, if_false, Bool.false_eq_true,
        Bool.false_and]

theorem isWellFormed_append_ascii {after : Text} (h : ∀ b ∈ after, b < 0x80)
    (t : Text) :
    isWellFormed (t ++ after) = isWellFormed t := by
  induction after generalizing t with
  | nil => rw [List.append_nil]
  | cons b rest ih =>
    obtain ⟨hb, hrest⟩ := List.forall_mem_cons.mp h
    rw [List.append_cons, ih hrest, isWellFormed_concat hb]

/-! ## Zero bytes -/

/-- A zero byte is no part of a longer sequence, so that what stands before the
first one is made of complete sequences. -/
theorem isWellFormed_cut {t : Text} (h : isWellFormed t = true) :
    isWellFormed t.cut = true := by
  have hkept : ∀ {b : UInt8} {rest : Text}, 0 < b.toNat →
      Text.cut (b :: rest) = b :: Text.cut rest := by
    intro b rest hb
    have hne : b ≠ 0 := by
      rintro rfl
      exact absurd hb (by decide)
    simp [Text.cut, hne]
  fun_induction isWellFormed t with
  | case1 => rfl
  | case2 a t ha ih =>
    by_cases hzero : a = 0
    · simp [Text.cut, hzero, isWellFormed]
    · rw [Text.cut, List.takeWhile_cons_of_pos (by simpa using hzero),
        isWellFormed_one ha]
      exact ih h
  | case3 => cases h
  | case4 a ha b t hpair ih =>
    have hranges := isPair_iff.mp hpair
    rw [hkept (by omega), hkept (by omega), isWellFormed_of_isPair hpair]
    exact ih h
  | case5 => cases h
  | case6 a ha b hpair c t htriple ih =>
    have hranges := isTriple_iff.mp htriple
    rw [hkept (by omega), hkept (by omega), hkept (by omega),
      isWellFormed_of_isTriple htriple]
    exact ih h
  | case7 => cases h
  | case8 a ha b hpair c htriple d t ih =>
    rw [Bool.and_eq_true] at h
    have hranges := isQuadruple_iff.mp h.1
    rw [hkept (by omega), hkept (by omega), hkept (by omega), hkept (by omega),
      isWellFormed_of_isQuadruple h.1]
    exact ih h.2

/-! ## Characters -/

/-- The bytes of a character are a complete sequence. -/
theorem isWellFormed_utf8EncodeChar (c : Char) (rest : Text) :
    isWellFormed (String.utf8EncodeChar c ++ rest) = isWellFormed rest := by
  have hvalid : c.val.toNat < 0xd800 ∨
      (0xdfff < c.val.toNat ∧ c.val.toNat < 0x110000) := by
    simpa [UInt32.isValidChar, Nat.isValidChar] using c.valid
  have hbyte : ∀ n, n < 256 → (UInt8.ofNat n).toNat = n := by
    intro n hn
    rw [UInt8.toNat_ofNat', Nat.mod_eq_of_lt hn]
  unfold String.utf8EncodeChar
  generalize c.val.toNat = v at hvalid
  dsimp only
  split
  · apply isWellFormed_one
    rw [UInt8.lt_iff_toNat_lt, hbyte v (by omega)]
    exact Nat.lt_succ_of_le ‹v ≤ 127›
  · split
    · apply isWellFormed_of_isPair
      rw [isPair_iff, hbyte _ (by omega), hbyte _ (by omega)]
      omega
    · split
      · apply isWellFormed_of_isTriple
        rw [isTriple_iff, hbyte _ (by omega), hbyte _ (by omega),
          hbyte _ (by omega)]
        omega
      · apply isWellFormed_of_isQuadruple
        rw [isQuadruple_iff, hbyte _ (by omega), hbyte _ (by omega),
          hbyte _ (by omega), hbyte _ (by omega)]
        omega

/-! ## Texts of the program -/

theorem isWellFormed_append_of {t u : Text} (ht : isWellFormed t = true)
    (hu : isWellFormed u = true) : isWellFormed (t ++ u) = true :=
  (isWellFormed_append ht u).trans hu

/-- Every string of the program is well formed. -/
@[simp]
theorem isWellFormed_text (s : String) : isWellFormed (text s) = true := by
  obtain ⟨characters, hcharacters⟩ := s.isValidUTF8
  have hbytes : text s = characters.flatMap String.utf8EncodeChar := by
    rw [text, String.toUTF8_eq_toByteArray, hcharacters, List.utf8Encode,
      List.toList_data_toByteArray]
  rw [hbytes]
  clear hbytes hcharacters
  induction characters with
  | nil => rfl
  | cons c rest ih => rw [List.flatMap_cons, isWellFormed_utf8EncodeChar, ih]

@[simp]
theorem isWellFormed_quoted {t : Text} (h : isWellFormed t = true) :
    isWellFormed t.quoted = true := by
  apply isWellFormed_append_of
  · exact isWellFormed_append_of (isWellFormed_text _) h
  · exact isWellFormed_text _

theorem isWellFormed_of_ascii {t : Text} (h : ∀ b ∈ t, b < 0x80) :
    isWellFormed t = true := by
  induction t with
  | nil => rfl
  | cons b rest ih =>
    rw [isWellFormed_one (h b List.mem_cons_self)]
    exact ih fun other hother => h other (List.mem_cons_of_mem b hother)

theorem digit_lt (n : Nat) : Text.digit n < 0x80 := by
  rw [Text.digit, UInt8.lt_iff_toNat_lt, UInt8.toNat_ofNat']
  simp only [UInt8.reduceToNat]
  omega

@[simp]
theorem isWellFormed_ofNat (n : Nat) : isWellFormed (Text.ofNat n) = true := by
  induction n using Text.ofNat.induct with
  | case1 n hlt =>
    rw [Text.ofNat, if_pos hlt, isWellFormed_one (digit_lt n)]
    rfl
  | case2 n hnot ih =>
    rw [Text.ofNat, if_neg hnot]
    apply isWellFormed_append_of ih
    rw [isWellFormed_one (digit_lt n)]
    rfl

theorem hexDigit_lt {n : Nat} (h : n < 16) : Text.hexDigit n < 0x80 := by
  unfold Text.hexDigit
  split
  · rw [UInt8.lt_iff_toNat_lt, UInt8.toNat_ofNat']
    simp only [UInt8.reduceToNat]
    omega
  · rw [UInt8.lt_iff_toNat_lt, UInt8.toNat_ofNat']
    simp only [UInt8.reduceToNat]
    omega

@[simp]
theorem isWellFormed_hex (t : Text) : isWellFormed t.hex = true := by
  apply isWellFormed_of_ascii
  intro b hb
  obtain ⟨byte, -, hmem⟩ := List.mem_flatMap.mp hb
  have hbyte := byte.toNat_lt
  rw [Text.hexByte, List.mem_cons, List.mem_singleton] at hmem
  rcases hmem with rfl | rfl
  · exact hexDigit_lt (by omega)
  · exact hexDigit_lt (by omega)

end Utf8
end FleetControl

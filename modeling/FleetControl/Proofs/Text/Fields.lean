import Mathlib.Data.List.TakeWhile
import FleetControl.Text

/-!
# Fields between separators

A text has one cut into fields without separators, `Text.pieces`.  A reader that
goes from one separator to the next finds these fields too, except an empty one
at the end, as there is nothing left to be read there;
`Text.pieces_eq_readFields` says when it is missing.
-/

namespace FleetControl
namespace Text

/-! ## The one cut -/

theorem pieces_eq_splitOn (separator : UInt8) (t : Text) :
    pieces separator t = t.splitOn separator := by
  induction t with
  | nil => rfl
  | cons b rest ih =>
    rw [List.splitOn, List.splitOnP_cons_eq_if_modifyHead, ← List.splitOn, ← ih,
      pieces]
    by_cases hb : b = separator
    · rw [if_pos hb, if_pos (beq_iff_eq.mpr hb)]
    · rw [if_neg hb, if_neg (mt beq_iff_eq.mp hb)]
      obtain ⟨first, others, hpieces⟩ :=
        List.exists_cons_of_ne_nil (pieces_ne_nil separator rest)
      rw [hpieces, List.modifyHead_cons]

@[simp]
theorem pieces_cons_separator (separator : UInt8) (t : Text) :
    pieces separator (separator :: t) = [] :: pieces separator t := by
  rw [pieces, if_pos rfl]

theorem pieces_cons_of_ne {separator b : UInt8} {t first : Text}
    {others : List Text}
    (hb : b ≠ separator) (h : pieces separator t = first :: others) :
    pieces separator (b :: t) = (b :: first) :: others := by
  rw [pieces, if_neg hb, h]

/-- The pieces of a text have all its bytes but the separators. -/
theorem exists_mem_pieces_iff {separator b : UInt8} {t : Text} :
    (∃ piece ∈ pieces separator t, b ∈ piece) ↔ b ∈ t ∧ b ≠ separator := by
  induction t with
  | nil => simp [pieces]
  | cons c rest ih =>
    by_cases hc : c = separator
    · subst hc
      rw [pieces_cons_separator, List.mem_cons]
      simp only [List.mem_cons, exists_eq_or_imp, List.not_mem_nil, false_or]
        at ih ⊢
      rw [ih]
      constructor
      · rintro ⟨hmem, hb⟩
        exact ⟨.inr hmem, hb⟩
      · rintro ⟨hmem, hb⟩
        exact ⟨hmem.resolve_left hb, hb⟩
    · obtain ⟨first, others, hpieces⟩ :=
        List.exists_cons_of_ne_nil (pieces_ne_nil separator rest)
      rw [hpieces] at ih
      rw [pieces_cons_of_ne hc hpieces]
      simp only [List.mem_cons, exists_eq_or_imp, or_assoc] at ih ⊢
      rw [ih]
      constructor
      · rintro (rfl | ⟨hmem, hb⟩)
        · exact ⟨.inl rfl, hc⟩
        · exact ⟨.inr hmem, hb⟩
      · rintro ⟨rfl | hmem, hb⟩
        · exact .inl rfl
        · exact .inr ⟨hmem, hb⟩

theorem notMem_of_mem_pieces {separator : UInt8} {t piece : Text}
    (h : piece ∈ pieces separator t) : separator ∉ piece :=
  fun hmem => (exists_mem_pieces_iff.mp ⟨piece, h, hmem⟩).2 rfl

/-- A text starts with the separator just if its first piece is empty and not
the last one. -/
theorem head?_eq_separator_iff {separator : UInt8} {t first : Text}
    {others : List Text} (h : pieces separator t = first :: others) :
    t.head? = some separator ↔ first = [] ∧ others ≠ [] := by
  cases t with
  | nil =>
    cases h
    simp
  | cons b rest =>
    by_cases hb : b = separator
    · subst hb
      rw [pieces_cons_separator] at h
      cases h
      simp [pieces_ne_nil]
    · obtain ⟨second, more, hpieces⟩ :=
        List.exists_cons_of_ne_nil (pieces_ne_nil separator rest)
      rw [pieces_cons_of_ne hb hpieces] at h
      cases h
      simp [hb]

/-- A text has one cut into fields. -/
theorem pieces_eq_iff {separator : UInt8} {t : Text} {fields : List Text} :
    pieces separator t = fields ↔
      fields ≠ [] ∧ (∀ field ∈ fields, separator ∉ field) ∧
        [separator].intercalate fields = t := by
  constructor
  · rintro rfl
    refine ⟨pieces_ne_nil separator t, fun _ => notMem_of_mem_pieces, ?_⟩
    rw [pieces_eq_splitOn, List.intercalate_splitOn]
  · rintro ⟨hne, hfree, rfl⟩
    rw [pieces_eq_splitOn, List.splitOn_intercalate _ hfree hne]

theorem pieces_of_notMem {separator : UInt8} {t : Text} (h : separator ∉ t) :
    pieces separator t = [t] := by
  rw [pieces_eq_splitOn, List.splitOn_eq_singleton h]

theorem pieces_append_separator {separator : UInt8} {field : Text}
    (h : separator ∉ field) (rest : Text) :
    pieces separator (field ++ separator :: rest) = field ::
      pieces separator rest := by
  rw [pieces_eq_splitOn, List.splitOn_append_cons_self,
    List.splitOn_eq_singleton h, ← pieces_eq_splitOn, List.singleton_append]

/-! ## Reading field after field -/

/-- The fields that are found by reading up to the next separator, or up to the
end, as long as something is left. -/
def readFields (separator : UInt8) (t : Text) : List Text :=
  match t with
  | [] => []
  | b :: rest =>
    (b :: rest).takeWhile (· != separator) ::
      readFields separator (((b :: rest).dropWhile (· != separator)).drop 1)
termination_by t.length
decreasing_by
  rw [List.length_drop, List.length_cons]
  have hle :=
    (List.dropWhile_sublist (· != separator) (l := b :: rest)).length_le
  rw [List.length_cons] at hle
  omega

variable {separator : UInt8} {t : Text}

@[simp]
theorem readFields_nil (separator : UInt8) : readFields separator [] = [] := by
  rw [readFields]

theorem readFields_of_ne_nil (h : t ≠ []) :
    readFields separator t =
      t.takeWhile (· != separator) ::
        readFields separator ((t.dropWhile (· != separator)).drop 1) := by
  obtain ⟨b, rest, rfl⟩ := List.exists_cons_of_ne_nil h
  rw [readFields]

theorem readFields_of_notMem (h : separator ∉ t) (hne : t ≠ []) :
    readFields separator t = [t] := by
  have hall : ∀ b ∈ t, (b != separator) = true :=
    fun b hb => bne_iff_ne.mpr fun heq => h (heq ▸ hb)
  rw [readFields_of_ne_nil hne, List.takeWhile_eq_self_iff.mpr hall,
    List.dropWhile_eq_nil_iff.mpr hall, List.drop_nil, readFields_nil]

theorem readFields_append_separator {field : Text} (h : separator ∉ field)
    (rest : Text) :
    readFields separator (field ++ separator :: rest) = field ::
      readFields separator rest := by
  have hall : ∀ b ∈ field, (b != separator) = true :=
    fun b hb => bne_iff_ne.mpr fun heq => h (heq ▸ hb)
  rw [readFields_of_ne_nil (by simp), List.takeWhile_append_of_pos hall,
    List.dropWhile_append_of_pos hall]
  simp

/-- What a reader misses is one empty field at the end: when the text ends with
a separator, and when there is no text at all. -/
theorem pieces_eq_readFields (separator : UInt8) (t : Text) :
    pieces separator t =
      if t = [] ∨ t.getLast? = some separator then
        readFields separator t ++ [[]]
      else readFields separator t := by
  induction hlength : t.length using Nat.strongRecOn generalizing t with
  | _ n ih =>
    by_cases hmem : separator ∈ t
    · obtain ⟨field, rest, rfl, hfree⟩ := List.eq_append_cons_of_mem hmem
      have hshorter : rest.length < n := by
        rw [← hlength, List.length_append, List.length_cons]
        omega
      -- The separator is the last byte just if nothing stands behind it.
      have hends : (field ++ separator :: rest = [] ∨
          (field ++ separator :: rest).getLast? = some separator) ↔
          rest = [] ∨ rest.getLast? = some separator := by
        cases rest with
        | nil => simp
        | cons b rest => simp
      rw [pieces_append_separator hfree, readFields_append_separator hfree,
        ih rest.length hshorter rest rfl, if_congr hends rfl rfl]
      split <;> rfl
    · rw [pieces_of_notMem hmem]
      have hlast : t.getLast? ≠ some separator :=
        fun h => hmem (List.mem_of_getLast? h)
      by_cases hne : t = []
      · rw [if_pos (.inl hne), hne, readFields_nil, List.nil_append]
      · rw [if_neg (not_or.mpr ⟨hne, hlast⟩), readFields_of_notMem hmem hne]

end Text
end FleetControl

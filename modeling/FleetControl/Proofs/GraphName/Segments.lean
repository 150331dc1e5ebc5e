import FleetControl.Proofs.Fleet.Lifetime
import FleetControl.Proofs.GraphName
import FleetControl.Proofs.Text.Blank
import FleetControl.Proofs.Text.Fields

/-!
# Graph names as segments

Cut at its slashes, a legal name is a sequence of words in which only the first
and the last may be empty, and whose first one may start with a tilde.  The two
searches of `GraphName.isLegal`, one for bytes and one for slashes in a row,
find exactly the names of this grammar.

Every name and every namespace that an environment hands to its delegate is
legal, hence free of blanks, quotes and bytes outside ASCII.
-/

namespace FleetControl

namespace Text

/-- The text is ASCII without blanks, quotes and zero bytes. -/
def IsPlain (t : Text) : Prop :=
  ∀ b ∈ t, b < 0x80 ∧ isBlank b = false ∧ b ≠ 0x22 ∧ b ≠ 0x27 ∧ b ≠ 0x00

end Text

namespace GraphName

open Text

/-- The byte `~`. -/
def tilde : UInt8 := 0x7e

/-- The byte may stand anywhere in a segment. -/
def isWordByte (b : UInt8) : Bool :=
  isLetter b || isDigit b || b == 0x5f

/-- The first segment and the others, which follow a slash each, make up a
legal name. -/
structure AreSegments (first : Text) (others : List Text) : Prop where
  /-- No segment between the first and the last one is empty. -/
  between : ∀ segment ∈ others.dropLast, segment ≠ []
  /-- The name starts with a slash, a letter or a tilde. -/
  start : (first = [] ∧ others ≠ []) ∨
    ∃ b ∈ first.head?, isLetter b = true ∨ b = tilde
  /-- Segments consist of letters, digits and underscores, but the name may
  start with a tilde. -/
  bytes : (∀ b ∈ first.head?, isWordByte b = true ∨ b = tilde) ∧
    (∀ b ∈ first.tail, isWordByte b = true) ∧
    ∀ segment ∈ others, ∀ b ∈ segment, isWordByte b = true

/-- The name is empty, or its pieces between slashes are segments of a
legal name. -/
def IsSegmented (name : Text) : Prop :=
  name = [] ∨ ∃ first others, pieces slash name = first :: others ∧
    AreSegments first others

variable {name further t first : Text} {others : List Text} {b : UInt8}

/-! ## Slashes in a row -/

theorem hasDoubleSlash_cons (b : UInt8) (t : Text) :
    hasDoubleSlash (b :: t) =
      ((b == slash && t.head? == some slash) || hasDoubleSlash t) := by
  cases t with
  | nil => simp [hasDoubleSlash]
  | cons c rest => simp [hasDoubleSlash]

/-- Slashes in a row leave an empty piece between the first and the last one. -/
theorem hasDoubleSlash_eq_false_iff (h : pieces slash t = first :: others) :
    hasDoubleSlash t = false ↔ ∀ segment ∈ others.dropLast, segment ≠ [] := by
  induction t generalizing first others with
  | nil =>
    cases h
    simp [hasDoubleSlash]
  | cons b rest ih =>
    obtain ⟨second, more, hpieces⟩ :=
      List.exists_cons_of_ne_nil (pieces_ne_nil slash rest)
    rw [hasDoubleSlash_cons, Bool.or_eq_false_iff, ih hpieces]
    by_cases hb : b = slash
    · subst hb
      rw [pieces_cons_separator, hpieces] at h
      cases h
      have hstart : (slash == slash && rest.head? == some slash) = false ↔
          ¬ (second = [] ∧ more ≠ []) := by
        rw [← head?_eq_separator_iff hpieces]
        simp
      rw [hstart]
      cases more with
      | nil => simp
      | cons third last =>
        rw [List.dropLast_cons_cons, List.forall_mem_cons]
        simp
    · rw [pieces_cons_of_ne hb hpieces] at h
      cases h
      simp [hb]

/-! ## Bytes -/

theorem isInner_eq (b : UInt8) : isInner b = (isWordByte b || b == slash) :=
  rfl

/-- The bytes of a text may stand in a name just if those of its pieces may
stand in a segment. -/
theorem all_isInner_iff (t : Text) :
    t.all isInner = true ↔
      ∀ segment ∈ pieces slash t, ∀ b ∈ segment, isWordByte b = true := by
  simp only [List.all_eq_true, isInner_eq, Bool.or_eq_true, beq_iff_eq]
  constructor
  · intro hall segment hsegment b hb
    obtain ⟨hmem, hne⟩ := exists_mem_pieces_iff.mp ⟨segment, hsegment, hb⟩
    exact (hall b hmem).resolve_right hne
  · intro hall b hb
    by_cases hslash : b = slash
    · exact .inr hslash
    · obtain ⟨segment, hsegment, hmem⟩ := exists_mem_pieces_iff.mpr ⟨hb, hslash⟩
      exact .inl (hall segment hsegment b hmem)

theorem isWordByte_of_isLetter (h : isLetter b = true) :
    isWordByte b = true := by
  simp [isWordByte, h]

theorem isFirst_iff_of_ne (hb : b ≠ slash) :
    isFirst b = true ↔ isLetter b = true ∨ b = tilde := by
  simp [isFirst, tilde, hb]

theorem isLegal_cons (b : UInt8) (t : Text) :
    isLegal (b :: t) = true ↔
      isFirst b = true ∧ t.all isInner = true ∧
      hasDoubleSlash (b :: t) = false := by
  simp [isLegal, and_assoc]

/-! ## The grammar -/

/-- A name is legal just if its pieces are segments of a legal name. -/
theorem isLegal_iff_isSegmented (name : Text) :
    isLegal name = true ↔ IsSegmented name := by
  cases name with
  | nil => simp [isLegal, IsSegmented]
  | cons b t =>
    obtain ⟨second, more, hpieces⟩ :=
      List.exists_cons_of_ne_nil (pieces_ne_nil slash t)
    rw [isLegal_cons, all_isInner_iff, IsSegmented,
      or_iff_right (List.cons_ne_nil b t)]
    by_cases hb : b = slash
    · subst hb
      have hcut : pieces slash (slash :: t) = [] :: pieces slash t :=
        pieces_cons_separator slash t
      rw [hasDoubleSlash_eq_false_iff hcut]
      constructor
      · rintro ⟨-, hbytes, hbetween⟩
        exact ⟨_, _, hcut, hbetween, .inl ⟨rfl, pieces_ne_nil slash t⟩, by simp,
          by simp, hbytes⟩
      · rintro ⟨first, others, heq, hsegments⟩
        obtain ⟨rfl, rfl⟩ := List.cons.inj (hcut.symm.trans heq)
        exact ⟨rfl, hsegments.bytes.2.2, hsegments.between⟩
    · have hcut : pieces slash (b :: t) = (b :: second) :: more :=
        pieces_cons_of_ne hb hpieces
      rw [hasDoubleSlash_eq_false_iff hcut, isFirst_iff_of_ne hb, hpieces,
        List.forall_mem_cons]
      constructor
      · rintro ⟨hfirst, ⟨hsecond, hmore⟩, hbetween⟩
        refine ⟨_, _, hcut, hbetween, .inr ⟨b, rfl, hfirst⟩, ?_, hsecond, hmore⟩
        intro c hc
        cases hc
        exact hfirst.imp_left isWordByte_of_isLetter
      · rintro ⟨first, others, heq, hsegments⟩
        obtain ⟨rfl, rfl⟩ := List.cons.inj (hcut.symm.trans heq)
        obtain ⟨hempty, -⟩ | ⟨c, hc, hfirst⟩ := hsegments.start
        · cases hempty
        · cases hc
          exact ⟨hfirst, hsegments.bytes.2, hsegments.between⟩

/-! ## Names within a namespace -/

/-- No slashes meet where a name that does not end with one is followed by
another name that does not start with one. -/
theorem hasDoubleSlash_append_slash (hlast : name.getLast? ≠ some slash)
    (hhead : further.head? ≠ some slash) :
    hasDoubleSlash (name ++ slash :: further) =
      (hasDoubleSlash name || hasDoubleSlash further) := by
  induction name with
  | nil =>
    rw [List.nil_append, hasDoubleSlash_cons, beq_eq_false_iff_ne.mpr hhead]
    simp [hasDoubleSlash]
  | cons b rest ih =>
    rw [List.cons_append, hasDoubleSlash_cons, hasDoubleSlash_cons]
    cases rest with
    | nil =>
      have hb : b ≠ slash := by simpa using hlast
      rw [beq_eq_false_iff_ne.mpr hb, List.nil_append, hasDoubleSlash_cons,
        beq_eq_false_iff_ne.mpr hhead]
      simp [hasDoubleSlash]
    | cons c rest =>
      rw [ih (by simpa using hlast), Bool.or_assoc]
      rfl

/-- Within a legal namespace, the legal names are those that are legal
by themselves. -/
theorem isLegal_append_slash_iff (hlegal : isLegal name = true)
    (hne : name ≠ []) (hlast : name.getLast? ≠ some slash)
    (hletter : ∃ b ∈ further.head?, isLetter b = true) :
    isLegal (name ++ slash :: further) = true ↔ isLegal further = true := by
  obtain ⟨b, rest, rfl⟩ := List.exists_cons_of_ne_nil hne
  obtain ⟨c, hc, hletter⟩ := hletter
  obtain ⟨more, rfl⟩ : ∃ more, further = c :: more :=
    List.head?_eq_some_iff.mp hc
  obtain ⟨hfirst, hall, hdouble⟩ := (isLegal_cons b rest).mp hlegal
  have hslash : c ≠ slash := by
    rintro rfl
    exact absurd hletter (by decide)
  have hcinner : isInner c = true := by
    rw [isInner_eq, isWordByte_of_isLetter hletter, Bool.true_or]
  have hcfirst : isFirst c = true :=
    (isFirst_iff_of_ne hslash).mpr (.inl hletter)
  have hjoin : hasDoubleSlash ((b :: rest) ++ slash :: c :: more) =
      (hasDoubleSlash (b :: rest) || hasDoubleSlash (c :: more)) :=
    hasDoubleSlash_append_slash hlast (by simpa using hslash)
  rw [List.cons_append] at hjoin ⊢
  rw [isLegal_cons, isLegal_cons, hjoin, hdouble, List.all_append, hall]
  simp [hfirst, hcfirst, hcinner, show isInner slash = true from rfl]

/-! ## What is forwarded -/

theorem le_of_isLetter (h : isLetter b = true) : slash ≤ b := by
  simp only [isLetter, isLower, isUpper, Bool.or_eq_true, Bool.and_eq_true,
    decide_eq_true_eq, UInt8.le_iff_toNat_le, UInt8.reduceToNat] at h
  simp only [slash, UInt8.le_iff_toNat_le, UInt8.reduceToNat]
  omega

theorem le_of_isDigit (h : isDigit b = true) : slash ≤ b := by
  have hlow := ((isDigit_iff b).mp h).1
  simp only [slash, UInt8.le_iff_toNat_le, UInt8.reduceToNat]
  omega

theorem le_of_isFirst (h : isFirst b = true) : slash ≤ b := by
  simp only [isFirst, Bool.or_eq_true, beq_iff_eq] at h
  rcases h with (hletter | rfl) | rfl
  · exact le_of_isLetter hletter
  · decide
  · decide

theorem le_of_isInner (h : isInner b = true) : slash ≤ b := by
  simp only [isInner, Bool.or_eq_true, beq_iff_eq] at h
  rcases h with ((hletter | hdigit) | rfl) | rfl
  · exact le_of_isLetter hletter
  · exact le_of_isDigit hdigit
  · decide
  · decide

/-- The bytes of a legal name come after all blanks and quotes. -/
theorem le_of_mem_of_isLegal (h : isLegal name = true) :
    ∀ b ∈ name, slash ≤ b := by
  cases name with
  | nil => nofun
  | cons first rest =>
    obtain ⟨hfirst, hall, -⟩ := (isLegal_cons first rest).mp h
    exact List.forall_mem_cons.mpr
      ⟨le_of_isFirst hfirst, fun b hb =>
        le_of_isInner (List.all_eq_true.mp hall b hb)⟩

theorem isPlain_of_isLegal (h : isLegal name = true) : IsPlain name := by
  intro b hb
  have hlow : 0x2f ≤ b.toNat := le_of_mem_of_isLegal h b hb
  have hne : ∀ c : UInt8, c.toNat < 0x2f → b ≠ c := by
    rintro c hc rfl
    omega
  exact ⟨lt_of_mem_of_isLegal h b hb, isBlank_eq_false_of_lt (by omega),
    hne 0x22 (by decide), hne 0x27 (by decide), hne 0x00 (by decide)⟩

/-- An order forwards no other command than the one it comes to. -/
theorem commands_order (f : Fleet) (e : EndpointId) (order : Order) :
    ∃ forwarded, (Act.run (order.perform e) f).2.commands =
      f.commands ++ forwarded ∧
      ∀ entry ∈ forwarded, order.command = .ok entry.2 := by
  cases hdeleted : (f.endpoint e).isDeleted with
  | true =>
    have hrun := Fleet.run_handling_of_isDeleted hdeleted (.graph order)
    rw [Handling.perform] at hrun
    exact ⟨[], by rw [hrun, List.append_nil], List.forall_mem_nil _⟩
  | false =>
    obtain ⟨c, hcontrol⟩ := Fleet.exists_control hdeleted
    obtain ⟨message, hrun⟩ := Session.run_order hcontrol order
    rw [hrun]
    cases hcommand : order.command with
    | error fault => exact ⟨[], by rw [List.append_nil], List.forall_mem_nil _⟩
    | ok command =>
      dsimp only
      cases hobjection : f.objection? c command with
      | none =>
        refine ⟨[(c, command)],
          (Fleet.continues_granted message hobjection).commands_eq, ?_⟩
        intro entry hentry
        rw [List.mem_singleton.mp hentry]
      | some fault =>
        exact ⟨[], (Fleet.continues_asked f message c).commands_eq,
          List.forall_mem_nil _⟩

theorem isLegal_of_command_addParameter {value : Json} {type : Text}
    {command : Command}
    (h : (Order.addParameter name value type).command = .ok command) :
    isLegal name = true ∧ ∃ parameter, command = .addParameter parameter ∧
      parameter.name = name := by
  simp only [Order.command] at h
  split at h
  · next hlegal =>
    split at h
    · cases h
    · next parameter hparameter =>
      cases h
      exact ⟨hlegal, parameter, rfl, Parameter.name_of_typed hparameter⟩
  · cases h

theorem isLegal_of_command_addNode {node : Node} {command : Command}
    (h : (Order.addNode node).command = .ok command) :
    isLegal node.namespaceName = true ∧ command = .addNode node := by
  simp only [Order.command] at h
  split at h
  · next hlegal =>
    cases h
    exact ⟨hlegal, rfl⟩
  · cases h

/-- Legal names are those whose pieces between slashes are segments of a legal
name; within a legal namespace the names that are legal by themselves are legal;
and an environment, whatever its state, forwards parameters under plain names
and nodes in plain namespaces only. -/
theorem isLegal_grammar (name : Text) :
    (isLegal name = true ↔ IsSegmented name) ∧
    (∀ further, isLegal name = true → name ≠ [] → name.getLast? ≠ some slash →
      (∃ b ∈ further.head?, isLetter b = true) →
        (isLegal (name ++ slash :: further) = true ↔ isLegal further = true)) ∧
    ∀ (f : Fleet) (e : EndpointId),
      (∀ value type, ∃ forwarded,
        (Act.run (Fleet.addParameter e name value type) f).2.commands =
          f.commands ++ forwarded ∧
        ∀ entry ∈ forwarded, ∃ parameter, entry.2 = .addParameter parameter ∧
          parameter.name = name ∧ IsPlain name) ∧
      ∀ node : Node, node.namespaceName = name → ∃ forwarded,
        (Act.run (Fleet.addNode e node) f).2.commands =
          f.commands ++ forwarded ∧
        ∀ entry ∈ forwarded, entry.2 = .addNode node ∧ IsPlain name := by
  refine ⟨isLegal_iff_isSegmented name, ?_, ?_⟩
  · intro further hlegal hne hlast hletter
    exact isLegal_append_slash_iff hlegal hne hlast hletter
  · intro f e
    constructor
    · intro value type
      obtain ⟨forwarded, hcommands, hall⟩ :=
        commands_order f e (.addParameter name value type)
      refine ⟨forwarded, hcommands, ?_⟩
      intro entry hentry
      obtain ⟨hlegal, parameter, hparameter, hname⟩ :=
        isLegal_of_command_addParameter (hall entry hentry)
      exact ⟨parameter, hparameter, hname, isPlain_of_isLegal hlegal⟩
    · rintro node rfl
      obtain ⟨forwarded, hcommands, hall⟩ := commands_order f e (.addNode node)
      refine ⟨forwarded, hcommands, ?_⟩
      intro entry hentry
      obtain ⟨hlegal, hnode⟩ := isLegal_of_command_addNode (hall entry hentry)
      exact ⟨hnode, isPlain_of_isLegal hlegal⟩

/-- The camera of a robot as a namespace, with a name and with what is none. -/
theorem isLegal_grammar_camera :
    IsSegmented (text "robot_1/camera") ∧
      isLegal (text "robot_1/camera/left/") = true ∧
      isLegal (text "robot_1/camera/left~") = false := by
  have hlegal : isLegal (text "robot_1/camera") = true := by decide
  obtain ⟨hgrammar, hwithin, -⟩ := isLegal_grammar (text "robot_1/camera")
  have hname :=
    hwithin (text "left/") hlegal (by decide) (by decide)
      ⟨0x6c, by decide, by decide⟩
  have hnone :=
    hwithin (text "left~") hlegal (by decide) (by decide)
      ⟨0x6c, by decide, by decide⟩
  refine ⟨hgrammar.mp hlegal, hname.mpr (by decide), ?_⟩
  exact Bool.eq_false_iff.mpr fun h => absurd (hnone.mp h) (by decide)

end GraphName
end FleetControl

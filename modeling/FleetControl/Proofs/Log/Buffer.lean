import Mathlib.Data.List.DropRight
import FleetControl.Log.Buffer

/-!
# What a bounded buffer keeps

A buffer that has been fed with entries keeps the newest of them, as many as it
has room for.  This is an invariant of every sequence of operations, if the
entries are counted from the last flush on: what has been lost to make room
never comes to matter again.

Two buffers that are fed together lose their entries at different times.  Each
of them keeps the newest entries of the same log all the same, so that what the
smaller one keeps is the end of what the larger one keeps.
-/

namespace FleetControl
namespace Log

/-- The last entries of a log, up to a number. -/
def newest (capacity : Nat) (entries : List Entry) : List Entry :=
  entries.drop (entries.length - capacity)

theorem length_newest (capacity : Nat) (entries : List Entry) :
    (newest capacity entries).length = min capacity entries.length := by
  rw [newest, List.length_drop]
  omega

theorem newest_nil (capacity : Nat) : newest capacity [] = [] :=
  List.drop_nil

theorem newest_suffix (capacity : Nat) (entries : List Entry) :
    newest capacity entries <:+ entries :=
  List.drop_suffix _ _

/-- With more room, more of the same log is kept. -/
theorem newest_suffix_newest {smaller larger : Nat} (h : smaller ≤ larger)
    (entries : List Entry) :
    newest smaller entries <:+ newest larger entries :=
  List.drop_suffix_drop_left entries (Nat.sub_le_sub_left h entries.length)

namespace Buffer

/-- A buffer with the newest entries has the newest ones after one
entry more. -/
theorem push_newest (capacity : Nat) (entries : List Entry) (entry : Entry) :
    push entry ⟨capacity, newest capacity entries⟩ =
      ⟨capacity, newest capacity (entries ++ [entry])⟩ := by
  simp only [push, length_newest]
  split
  · next hzero =>
    simp [newest, hzero]
  · split
    · next hfull =>
      have hlength : (entries ++ [entry]).length - capacity =
          entries.length - capacity + 1 := by
        rw [List.length_append, List.length_singleton]
        omega
      have hle : entries.length - capacity + 1 ≤ entries.length := by omega
      rw [newest, newest, hlength, List.drop_drop,
        List.drop_append_of_le_length hle]
    · next hroom =>
      have hshort : entries.length - capacity = 0 := by omega
      have hlength : (entries ++ [entry]).length - capacity = 0 := by
        rw [List.length_append, List.length_singleton]
        omega
      rw [newest, newest, hlength, hshort, List.drop_zero, List.drop_zero]

theorem foldl_push_newest (capacity : Nat) (earlier entries : List Entry) :
    entries.foldl (fun (b : Buffer) entry => b.push entry)
      ⟨capacity, newest capacity earlier⟩ =
      ⟨capacity, newest capacity (earlier ++ entries)⟩ := by
  induction entries generalizing earlier with
  | nil => rw [List.append_nil, List.foldl_nil]
  | cons entry rest ih =>
    rw [List.foldl_cons, push_newest, ih, List.append_assoc,
      List.singleton_append]

/-- A buffer that was empty keeps the newest entries that it has
been fed with. -/
theorem foldl_push (capacity : Nat) (entries : List Entry) :
    entries.foldl (fun (b : Buffer) entry => b.push entry) (empty capacity) =
      ⟨capacity, newest capacity entries⟩ := by
  rw [empty, ← newest_nil capacity, foldl_push_newest, List.nil_append]

/-! ## Sequences of operations -/

/-- What can be asked of a buffer. -/
inductive Operation where
  | log (level : Level) (message : Text)
  | flush
  | countLevel (name : Text)

namespace Operation

/-- The entry that an operation logs. -/
def entry? : Operation → Option Entry
  | log level message => some ⟨level, message⟩
  | flush | countLevel _ => none

/-- The operation is a flush. -/
def isFlush : Operation → Bool
  | flush => true
  | log _ _ | countLevel _ => false

/-- The buffer after an operation; to count is only to read. -/
def perform (b : Buffer) : Operation → Buffer
  | log level message => b.push ⟨level, message⟩
  | flush => b.flush.2
  | countLevel _ => b

end Operation

/-- The entries that have been logged after the last flush. -/
def sinceFlush (operations : List Operation) : List Entry :=
  (operations.rtakeWhile fun operation => !operation.isFlush).filterMap
    Operation.entry?

theorem sinceFlush_concat (operations : List Operation)
    (operation : Operation) :
    sinceFlush (operations ++ [operation]) =
      if operation.isFlush then []
        else sinceFlush operations ++ operation.entry?.toList := by
  rw [sinceFlush, List.rtakeWhile_concat]
  cases operation with
  | flush => rfl
  | log level message => exact List.filterMap_append
  | countLevel name => exact List.filterMap_append

/-- Each operation keeps the newest entries since the last flush. -/
theorem perform_newest (capacity : Nat) (operations : List Operation)
    (operation : Operation) :
    operation.perform ⟨capacity, newest capacity (sinceFlush operations)⟩ =
      ⟨capacity, newest capacity (sinceFlush (operations ++ [operation]))⟩ := by
  rw [sinceFlush_concat]
  cases operation with
  | log level message => exact push_newest capacity _ _
  | flush => exact congrArg (Buffer.mk capacity) (newest_nil capacity).symm
  | countLevel name =>
    show _ = Buffer.mk capacity (newest capacity (sinceFlush operations ++ []))
    rw [List.append_nil]
    rfl

/-- A buffer that was empty has the newest entries since the last flush after
any operations. -/
theorem foldl_perform (capacity : Nat) (operations : List Operation) :
    operations.foldl Operation.perform (empty capacity) =
      ⟨capacity, newest capacity (sinceFlush operations)⟩ := by
  induction operations using List.reverseRecOn with
  | nil => exact congrArg (Buffer.mk capacity) (newest_nil capacity).symm
  | append_singleton operations operation ih =>
    rw [List.foldl_append, ih]
    exact perform_newest capacity operations operation

/-- What a buffer with room for so many entries has come to, when the given ones
have been logged since the last flush. -/
structure KeepsNewest (capacity : Nat) (logged : List Entry) (b : Buffer) :
    Prop where
  /-- The entries are the last ones of the log, in order, and as many as there
  is room for. -/
  suffix : b.entries <:+ logged
  length_eq : b.entries.length = min capacity logged.length
  /-- To flush gives exactly these entries and leaves none. -/
  flush_eq : b.flush = (b.entries, empty capacity)
  /-- To count gives the number of those that have the level. -/
  countLevel_eq : ∀ name,
    b.countLevel name =
      (b.entries.filter fun entry => entry.level.name = name).length

theorem keepsNewest_newest (capacity : Nat) (logged : List Entry) :
    KeepsNewest capacity logged ⟨capacity, newest capacity logged⟩ where
  suffix := newest_suffix capacity logged
  length_eq := length_newest capacity logged
  flush_eq := rfl
  countLevel_eq := fun _ => List.countP_eq_length_filter

/-- The buffer after some entries. -/
def fed (b : Buffer) (entries : List Entry) : Buffer :=
  entries.foldl (fun (b : Buffer) entry => b.push entry) b

end Buffer

/-! ## Buffers that are fed together -/

namespace Tee

/-- The pair after some entries. -/
def fed (t : Tee) (entries : List Entry) : Tee :=
  entries.foldl (fun (t : Tee) entry => t.push entry) t

/-- Each side becomes what it would become alone, whether or not there is
another side. -/
theorem fed_eq (t : Tee) (entries : List Entry) :
    t.fed entries =
      ⟨t.first.map (·.fed entries), t.second.map (·.fed entries)⟩ := by
  induction entries generalizing t with
  | nil => simp [fed, Buffer.fed]
  | cons entry rest ih =>
    show (t.push entry).fed rest = _
    rw [ih]
    simp only [push, Option.map_map]
    rfl

end Tee

/-- After any operations a buffer keeps the newest entries since the last flush,
as many as it has room for.  Of two buffers that are fed together the smaller
one keeps the end of what the larger one keeps, on whichever side it stands; and
a buffer does not notice that the other one is missing, or what it is. -/
theorem keepsNewest_of_operations (capacity : Nat)
    (operations : List Buffer.Operation) :
    Buffer.KeepsNewest capacity (Buffer.sinceFlush operations)
      (operations.foldl Buffer.Operation.perform (.empty capacity)) ∧
    (∀ larger, capacity ≤ larger → ∀ entries, ∃ a b : Buffer,
      Tee.fed ⟨some (.empty capacity), some (.empty larger)⟩ entries =
        ⟨some a, some b⟩ ∧
      Tee.fed ⟨some (.empty larger), some (.empty capacity)⟩ entries =
        ⟨some b, some a⟩ ∧
      a.entries <:+ b.entries) ∧
    ∀ (b : Buffer) (entries : List Entry),
      Tee.fed ⟨some b, none⟩ entries = ⟨some (b.fed entries), none⟩ ∧
      Tee.fed ⟨none, some b⟩ entries = ⟨none, some (b.fed entries)⟩ ∧
      ∀ other : Buffer,
        Tee.fed ⟨some b, some other⟩ entries =
          ⟨some (b.fed entries), some (other.fed entries)⟩ := by
  refine ⟨?_, ?_, ?_⟩
  · rw [Buffer.foldl_perform]
    exact Buffer.keepsNewest_newest capacity _
  · intro larger hle entries
    have hfed (room : Nat) : (Buffer.empty room).fed entries =
        ⟨room, newest room entries⟩ :=
      Buffer.foldl_push room entries
    refine ⟨⟨capacity, newest capacity entries⟩,
      ⟨larger, newest larger entries⟩, ?_, ?_, newest_suffix_newest hle entries⟩
    · rw [Tee.fed_eq, Option.map_some, Option.map_some, hfed, hfed]
    · rw [Tee.fed_eq, Option.map_some, Option.map_some, hfed, hfed]
  · intro b entries
    exact ⟨Tee.fed_eq _ entries, Tee.fed_eq _ entries, fun other =>
      Tee.fed_eq _ entries⟩

/-- A buffer with room for two entries gets one, is flushed and gets three; a
pair of buffers with room for two and for three gets the same three. -/
theorem keepsNewest_of_operations_two :
    let e1 : Entry := ⟨.info, text "one"⟩
    let e2 : Entry := ⟨.error, text "two"⟩
    let e3 : Entry := ⟨.info, text "three"⟩
    Buffer.KeepsNewest 2 [e1, e2, e3] ⟨2, [e2, e3]⟩ ∧ 2 ≤ 3 ∧
      Tee.fed ⟨some (.empty 2), some (.empty 3)⟩ [e1, e2, e3] =
        ⟨some ⟨2, [e2, e3]⟩, some ⟨3, [e1, e2, e3]⟩⟩ ∧
      [e2, e3] <:+ [e1, e2, e3] := by
  intro e1 e2 e3
  obtain ⟨hkeeps, hpair, -⟩ := keepsNewest_of_operations 2
    [.log .error (text "zero"), .flush, .log .info (text "one"),
      .log .error (text "two"), .countLevel (text "error"),
      .log .info (text "three")]
  obtain ⟨a, b, hfed, -, hsuffix⟩ := hpair 3 (by decide) [e1, e2, e3]
  have hkept : Tee.mk (some ⟨2, [e2, e3]⟩) (some ⟨3, [e1, e2, e3]⟩) =
      ⟨some a, some b⟩ := hfed
  cases hkept
  exact ⟨hkeeps, by decide, hfed, hsuffix⟩

end Log
end FleetControl

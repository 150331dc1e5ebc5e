import FleetControl.Log

/-!
# Bounded log buffers

A buffer keeps the newest entries up to its capacity.  A pair of buffers, of
which either may be missing, is fed with the same entries.
-/

namespace FleetControl
namespace Log

/-- The newest entries of a log, oldest first. -/
structure Buffer where
  capacity : Nat
  entries : List Entry
deriving DecidableEq

namespace Buffer

/-- How many entries a buffer keeps unless told otherwise. -/
def defaultCapacity : Nat := 200

/-- The buffer without an entry. -/
def empty (capacity : Nat) : Buffer :=
  ⟨capacity, []⟩

/-- The buffer with one entry more; a full buffer loses its oldest one. -/
def push (entry : Entry) (b : Buffer) : Buffer :=
  if b.capacity = 0 then b
  else if b.capacity ≤ b.entries.length then
    { b with entries := b.entries.drop 1 ++ [entry] }
  else { b with entries := b.entries ++ [entry] }

/-- How many entries have the level of that name. -/
def countLevel (name : Text) (b : Buffer) : Nat :=
  b.entries.countP fun entry => entry.level.name = name

/-- All entries, and the buffer without them. -/
def flush (b : Buffer) : List Entry × Buffer :=
  (b.entries, { b with entries := [] })

end Buffer

/-- Two buffers that are fed together. -/
structure Tee where
  first : Option Buffer
  second : Option Buffer
deriving DecidableEq

/-- Both buffers with one entry more. -/
def Tee.push (entry : Entry) (t : Tee) : Tee :=
  ⟨t.first.map (·.push entry), t.second.map (·.push entry)⟩

end Log
end FleetControl

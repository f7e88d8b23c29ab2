import GuestMachine.Memory.Basic

/-!
# Cursors

A cursor reads a region byte by byte, forwards from its origin. A read is refused at the end of the
region and then leaves the cursor where it was; a wider read that is refused leaves it after the
bytes it did read.
-/

namespace GuestMachine

structure Cursor where
  memory : Memory
  origin : Nat
  offset : Nat

/-- A computation that reads from a cursor and may run off the end of its region. -/
abbrev Scan := EStateM RangeError Cursor

namespace Cursor

def start (memory : Memory) (offset : Nat) : Cursor := ⟨memory, offset, offset⟩

/-- The largest offset there is. Seeking further stops here. -/
def maxOffset : Nat := UInt64.size - 1

def position : Scan Nat := fun cursor ↦ .ok cursor.offset cursor

def nextByte : Scan UInt8 := fun cursor ↦
  if cursor.offset < cursor.memory.size then
    .ok (cursor.memory.getByte (UInt32.ofNat cursor.offset))
      { cursor with offset := cursor.offset + 1 }
  else
    .error (.outOfRange cursor.offset cursor.memory.size) cursor

def nextWord : Scan UInt16 := do
  let low ← nextByte
  let high ← nextByte
  return low.toUInt16 + high.toUInt16 <<< 8

def nextDoubleword : Scan UInt32 := do
  let low ← nextWord
  let high ← nextWord
  return low.toUInt32 + high.toUInt32 <<< 16

/-- Moves forwards. Unlike a read of the last byte, it may not land on the end of the region. -/
def skip (count : Nat) : Scan Unit := fun cursor ↦
  let target := min (cursor.offset + count) maxOffset
  if target < cursor.memory.size then
    .ok () { cursor with offset := target }
  else
    .error (.outOfRange target cursor.memory.size) cursor

/-- Goes back to the origin. -/
def reset (cursor : Cursor) : Cursor := { cursor with offset := cursor.origin }

end Cursor

end GuestMachine

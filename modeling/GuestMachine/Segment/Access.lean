import GuestMachine.Segment.Basic
import GuestMachine.Memory.Spaces

/-!
# Access through segments

An access names an offset, a size and a kind. Its linear address is computed only if the kind of
segment, presence, privilege, permission and limit, checked in this order, allow it; only then is
memory touched. A quadword is two doublewords, both of which are translated before either is
written.
-/

namespace GuestMachine

inductive Access where
  | read
  | write
  | execute
  deriving DecidableEq, Repr, Inhabited

def DescriptorType.permits (type : DescriptorType) : Access → Bool
  | .read => type.isReadable
  | .write => type.isWritable
  | .execute => type.isCode

namespace Segment

/-! ## Linear addresses -/

/-- Whether the bytes from `offset` to `last` lie within the limit. An expand-down segment covers
what lies above its limit. -/
def covers (segment : Segment) (offset last : Nat) : Bool :=
  match segment.kind with
  | .null | .gate _ => false
  | .realMode _ | .virtual8086 _ _ => decide (last ≤ realModeLimit.toNat)
  | .descriptorTable _ limit => decide (last ≤ limit.toNat)
  | .descriptor descriptor =>
    if descriptor.type.isExpandDown then
      let upper := if descriptor.defaultSize32 then UInt32.size - 1 else UInt16.size - 1
      decide (descriptor.limit.toNat < offset ∧ last ≤ upper)
    else
      decide (last ≤ descriptor.limit.toNat)

/-- Checks `size` bytes at `offset` against the limit. No byte at all is always within it. -/
def checkLimit (segment : Segment) (offset size : UInt32) : Except Error Unit :=
  let last := offset.toNat + size.toNat - 1
  if size = 0 ∨ (last < UInt32.size ∧ segment.covers offset.toNat last) then
    .ok ()
  else
    .error (.exception .protection0)

/-- Checks that an offset lies within the limit of a segment that has one. -/
def checkAddress (segment : Segment) (offset : UInt32) : Except Error Unit :=
  match segment.kind with
  | .null => .error (.exception .protection0)
  | .gate _ => .error (.exception (.protectionOf segment.selector))
  | _ => segment.checkLimit offset 1

/-- The linear address of `size` bytes at `offset`. -/
def translate (segment : Segment) (offset size : UInt32) (access : Access) : Except Error UInt32 :=
  match segment.kind with
  | .null => .error (.exception .protection0)
  | .gate _ => .error (.exception (.protectionOf segment.selector))
  | .realMode base | .virtual8086 base _ | .descriptorTable base _ => do
    segment.checkLimit offset size
    return base + offset
  | .descriptor descriptor => do
    let type := descriptor.type
    if !descriptor.present then
      throw (.exception (.notPresent segment.selector))
    if !type.isSystem && !type.isConforming && descriptor.dpl < segment.rpl then
      throw (.exception (.protectionOf segment.selector))
    if !type.permits access then
      throw (.exception .protection0)
    segment.checkLimit offset size
    return descriptor.base + offset

/-! ## Reading -/

def getByte (segment : Segment) (spaces : Spaces) (offset : UInt32) : Except Error UInt8 := do
  let address ← segment.translate offset 1 .read
  return (← spaces.get segment.space).getByte address

def getWord (segment : Segment) (spaces : Spaces) (offset : UInt32) : Except Error UInt16 := do
  let address ← segment.translate offset 2 .read
  return (← spaces.get segment.space).getWord address

def getDoubleword (segment : Segment) (spaces : Spaces) (offset : UInt32) :
    Except Error UInt32 := do
  let address ← segment.translate offset 4 .read
  return (← spaces.get segment.space).getDoubleword address

def getQuadword (segment : Segment) (spaces : Spaces) (offset : UInt32) : Except Error UInt64 := do
  let low ← segment.translate offset 4 .read
  let high ← segment.translate (offset + 4) 4 .read
  let memory ← spaces.get segment.space
  return (memory.getDoubleword low).toUInt64 + (memory.getDoubleword high).toUInt64 <<< 32

/-! ## Writing -/

def setByte (segment : Segment) (spaces : Spaces) (offset : UInt32) (data : UInt8) :
    Except Error Spaces := do
  let address ← segment.translate offset 1 .write
  spaces.modify segment.space (·.setByte address data)

def setWord (segment : Segment) (spaces : Spaces) (offset : UInt32) (data : UInt16) :
    Except Error Spaces := do
  let address ← segment.translate offset 2 .write
  spaces.modify segment.space (·.setWord address data)

def setDoubleword (segment : Segment) (spaces : Spaces) (offset : UInt32) (data : UInt32) :
    Except Error Spaces := do
  let address ← segment.translate offset 4 .write
  spaces.modify segment.space (·.setDoubleword address data)

def setQuadword (segment : Segment) (spaces : Spaces) (offset : UInt32) (data : UInt64) :
    Except Error Spaces := do
  let low ← segment.translate offset 4 .write
  let high ← segment.translate (offset + 4) 4 .write
  spaces.modify segment.space fun memory ↦
    (memory.setDoubleword low data.toUInt32).setDoubleword high (data >>> 32).toUInt32

end Segment

end GuestMachine

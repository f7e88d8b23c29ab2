import GuestMachine.Proofs.Instruction.Decoding
import Mathlib.Algebra.Ring.Nat

/-!
# Self-delimiting instructions

The bytes of an instruction say where it ends. A region of any size that holds them has the same
instruction there, and a region that ends within them cuts it off: decoding then runs to the end of
the region and fails there. Bytes that a region holds behind an instruction make no difference, and
neither does whether the region can be written.
-/

namespace GuestMachine

namespace Memory

/-- Both regions hold the same bytes from `first` up to `last`. -/
def SharesBytes (left right : Memory) (first last : Nat) : Prop :=
  ∀ offset, first ≤ offset → offset < last → left.bytes[offset]? = right.bytes[offset]?

instance (left right : Memory) (first last : Nat) :
    Decidable (left.SharesBytes right first last) :=
  decidable_of_iff
    (∀ offset, offset < last → first ≤ offset → left.bytes[offset]? = right.bytes[offset]?)
    ⟨fun h offset hfirst hlast ↦ h offset hlast hfirst,
      fun h offset hlast hfirst ↦ h offset hfirst hlast⟩

/-- The region begins with all bytes of the other. -/
def Extends (larger memory : Memory) : Prop :=
  ∃ appended, larger.bytes = memory.bytes ++ appended

variable {memory larger : Memory}

theorem getByte_ofNat (memory : Memory) {offset : Nat} (hoffset : offset < 2 ^ 32) :
    memory.getByte (UInt32.ofNat offset) = memory.bytes[offset]?.getD openBus := by
  rw [getByte, UInt32.toNat_ofNat_of_lt' hoffset, Array.getD_eq_getD_getElem?]

/-- Offsets that fit into 32 bits are not taken for others. -/
theorem SharesBytes.agrees {other : Memory} {first last : Nat}
    (hshares : memory.SharesBytes other first last) (hlast : last ≤ 2 ^ 32) :
    memory.Agrees other first last := by
  intro offset hfirst hoffset
  have hfits : offset < 2 ^ 32 := Nat.lt_of_lt_of_le hoffset hlast
  rw [getByte_ofNat memory hfits, getByte_ofNat other hfits, hshares offset hfirst hoffset]

theorem Extends.sharesBytes (hextends : larger.Extends memory) (first : Nat) :
    memory.SharesBytes larger first memory.size := by
  obtain ⟨appended, hbytes⟩ := hextends
  intro offset _ hoffset
  rw [hbytes, Array.getElem?_append_left hoffset]

theorem Extends.size_le (hextends : larger.Extends memory) : memory.size ≤ larger.size := by
  obtain ⟨appended, hbytes⟩ := hextends
  rw [size, size, hbytes, Array.size_append]
  exact Nat.le_add_right _ _

end Memory

namespace Instruction

open Scan

/-- Decoding takes up the bytes of an instruction, from the cursor to where it is left. A cursor at
the same offset of a region that holds these bytes comes to the same instruction; where the region
ends before, decoding runs off its end. Every failure is of this kind. -/
theorem decode_selfDelimiting (mode : Mode) (size32 : Bool) (cursor : Cursor)
    (hsize : cursor.memory.size ≤ 2 ^ 32) :
    match decode mode size32 cursor with
    | .ok instruction final =>
      final = { cursor with offset := cursor.offset + instruction.length } ∧
      final.offset ≤ cursor.memory.size ∧
      ∀ other : Cursor, other.offset = cursor.offset →
        (final.offset ≤ other.memory.size →
          cursor.memory.SharesBytes other.memory cursor.offset final.offset →
          decode mode size32 other = .ok instruction { other with offset := final.offset }) ∧
        (other.memory.size < final.offset →
          cursor.memory.SharesBytes other.memory cursor.offset other.memory.size →
          decode mode size32 other =
            .error (.outOfRange (max cursor.offset other.memory.size) other.memory.size)
              { other with offset := max cursor.offset other.memory.size })
    | .error reason final =>
      reason = .outOfRange (max cursor.offset cursor.memory.size) cursor.memory.size ∧
      final = { cursor with offset := max cursor.offset cursor.memory.size } := by
  have hforward := isForward_decode mode size32
  cases hdecode : decode mode size32 cursor with
  | error reason final => exact hforward.cut hdecode
  | ok instruction final =>
    obtain ⟨hoffset, hlength, hfinal⟩ := decode_extent hdecode
    rw [next, hoffset] at hfinal
    have hstop : final.offset = cursor.offset + instruction.length := congrArg Cursor.offset hfinal
    have hwithin : final.offset ≤ cursor.memory.size := by
      obtain ⟨-, -, -, hreach⟩ := hforward.extent hdecode
      rw [Cursor.reach] at hreach
      omega
    have hfits : final.offset ≤ 2 ^ 32 := hwithin.trans hsize
    refine ⟨hfinal, hwithin, fun other hother ↦ ⟨fun hholds hshares ↦ ?_, fun hends hshares ↦ ?_⟩⟩
    · exact hforward.repeats other hdecode hother (hholds.trans (Nat.le_max_right _ _))
        (hshares.agrees hfits)
    · rw [← hother] at hshares ⊢
      by_cases hbehind : other.offset ≤ other.memory.size
      · have hreach : other.reach = other.memory.size := Nat.max_eq_right hbehind
        refine hforward.runsOut other hdecode hother (by rwa [hreach]) ?_
        rw [hreach, ← hother]
        exact hshares.agrees (Nat.le_of_lt (Nat.lt_of_lt_of_le hends hfits))
      · -- The other cursor starts behind the end of its region, so that there is nothing to share.
        have hreach : other.reach = other.offset := Nat.max_eq_left (Nat.le_of_not_le hbehind)
        refine hforward.runsOut other hdecode hother ?_ fun place hfirst hlast ↦ ?_
        · rw [hreach, hother, hstop]
          exact Nat.lt_add_of_pos_right hlength
        · rw [hreach, hother] at hlast
          exact absurd hfirst (Nat.not_le_of_lt hlast)

/-- A doubleword for a register under the operand size prefix, and a NOP. -/
def loadCode : Memory := .rom #[0x66, 0xB8, 0x78, 0x56, 0x34, 0x12, 0x90]

/-- The same bytes in a region that can be written and ends right behind the instruction. -/
def wholeLoad : Cursor := .start (.ram (.ofBytes #[0x66, 0xB8, 0x78, 0x56, 0x34, 0x12])) 0

/-- The region ends within the immediate. -/
def shortLoad : Cursor := .start (.rom #[0x66, 0xB8, 0x78]) 0

def loadDoubleword : Instruction where
  offset := 0
  length := 6
  opcode := 0xB8
  prefixes := { operandSize := true }
  modrm := none
  operand32 := true
  address32 := false
  flow := .sequential
  branch := none

theorem decode_selfDelimiting_load :
    (Cursor.start loadCode 0).memory.size ≤ 2 ^ 32 ∧
      decode .real false (Cursor.start loadCode 0) = .ok loadDoubleword ⟨loadCode, 0, 6⟩ ∧
      decode .real false wholeLoad = .ok loadDoubleword { wholeLoad with offset := 6 } ∧
      decode .real false shortLoad = .error (.outOfRange 3 3) { shortLoad with offset := 3 } := by
  have hsize : (Cursor.start loadCode 0).memory.size ≤ 2 ^ 32 := by decide
  have hdecode : decode .real false (Cursor.start loadCode 0) =
      .ok loadDoubleword ⟨loadCode, 0, 6⟩ := by cbv
  have hdelimited := decode_selfDelimiting .real false (Cursor.start loadCode 0) hsize
  rw [hdecode] at hdelimited
  obtain ⟨-, -, hothers⟩ := hdelimited
  refine ⟨hsize, hdecode, ?_, ?_⟩
  · exact (hothers wholeLoad rfl).1 (by decide) (by decide)
  · exact (hothers shortLoad rfl).2 (by decide) (by decide)

end Instruction

end GuestMachine

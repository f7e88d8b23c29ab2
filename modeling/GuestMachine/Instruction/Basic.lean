import GuestMachine.Instruction.Opcode
import GuestMachine.Instruction.Prefixes

/-!
# Instructions

An instruction as far as its length and its effect on control are concerned. Offsets are 64 bits
wide: the target of a relative branch wraps at the end of that range.
-/

namespace GuestMachine

inductive BranchTarget where
  /-- A displacement from the end of the instruction. -/
  | relative (displacement : Int)
  | far (selector : UInt16) (offset : UInt32)
  deriving DecidableEq, Repr

structure Instruction where
  /-- Where the first byte stands, prefixes included. -/
  offset : Nat
  length : Nat
  /-- The opcode; one of the second map has 0F as its high byte. -/
  opcode : UInt16
  prefixes : Prefixes
  modrm : Option UInt8
  operand32 : Bool
  address32 : Bool
  flow : Flow
  branch : Option BranchTarget
  deriving DecidableEq, Repr

namespace Instruction

/-- The offset after the last byte. -/
def next (instruction : Instruction) : Nat := instruction.offset + instruction.length

/-- Where a relative branch leads. -/
def relativeTarget? (instruction : Instruction) : Option Nat :=
  match instruction.branch with
  | some (.relative displacement) =>
    some ((instruction.next + displacement) % (UInt64.size : Int)).toNat
  | _ => none

def isNop (instruction : Instruction) : Bool :=
  instruction.opcode == 0x90 && instruction.prefixes == .empty

end Instruction

end GuestMachine

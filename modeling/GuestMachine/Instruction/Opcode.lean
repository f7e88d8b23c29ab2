import GuestMachine.Mode
import GuestMachine.Fault

/-!
# Opcodes

What has to be known of an opcode to find the end of its instruction and of its block: whether a
ModRM byte follows, which immediate follows, and how control goes on. The attributes stand in two
tables of ranges, one for each opcode map; `refine` then applies the ModRM byte, which selects the
operation of a group and makes some forms undefined.
-/

namespace GuestMachine

/-- What follows the opcode, its ModRM byte and its displacement. -/
inductive Immediate where
  | absent
  | byte
  | word
  | wordByte
  /-- A word or a doubleword, by operand size. -/
  | full
  /-- An offset by operand size, then a selector. -/
  | farPointer
  /-- An offset by address size. -/
  | memoryOffset
  deriving DecidableEq, Repr, Inhabited

/-- How control goes on after an instruction. -/
inductive Flow where
  | sequential
  | jump
  | conditionalJump
  | call
  | ret
  | interrupt
  | halt
  /-- The instruction may change what later instructions decode to. -/
  | modeChange
  /-- Interrupts are held off until the next instruction is done. -/
  | interruptShadow
  | invalid (fault : Fault)
  deriving DecidableEq, Repr, Inhabited

namespace Flow

def undefined : Flow := invalid .undefinedOpcode

def tooLong : Flow := invalid .protection0

/-- Whether a block ends after the instruction. -/
def isTerminator : Flow → Bool
  | sequential | interruptShadow => false
  | _ => true

def isShadow : Flow → Bool
  | interruptShadow => true
  | _ => false

end Flow

namespace Opcode

structure Attributes where
  modrm : Bool := false
  immediate : Immediate := .absent
  flow : Flow := .sequential
  /-- The immediate is a displacement from the end of the instruction. -/
  relative : Bool := false
  deriving DecidableEq, Repr, Inhabited

namespace Attributes

def plain : Attributes := {}

def undefined : Attributes := { flow := .undefined }

/-- A ModRM byte follows, and nothing else. -/
def operand : Attributes := { modrm := true }

def operandWith (immediate : Immediate) : Attributes := { modrm := true, immediate }

def direct (immediate : Immediate) : Attributes := { immediate }

def branch (flow : Flow) (immediate : Immediate) : Attributes :=
  { immediate, flow, relative := true }

def ending (flow : Flow) (immediate : Immediate) : Attributes := { immediate, flow }

end Attributes

/-- The opcodes from `first` to `last` share their attributes. -/
structure Row where
  first : UInt8
  last : UInt8
  attributes : Attributes

def Row.covers (row : Row) (opcode : UInt8) : Bool :=
  decide (row.first ≤ opcode) && decide (opcode ≤ row.last)

def lookup (rows : List Row) (other : Attributes) (opcode : UInt8) : Attributes :=
  match rows.find? (·.covers opcode) with
  | some row => row.attributes
  | none => other

/-! ## The opcode maps -/

/-- The arithmetic opcodes below 40 repeat the same eight columns. -/
def arithmetic (opcode : UInt8) : Attributes :=
  match opcode.toNat % 8 with
  | 0 | 1 | 2 | 3 => .operand
  | 4 => .direct .byte
  | 5 => .direct .full
  | _ => if opcode = 0x17 then { flow := .interruptShadow } else .plain

open Attributes in
def oneByteRows : List Row := [
  ⟨0x62, 0x63, operand⟩,
  ⟨0x68, 0x68, direct .full⟩,
  ⟨0x69, 0x69, operandWith .full⟩,
  ⟨0x6A, 0x6A, direct .byte⟩,
  ⟨0x6B, 0x6B, operandWith .byte⟩,
  ⟨0x70, 0x7F, branch .conditionalJump .byte⟩,
  ⟨0x81, 0x81, operandWith .full⟩,
  ⟨0x80, 0x83, operandWith .byte⟩,
  ⟨0x84, 0x8F, operand⟩,
  ⟨0x9A, 0x9A, ending .call .farPointer⟩,
  ⟨0x9D, 0x9D, ending .modeChange .absent⟩,
  ⟨0xA0, 0xA3, direct .memoryOffset⟩,
  ⟨0xA8, 0xA8, direct .byte⟩,
  ⟨0xA9, 0xA9, direct .full⟩,
  ⟨0xB0, 0xB7, direct .byte⟩,
  ⟨0xB8, 0xBF, direct .full⟩,
  ⟨0xC0, 0xC1, operandWith .byte⟩,
  ⟨0xC2, 0xC2, ending .ret .word⟩,
  ⟨0xC3, 0xC3, ending .ret .absent⟩,
  ⟨0xC4, 0xC5, operand⟩,
  ⟨0xC6, 0xC6, operandWith .byte⟩,
  ⟨0xC7, 0xC7, operandWith .full⟩,
  ⟨0xC8, 0xC8, direct .wordByte⟩,
  ⟨0xCA, 0xCA, ending .ret .word⟩,
  ⟨0xCB, 0xCB, ending .ret .absent⟩,
  ⟨0xCC, 0xCC, ending .interrupt .absent⟩,
  ⟨0xCD, 0xCD, ending .interrupt .byte⟩,
  ⟨0xCE, 0xCE, ending .interrupt .absent⟩,
  ⟨0xCF, 0xCF, ending .ret .absent⟩,
  ⟨0xD0, 0xD3, operand⟩,
  ⟨0xD4, 0xD5, direct .byte⟩,
  ⟨0xD8, 0xDF, operand⟩,
  ⟨0xE0, 0xE3, branch .conditionalJump .byte⟩,
  ⟨0xE4, 0xE7, direct .byte⟩,
  ⟨0xE8, 0xE8, branch .call .full⟩,
  ⟨0xE9, 0xE9, branch .jump .full⟩,
  ⟨0xEA, 0xEA, ending .jump .farPointer⟩,
  ⟨0xEB, 0xEB, branch .jump .byte⟩,
  ⟨0xF1, 0xF1, ending .interrupt .absent⟩,
  ⟨0xF4, 0xF4, ending .halt .absent⟩,
  ⟨0xF6, 0xF7, operand⟩,
  ⟨0xFB, 0xFB, ending .interruptShadow .absent⟩,
  ⟨0xFE, 0xFF, operand⟩]

/-- The attributes of an opcode of one byte. -/
def oneByte (opcode : UInt8) : Attributes :=
  if opcode < 0x40 then arithmetic opcode else lookup oneByteRows .plain opcode

open Attributes in
def twoByteRows : List Row := [
  ⟨0x00, 0x03, operand⟩,
  ⟨0x06, 0x06, plain⟩,
  ⟨0x08, 0x09, plain⟩,
  ⟨0x20, 0x21, operand⟩,
  ⟨0x22, 0x22, { operand with flow := .modeChange }⟩,
  ⟨0x23, 0x24, operand⟩,
  ⟨0x26, 0x26, operand⟩,
  ⟨0x30, 0x33, plain⟩,
  ⟨0x40, 0x4F, operand⟩,
  ⟨0x80, 0x8F, branch .conditionalJump .full⟩,
  ⟨0x90, 0x9F, operand⟩,
  ⟨0xA0, 0xA2, plain⟩,
  ⟨0xA3, 0xA3, operand⟩,
  ⟨0xA4, 0xA4, operandWith .byte⟩,
  ⟨0xA5, 0xA5, operand⟩,
  ⟨0xA8, 0xA9, plain⟩,
  ⟨0xAA, 0xAA, ending .modeChange .absent⟩,
  ⟨0xAB, 0xAB, operand⟩,
  ⟨0xAC, 0xAC, operandWith .byte⟩,
  ⟨0xAD, 0xAD, operand⟩,
  ⟨0xAF, 0xAF, operand⟩,
  ⟨0xB0, 0xB7, operand⟩,
  ⟨0xBA, 0xBA, operandWith .byte⟩,
  ⟨0xBB, 0xBF, operand⟩,
  ⟨0xC0, 0xC1, operand⟩,
  ⟨0xC7, 0xC7, operand⟩,
  ⟨0xC8, 0xCF, plain⟩]

/-- The attributes of an opcode after the escape byte 0F. -/
def twoByte (opcode : UInt8) : Attributes := lookup twoByteRows .undefined opcode

/-! ## The ModRM byte -/

/-- The opcodes between general and control, debug or test registers take any ModRM byte for a
pair of registers. -/
def ignoresModrmMode (opcode : UInt16) : Bool :=
  decide (0x0F20 ≤ opcode) && decide (opcode ≤ 0x0F26)

/-- Applies the ModRM byte to the attributes of an opcode. -/
def refine (mode : Mode) (opcode : UInt16) (modrm : UInt8) (info : Attributes) : Attributes :=
  let reg := modrm.toNat / 8 % 8
  let register := decide (modrm.toNat / 64 = 3)
  let guarded := decide (mode = .protectedMode)
  let undefinedIf (condition : Bool) : Attributes := if condition then .undefined else info
  match opcode with
  | 0x62 | 0x8D | 0xC4 | 0xC5 => undefinedIf register
  | 0x63 => undefinedIf !guarded
  | 0x8C => undefinedIf (reg > 5)
  | 0x8E =>
    match reg with
    | 1 | 6 | 7 => .undefined
    | 2 => { info with flow := .interruptShadow }
    | _ => info
  | 0x8F | 0xC6 | 0xC7 => undefinedIf (reg ≠ 0)
  | 0xF6 => if reg < 2 then { info with immediate := .byte } else info
  | 0xF7 => if reg < 2 then { info with immediate := .full } else info
  | 0xFE => undefinedIf (reg > 1)
  | 0xFF =>
    match reg, register with
    | 2, _ | 3, false => { info with flow := .call }
    | 4, _ | 5, false => { info with flow := .jump }
    | 3, true | 5, true | 7, _ => .undefined
    | _, _ => info
  | 0x0F00 => undefinedIf (!guarded || reg > 5)
  | 0x0F01 =>
    match reg with
    | 5 => .undefined
    | 6 => { info with flow := .modeChange }
    | 4 => info
    | _ => undefinedIf register
  | 0x0FB2 | 0x0FB4 | 0x0FB5 => undefinedIf register
  | 0x0FBA => undefinedIf (reg < 4)
  | 0x0FC7 => undefinedIf (reg ≠ 1 || register)
  | _ => info

end Opcode

end GuestMachine

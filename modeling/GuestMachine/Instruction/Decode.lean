import GuestMachine.Instruction.Basic
import GuestMachine.Memory.Cursor

/-!
# Decoding

Decoding finds the length of one instruction and where control goes after it. Only the end of the
region is an error: an undefined encoding is an instruction whose flow is a fault. No instruction
may be longer than 15 bytes; the fifteenth prefix ends the search for an opcode, and a longer
encoding is read to its end and then refused.
-/

namespace GuestMachine

namespace Instruction

def maxLength : Nat := 15

/-- What stands before the operands: prefixes and the byte after them, or too many prefixes. -/
inductive Head where
  | opcode (prefixes : Prefixes) (byte : UInt8)
  | overlong (prefixes : Prefixes) (last : UInt8)
  deriving DecidableEq, Repr

/-- Reads prefixes and the byte after them. At most `room` prefixes are allowed. -/
def scanHead : Nat → Prefixes → Scan Head
  | room, prefixes => do
    let byte ← Cursor.nextByte
    match Prefix.ofByte? byte with
    | none => return .opcode prefixes byte
    | some mark =>
      match room with
      | 0 => return .overlong (prefixes.add mark) byte
      | room + 1 => scanHead room (prefixes.add mark)

/-- Steps over `count` bytes, each of which has to be there. -/
def scanBytes : Nat → Scan Unit
  | 0 => return ()
  | count + 1 => do
    let _ ← Cursor.nextByte
    scanBytes count

/-- Steps over the scale-index-base byte and the displacement that a ModRM byte calls for. -/
def scanDisplacement (modrm : UInt8) (address32 : Bool) : Scan Unit := do
  let form := modrm.toNat / 64
  let base := modrm.toNat % 8
  if address32 then
    let absolute ←
      if form ≠ 3 ∧ base = 4 then do
        let sib ← Cursor.nextByte
        pure (sib.toNat % 8 == 5)
      else
        pure (base == 5)
    match form with
    | 0 => scanBytes (if absolute then 4 else 0)
    | 1 => scanBytes 1
    | 2 => scanBytes 4
    | _ => return ()
  else
    match form with
    | 0 => scanBytes (if base = 6 then 2 else 0)
    | 1 => scanBytes 1
    | 2 => scanBytes 2
    | _ => return ()

/-- Steps over an immediate and returns the branch target it holds. -/
def scanImmediate (info : Opcode.Attributes) (operand32 address32 : Bool) :
    Scan (Option BranchTarget) := do
  let relative (displacement : Int) : Option BranchTarget :=
    if info.relative then some (.relative displacement) else none
  match info.immediate with
  | .absent => return none
  | .byte => return relative (← Cursor.nextByte).toInt8.toInt
  | .word =>
    let _ ← Cursor.nextWord
    return none
  | .wordByte =>
    let _ ← Cursor.nextWord
    let _ ← Cursor.nextByte
    return none
  | .full =>
    if operand32 then
      return relative (← Cursor.nextDoubleword).toInt32.toInt
    else
      return relative (← Cursor.nextWord).toInt16.toInt
  | .farPointer =>
    let offset ← if operand32 then Cursor.nextDoubleword else (·.toUInt32) <$> Cursor.nextWord
    let selector ← Cursor.nextWord
    return some (.far selector offset)
  | .memoryOffset =>
    if address32 then
      let _ ← Cursor.nextDoubleword
      return none
    else
      let _ ← Cursor.nextWord
      return none

/-- The opcode with its map as the high byte, and its attributes. -/
def scanOpcode (byte : UInt8) : Scan (UInt16 × Opcode.Attributes) := do
  if byte = 0x0F then
    let second ← Cursor.nextByte
    return (0x0F00 + second.toUInt16, Opcode.twoByte second)
  else
    return (byte.toUInt16, Opcode.oneByte byte)

/-- Reads the ModRM byte of an opcode that has one, steps over what that byte calls for and applies
it to the attributes. -/
def scanModrm (mode : Mode) (opcode : UInt16) (info : Opcode.Attributes) (address32 : Bool) :
    Scan (Option UInt8 × Opcode.Attributes) := do
  if info.modrm then
    let modrm ← Cursor.nextByte
    if !Opcode.ignoresModrmMode opcode then scanDisplacement modrm address32
    return (some modrm, Opcode.refine mode opcode modrm info)
  else
    return (none, info)

/-- Decodes the rest of the instruction at `start` after its prefixes and the byte after them. -/
def decodeBody (mode : Mode) (size32 : Bool) (start : Nat) (prefixes : Prefixes) (byte : UInt8) :
    Scan Instruction := do
  let operand32 := size32 != prefixes.operandSize
  let address32 := size32 != prefixes.addressSize
  let (opcode, info) ← scanOpcode byte
  let (modrm, info) ← scanModrm mode opcode info address32
  let branch ← scanImmediate info operand32 address32
  let length := (← Cursor.position) - start
  return {
    offset := start
    length
    opcode
    prefixes := { prefixes with escape := byte == 0x0F }
    modrm
    operand32
    address32
    flow := if length > maxLength then .tooLong else info.flow
    branch }

/-- Decodes the instruction at the cursor. `size32` says whether operands and addresses are 32 bits
wide without a prefix. -/
def decode (mode : Mode) (size32 : Bool) : Scan Instruction := do
  let start ← Cursor.position
  match ← scanHead (maxLength - 1) .empty with
  | .overlong prefixes last =>
    return {
      offset := start
      length := maxLength
      opcode := last.toUInt16
      prefixes
      modrm := none
      operand32 := size32
      address32 := size32
      flow := .tooLong
      branch := none }
  | .opcode prefixes byte => decodeBody mode size32 start prefixes byte

end Instruction

end GuestMachine

/-!
# Instruction prefixes

The bytes that may stand before an opcode, and what a run of them amounts to. Of several segment
overrides the last one counts, and so of several repetitions; a size prefix counts once, however
often it is repeated. The escape byte, which selects the second opcode map, is recorded with them.
-/

namespace GuestMachine

inductive SegmentOverride where
  | es
  | cs
  | ss
  | ds
  | fs
  | gs
  deriving DecidableEq, Repr

inductive Repetition where
  | whileNotEqual
  | whileEqual
  deriving DecidableEq, Repr

/-- The meaning of one prefix byte. -/
inductive Prefix where
  | segment (override : SegmentOverride)
  | repetition (condition : Repetition)
  | lock
  | operandSize
  | addressSize
  deriving DecidableEq, Repr

def Prefix.ofByte? (byte : UInt8) : Option Prefix :=
  match byte with
  | 0x26 => some (segment .es)
  | 0x2E => some (segment .cs)
  | 0x36 => some (segment .ss)
  | 0x3E => some (segment .ds)
  | 0x64 => some (segment .fs)
  | 0x65 => some (segment .gs)
  | 0x66 => some operandSize
  | 0x67 => some addressSize
  | 0xF0 => some lock
  | 0xF2 => some (repetition .whileNotEqual)
  | 0xF3 => some (repetition .whileEqual)
  | _ => none

/-- What the prefixes of an instruction amount to. -/
structure Prefixes where
  segment : Option SegmentOverride := none
  repetition : Option Repetition := none
  lock : Bool := false
  operandSize : Bool := false
  addressSize : Bool := false
  /-- The opcode is of the second map. -/
  escape : Bool := false
  deriving DecidableEq, Repr, Inhabited

namespace Prefixes

def empty : Prefixes := {}

def add (prefixes : Prefixes) : Prefix → Prefixes
  | .segment override => { prefixes with segment := some override }
  | .repetition condition => { prefixes with repetition := some condition }
  | .lock => { prefixes with lock := true }
  | .operandSize => { prefixes with operandSize := true }
  | .addressSize => { prefixes with addressSize := true }

def segmentBits : SegmentOverride → Nat
  | .es => 0x0004
  | .cs => 0x0008
  | .ss => 0x0010
  | .ds => 0x0020
  | .fs => 0x4000
  | .gs => 0x2000

def repetitionBits : Repetition → Nat
  | .whileNotEqual => 0x0100
  | .whileEqual => 0x0200

/-- The prefixes as a set of bits, one for each. -/
def bits (prefixes : Prefixes) : Nat :=
  prefixes.segment.elim 0 segmentBits + prefixes.repetition.elim 0 repetitionBits +
    (if prefixes.lock then 0x0080 else 0) + (if prefixes.operandSize then 0x0400 else 0) +
    (if prefixes.addressSize then 0x0800 else 0) + (if prefixes.escape then 0x8000 else 0)

end Prefixes

end GuestMachine

import GuestMachine.Instruction.Basic

/-!
# Block operations

A block holds operations rather than instructions. The baseline tier has one operation for each
instruction; the optimised tier joins neighbouring one-byte NOPs into a run. An instruction that
cannot be carried out becomes the fault it raises.
-/

namespace GuestMachine

/-- How much work goes into a block. -/
inductive Tier where
  | baseline
  | optimised
  deriving DecidableEq, Repr, Inhabited

namespace Tier

def text : Tier → String
  | baseline => "Baseline"
  | optimised => "Optimised"

def ofText? : String → Option Tier
  | "Baseline" => some baseline
  | "Optimised" => some optimised
  | _ => none

/-- Whether a request for the tier `requested` may be met with this one. -/
def isWithin (tier requested : Tier) : Bool :=
  match tier, requested with
  | optimised, baseline => false
  | _, _ => true

end Tier

inductive Op where
  | execute (instruction : Instruction)
  /-- `count` one-byte NOPs that take up `length` bytes. -/
  | nopRun (offset length count : Nat)
  | raise (offset length : Nat) (fault : Fault)
  deriving DecidableEq, Repr

namespace Op

/-- The number of instructions that the operation stands for. -/
def count : Op → Nat
  | nopRun _ _ count => count
  | execute _ | raise _ _ _ => 1

def offset : Op → Nat
  | execute instruction => instruction.offset
  | nopRun offset _ _ | raise offset _ _ => offset

def length : Op → Nat
  | execute instruction => instruction.length
  | nopRun _ length _ | raise _ length _ => length

def ofInstruction (instruction : Instruction) : Op :=
  match instruction.flow with
  | .invalid fault => raise instruction.offset instruction.length fault
  | _ => execute instruction

/-- Adds an instruction to operations that are given latest first. A NOP joins the NOP or the run of
NOPs before it. -/
def fuse (ops : List Op) (instruction : Instruction) : List Op :=
  match instruction.isNop, ops with
  | true, nopRun offset length count :: earlier =>
    nopRun offset (length + instruction.length) (count + 1) :: earlier
  | true, execute previous :: earlier =>
    if previous.isNop then
      nopRun previous.offset (previous.length + instruction.length) 2 :: earlier
    else
      ofInstruction instruction :: ops
  | _, _ => ofInstruction instruction :: ops

end Op

/-- The operations of a sequence of instructions. -/
def Tier.compile (tier : Tier) (instructions : List Instruction) : List Op :=
  match tier with
  | baseline => instructions.map Op.ofInstruction
  | optimised => (instructions.foldl Op.fuse []).reverse

end GuestMachine

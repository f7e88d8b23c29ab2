import GuestMachine.Block.Op
import GuestMachine.Instruction.Sequence
import GuestMachine.Error

/-!
# Building blocks

A factory decodes a sequence of instructions and compiles it at one tier; a chain asks its factories
in order and takes the first that may answer. Where the region ends too early for a block, the chain
leaves a stub, which stands for the instruction that is cut off. A block keeps the chain it came
from, so that it can be rebuilt.
-/

namespace GuestMachine

structure Factory where
  tier : Tier
  limit : Nat
  deriving DecidableEq, Repr

/-- The factories of one mode. With a threshold, a baseline block is promoted when it has been
executed that often. -/
structure Chain where
  mode : Mode
  factories : List Factory
  hotThreshold : Option UInt32
  deriving DecidableEq, Repr

structure CompiledBlock where
  start : Nat
  length : Nat
  instructionCount : Nat
  tier : Tier
  ops : List Op
  /-- The version of the code when it was decoded. -/
  version : UInt64
  /-- How often the block was started, up to the largest number that fits. -/
  executions : UInt32
  deriving DecidableEq, Repr

inductive BlockBody where
  | compiled (code : CompiledBlock)
  /-- The first instruction runs past the end of the region. -/
  | spanning (start : Nat)
  deriving DecidableEq, Repr

structure Block where
  chain : Chain
  /-- The size flag of the code segment. -/
  size32 : Bool
  body : BlockBody
  deriving DecidableEq, Repr

/-! ## Properties of a block -/

namespace Block

def mode (block : Block) : Mode := block.chain.mode

def start (block : Block) : Nat :=
  match block.body with
  | .compiled code => code.start
  | .spanning start => start

/-- The number of bytes that the block was decoded from; a stub has taken none. -/
def byteLength (block : Block) : Nat :=
  match block.body with
  | .compiled code => code.length
  | .spanning _ => 0

/-- The number of instructions; a stub stands for the one that is cut off. -/
def instructionCount (block : Block) : Nat :=
  match block.body with
  | .compiled code => code.instructionCount
  | .spanning _ => 1

def isSpanning (block : Block) : Bool :=
  match block.body with
  | .compiled _ => false
  | .spanning _ => true

def tier? (block : Block) : Option Tier :=
  match block.body with
  | .compiled code => some code.tier
  | .spanning _ => none

def ops (block : Block) : List Op :=
  match block.body with
  | .compiled code => code.ops
  | .spanning _ => []

def executions (block : Block) : UInt32 :=
  match block.body with
  | .compiled code => code.executions
  | .spanning _ => 0

/-- The offset after the last byte. -/
def stop (block : Block) : Nat := block.start + block.byteLength

end Block

/-! ## Factories and chains -/

namespace Factory

/-- Builds a block at the cursor, unless the factory's tier is above the requested one. -/
def make? (factory : Factory) (mode : Mode) (size32 : Bool) (requested : Tier) :
    Scan (Option CompiledBlock) := do
  if factory.tier.isWithin requested then
    let cursor ← get
    let start := cursor.offset
    let instructions ← Instruction.decodeBlock mode (mode.defaultSize32 size32) factory.limit
    let length := (instructions.getLast?.elim start Instruction.next) - start
    return some {
      start
      length
      instructionCount := instructions.length
      tier := factory.tier
      ops := factory.tier.compile instructions
      version := cursor.memory.codeVersion (UInt32.ofNat start) length
      executions := 0 }
  else
    return none

end Factory

namespace Chain

/-- A chain without an optimising factory has nothing to promote to and forgets its threshold. -/
def ofFactories (mode : Mode) (factories : List Factory) (hotThreshold : Option UInt32) :
    Chain where
  mode
  factories
  hotThreshold := if factories.any (·.tier == .optimised) then hotThreshold else none

/-- The first answer of the given factories, each of which starts at `offset`. -/
def ask (chain : Chain) (memory : Memory) (offset : Nat) (size32 : Bool) (requested : Tier) :
    List Factory → Except Error Block
  | [] => .error (.internal (.noBlockProduced chain.mode))
  | factory :: others =>
    match factory.make? chain.mode size32 requested (Cursor.start memory offset) with
    | .ok (some code) _ => .ok ⟨chain, size32, .compiled code⟩
    | .ok none _ => chain.ask memory offset size32 requested others
    | .error _ _ => .ok ⟨chain, size32, .spanning offset⟩

/-- Builds the block at an offset. -/
def build (chain : Chain) (memory : Memory) (offset : Nat) (size32 : Bool) (requested : Tier) :
    Except Error Block :=
  chain.ask memory offset size32 requested chain.factories

end Chain

end GuestMachine

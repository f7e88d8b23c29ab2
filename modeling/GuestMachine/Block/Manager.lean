import GuestMachine.Block.Chain
import GuestMachine.Config.Core

/-!
# Block managers

A manager holds the options that all blocks are built with and so one chain for each mode. With a
threshold the chain starts with an optimising factory, which only answers when a block is promoted.
-/

namespace GuestMachine

structure Manager where
  blockLimit : Nat
  hotThreshold : Option UInt32
  minBlockLimit_le : minBlockLimit ≤ blockLimit
  hotThreshold_ne_zero : hotThreshold ≠ some 0

namespace Manager

def build (blockLimit : Nat) (hotThreshold : Option UInt32) : Except OptionError Manager :=
  match valid : CoreOptions.validate { blockLimit, hotThreshold } with
  | .error reason => .error reason
  | .ok () =>
    have valid := CoreOptions.validate_eq_ok_iff.mp valid
    .ok ⟨blockLimit, hotThreshold, valid.1, valid.2⟩

def factories (manager : Manager) : List Factory :=
  (if manager.hotThreshold.isSome then [⟨.optimised, manager.blockLimit⟩] else []) ++
    [⟨.baseline, manager.blockLimit⟩]

def chain (manager : Manager) (mode : Mode) : Chain :=
  .ofFactories mode manager.factories manager.hotThreshold

/-- Builds the block at an offset. Only in protected mode does the size flag of the code segment
matter. -/
def blockAt (manager : Manager) (mode : Mode) (memory : Memory) (offset : Nat) (size32 : Bool) :
    Except Error Block :=
  (manager.chain mode).build memory offset (mode.defaultSize32 size32) .baseline

end Manager

end GuestMachine

import GuestMachine.Config.Core
import GuestMachine.Mode

/-!
# Configuration

Everything that a run depends on besides the guest image itself, with the values that hold where
nothing else is said.
-/

namespace GuestMachine

structure MachineOptions where
  /-- The path of the guest image. -/
  image : Option String := none
  /-- Where the image is loaded and where execution begins. -/
  loadAddress : UInt32 := 0
  memorySize : Nat := 0x100000
  mode : Mode := .real
  /-- The size flag of the code segment. -/
  code32 : Bool := false
  maxBlocks : Nat := 100000
  /-- The period of the timer in executed instructions, if there is one. -/
  timerPeriod : Option Nat := none
  traceFile : Option String := none
  traceConsole : Bool := false
  deriving DecidableEq, Repr, Inhabited

structure Configuration where
  machine : MachineOptions := {}
  core : CoreOptions := {}
  deriving DecidableEq, Repr, Inhabited

end GuestMachine

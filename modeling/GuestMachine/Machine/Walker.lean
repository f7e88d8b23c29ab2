import GuestMachine.Block.Execute

/-!
# The walker

An executor that carries out control flow and nothing else, so that the blocks of a run follow the
guest program. Of conditional branches every second one is taken, which lets loops end without any
data. A branch whose target is not in the instruction is not followed.
-/

namespace GuestMachine

structure Walker where
  ip : Nat
  halted : Bool := false
  /-- Where the open calls return to, latest first. -/
  returns : List Nat := []
  branchesTaken : Nat := 0
  conditionalsSeen : Nat := 0
  deriving DecidableEq, Repr

namespace Walker

/-- Further calls are followed without being remembered. -/
def maxCallDepth : Nat := 256

/-- Where a branch leads, if the instruction says so. -/
def target? (instruction : Instruction) : Option Nat :=
  match instruction.branch with
  | some (.far _ offset) => some offset.toNat
  | _ => instruction.relativeTarget?

/-- Follows a branch to a known target. -/
def take (walker : Walker) (instruction : Instruction) : Progress × Walker :=
  match target? instruction with
  | some target => (.leave, { walker with ip := target, branchesTaken := walker.branchesTaken + 1 })
  | none => (.proceed, walker)

/-- Remembers where a call returns to. -/
def pushReturn (walker : Walker) : Walker :=
  if walker.returns.length < maxCallDepth then
    { walker with returns := walker.ip :: walker.returns }
  else
    walker

/-- Goes back to the latest open call; without one the guest is done. -/
def popReturn (walker : Walker) : Walker :=
  match walker.returns with
  | ip :: returns => { walker with ip, returns }
  | [] => { walker with halted := true }

def execute (instruction : Instruction) (walker : Walker) : Progress × Walker :=
  let walker := { walker with ip := instruction.next }
  match instruction.flow with
  | .jump => walker.take instruction
  | .conditionalJump =>
    let walker := { walker with conditionalsSeen := walker.conditionalsSeen + 1 }
    if walker.conditionalsSeen % 2 = 0 then walker.take instruction else (.leave, walker)
  | .call => walker.pushReturn.take instruction
  | .ret => (.leave, walker.popReturn)
  | .halt => (.leave, { walker with halted := true })
  | .interrupt | .modeChange => (.leave, walker)
  | .sequential | .interruptShadow | .invalid _ => (.proceed, walker)

def skip (length : Nat) (walker : Walker) : Walker := { walker with ip := walker.ip + length }

def executor : Executor Walker where
  execute instruction walker :=
    let (progress, walker) := execute instruction walker
    (.ok progress, walker)
  skip length _ := skip length

end Walker

end GuestMachine

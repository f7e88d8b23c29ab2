import GuestMachine.Block.Manager
import GuestMachine.Config.Options
import GuestMachine.Machine.Walker
import GuestMachine.Trace

/-!
# Running a guest

The machine loads an image, builds blocks as control reaches them and executes them until the guest
halts, raises an exception or has used up its budget of blocks. Executed instructions drive the
virtual clock, on which a periodic timer may be armed. The blocks that were built, the clock and the
trace outlive a run.
-/

namespace GuestMachine

inductive SetupError where
  | image (reason : RangeError)
  | core (reason : OptionError)
  | zeroPeriod
  | timer (reason : Error)
  deriving DecidableEq, Repr

def SetupError.message : SetupError → String
  | image reason => "Failed to load guest image: " ++ reason.message
  | core reason => reason.message
  | zeroPeriod => "timer_period must be non-zero"
  | timer reason => reason.message

structure Machine where
  memory : Memory
  manager : Manager
  /-- The blocks that were built, by the offset they start at. -/
  blocks : Std.TreeMap Nat Block := ∅
  clock : Clock := {}
  /-- The period of the timer, if there is one. -/
  period : Option Nat := none
  trace : Trace
  mode : Mode
  code32 : Bool
  entry : Nat
  maxBlocks : Nat

structure RunSummary where
  blocks : Nat := 0
  instructions : Nat := 0
  replacements : Nat := 0
  timerEvents : Nat := 0
  /-- The fault that ended the run. -/
  exception : Option Fault := none
  halted : Bool := false
  deriving DecidableEq, Repr, Inhabited

namespace Machine

/-- The owner of the periodic timer. -/
def tickOwner : TimerOwner := 0

/-- A clock on which the periodic timer, if there is one, is armed for its first expiry. -/
def startClock : Option Nat → Except SetupError Clock
  | none => .ok {}
  | some 0 => .error .zeroPeriod
  | some period =>
    let (id, clock) := Clock.newTimer {} tickOwner
    match clock.setExpiry id period with
    | .ok clock => .ok clock
    | .error reason => .error (.timer reason)

/-- A machine with an image in its memory. -/
def boot (configuration : Configuration) (image : Array UInt8) (trace : Trace) :
    Except SetupError Machine := do
  let options := configuration.machine
  let core := configuration.core
  let empty := Ram.zeroed options.memorySize
  let ram ← (empty.copyFrom image options.loadAddress.toNat).mapError .image
  let manager ← (Manager.build core.blockLimit core.hotThreshold).mapError .core
  let clock ← startClock options.timerPeriod
  return {
    memory := .ram ram
    manager
    clock
    period := options.timerPeriod
    trace
    mode := options.mode
    code32 := options.code32
    entry := options.loadAddress.toNat
    maxBlocks := options.maxBlocks }

/-- The block at an offset, built on first use. -/
def blockAt (machine : Machine) (offset : Nat) : Except Error (Block × Machine) :=
  match machine.blocks[offset]? with
  | some block => .ok (block, machine)
  | none => do
    let block ← machine.manager.blockAt machine.mode machine.memory offset machine.code32
    return (block, { machine with blocks := machine.blocks.insert offset block })

/-! ## Time -/

/-- Records a dispatch, counts it and arms the timer again one period later. -/
def tickHandler (period : Nat) : TimerHandler (Trace × Nat) := fun event (trace, ticks) clock ↦
  let clock :=
    match clock.setExpiry event.id (event.expiry + period) with
    | .ok clock => clock
    | .error _ => clock
  ((trace.pushTimer event, ticks + 1), clock)

/-- Advances the clock to `now` and returns the number of dispatches. Each of them arms the timer at
least one unit later, so that there are at most `now + 1`. -/
def tick (machine : Machine) (now : Nat) : Option (Except Error Nat × Machine) :=
  match machine.period with
  | none => some (.ok 0, machine)
  | some period => do
    let (result, (trace, ticks), clock) ←
      machine.clock.advanceTo (tickHandler period) now (now + 1) (machine.trace, 0)
    return ((fun _ ↦ ticks) <$> result, { machine with trace, clock })

/-! ## Blocks -/

/-- A run under way: the next block is about to be executed. -/
structure Session where
  machine : Machine
  walker : Walker
  block : Block
  summary : RunSummary

/-- What one turn of a run leads to. -/
inductive Turn where
  | next (session : Session)
  | stop (machine : Machine) (summary : RunSummary)
  | fail (machine : Machine) (reason : Error)

/-- After a block was executed: time moves, and control goes on to the next block. -/
def Session.afterBlock (session : Session) (instructions : Nat) : Option Turn := do
  let summary := { session.summary with
    blocks := session.summary.blocks + 1
    instructions := session.summary.instructions + instructions }
  let (result, machine) ← session.machine.tick summary.instructions
  match result with
  | .error reason => return .fail machine reason
  | .ok ticks =>
    let summary := { summary with timerEvents := summary.timerEvents + ticks }
    if session.walker.halted then
      return .stop machine { summary with halted := true }
    else
      match machine.blockAt session.walker.ip with
      | .error reason => return .fail machine reason
      | .ok (block, machine) => return .next { session with machine, block, summary }

/-- Records the block at hand and executes it. -/
def Session.turn (session : Session) : Option Turn :=
  let machine := { session.machine with trace := session.machine.trace.pushBlock session.block }
  let execution := session.block.execute machine.memory Walker.executor session.walker
  let machine := { machine with
    blocks := machine.blocks.insert session.block.start execution.block }
  let summary := session.summary
  match execution.result with
  | .ok (.executed instructions) =>
    { session with machine, walker := execution.state }.afterBlock instructions
  | .ok (.replaced block) =>
    some (.next {
      machine := { machine with blocks := machine.blocks.insert block.start block }
      walker := execution.state
      block
      summary := { summary with replacements := summary.replacements + 1 } })
  | .error (.exception fault) =>
    some (.stop { machine with trace := machine.trace.pushNote fault.text }
      { summary with exception := some fault })
  | .error (.internal cause) => some (.fail machine (.internal cause))

/-- Takes turns until the run ends, at most as many as `bound` says. -/
def Session.finish : (bound : Nat) → Session → Option (Except Error RunSummary × Machine)
  | bound, session =>
    if session.summary.blocks < session.machine.maxBlocks then
      match bound with
      | 0 => none
      | bound + 1 => do
        match ← session.turn with
        | .next session => Session.finish bound session
        | .stop machine summary => return (.ok summary, machine)
        | .fail machine reason => return (.error reason, machine)
    else
      some (.ok session.summary, session.machine)

/-- The number of turns that a run may take: a block is dispatched at most once to be executed and
twice to be replaced, and the last turn may end in a fault. -/
def turnBound (machine : Machine) : Nat := 3 * machine.maxBlocks + 3

/-- Runs the guest from its entry. There is no result if the bound on turns does not suffice. -/
def run (machine : Machine) : Option (Except Error RunSummary × Machine) :=
  match machine.blockAt machine.entry with
  | .error reason => some (.error reason, machine)
  | .ok (block, machine) =>
    Session.finish machine.turnBound
      { machine, walker := { ip := machine.entry }, block, summary := {} }

end Machine

end GuestMachine

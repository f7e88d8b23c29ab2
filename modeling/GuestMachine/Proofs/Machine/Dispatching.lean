import GuestMachine.Proofs.Machine.Following

/-!
# The head of the loop

Whenever a run is about to dispatch a block, that block is built where the walker stands, and so is
every block that the machine keeps. What a turn can then lead to is told here once: the block is
promoted, raises a fault, or hands all of its instructions over, after which the guest has halted or
goes on.
-/

namespace GuestMachine

/-! ## Whole blocks -/

namespace Walker

variable {mode : Mode} {size32 : Bool} {memory : Memory} {offset : Nat} {walker moved : Walker}
  {instruction : Instruction} {instructions : List Instruction}

/-- Only an instruction that ends a block makes the walker leave it. -/
theorem isTerminator_of_leave (hleave : execute instruction walker = (.leave, moved)) :
    instruction.flow.isTerminator = true := by
  unfold execute at hleave
  cases hflow : instruction.flow <;> simp only [hflow] at hleave <;> first | rfl | cases hleave

/-- The walker carries out all instructions of a block, unless the last raises a fault. -/
theorem stretch_cases
    (hstraight : Instruction.IsStraight mode size32 memory offset instructions) :
    ((walker.stretch instructions).fault = none ∧
        (walker.stretch instructions).carriedOut = instructions) ∨
      ∃ last fault, last.flow = .invalid fault ∧
        (walker.stretch instructions).fault = some fault ∧
        (walker.stretch instructions).carriedOut ++ [last] = instructions := by
  induction instructions generalizing offset walker with
  | nil => exact Or.inl ⟨rfl, rfl⟩
  | cons instruction rest ih =>
    obtain ⟨-, hend, hrest⟩ := hstraight
    have hlast (hterminator : instruction.flow.isTerminator = true) : rest = [] := by
      by_contra hne
      exact Bool.false_ne_true ((hend hne).symm.trans hterminator)
    by_cases hinvalid : ∃ fault, instruction.flow = .invalid fault
    · obtain ⟨fault, hflow⟩ := hinvalid
      rw [stretch_cons_of_invalid hflow, hlast (by rw [hflow]; rfl)]
      exact Or.inr ⟨instruction, fault, hflow, rfl, rfl⟩
    · rw [not_exists] at hinvalid
      cases hexecute : execute instruction walker with
      | mk progress moved =>
        cases progress with
        | leave =>
          rw [stretch_cons_of_leave hinvalid hexecute, hlast (isTerminator_of_leave hexecute)]
          exact Or.inl ⟨rfl, rfl⟩
        | proceed =>
          rw [stretch_cons_of_proceed hinvalid hexecute]
          rcases ih hrest with ⟨hnone, hall⟩ | ⟨last, fault, hflow, hfault, hsplit⟩
          · exact Or.inl ⟨hnone, congrArg (instruction :: ·) hall⟩
          · exact Or.inr ⟨last, fault, hflow, hfault, congrArg (instruction :: ·) hsplit⟩

end Walker

namespace Machine

/-- The machine would build the block at the offset, up to its tier and its counter. -/
def Builds (machine : Machine) (offset : Nat) (block : Block) : Prop :=
  ∃ tier executions, block = machine.builtBlock tier executions offset

/-- Every block that is kept is built at the offset it is kept for. -/
def KeepsBuilt (machine : Machine) (blocks : Std.TreeMap Nat Block) : Prop :=
  ∀ offset block, blocks[offset]? = some block → machine.Builds offset block

variable {machine : Machine} {offset : Nat} {block : Block} {blocks : Std.TreeMap Nat Block}

theorem KeepsBuilt.insert (hkept : machine.KeepsBuilt blocks) (hbuilds : machine.Builds offset block) :
    machine.KeepsBuilt (blocks.insert offset block) :=
  forall_insert hkept hbuilds

/-- The machine finds or builds the block at an offset. -/
theorem KeepsBuilt.blockAt (hkept : machine.KeepsBuilt machine.blocks) (offset : Nat) :
    ∃ block found, machine.Builds offset block ∧ machine.KeepsBuilt found ∧
      machine.blockAt offset = .ok (block, { machine with blocks := found }) := by
  cases hfound : machine.blocks[offset]? with
  | some block =>
    refine ⟨block, machine.blocks, hkept offset block hfound, hkept, ?_⟩
    rw [Machine.blockAt, hfound]
  | none =>
    have hbuilds : machine.Builds offset (machine.blockAfter 0 offset) := ⟨_, _, rfl⟩
    refine ⟨_, _, hbuilds, hkept.insert hbuilds, ?_⟩
    rw [Machine.blockAt, hfound]
    dsimp only
    rw [manager_blockAt]
    rfl

/-! ## Turns of a sound session -/

/-- What holds whenever a block is about to be dispatched. -/
structure Session.IsSound (session : Session) : Prop where
  block : session.machine.Builds session.walker.ip session.block
  kept : session.machine.KeepsBuilt session.machine.blocks
  ticking : IsTicking session.machine.period session.machine.clock session.summary.instructions

/-- The blocks that a turn executes: the one at hand, unless it is replaced or fails. -/
def Session.turnExecuted (session : Session) : List Block :=
  match (session.block.execute session.machine.memory Walker.executor session.walker).result with
  | .ok (.executed _) => [session.block]
  | .ok (.replaced _) | .error _ => []

/-- The dispatches of the timer after the block at hand. -/
def Session.events (session : Session) : List TimerEvent :=
  ticks session.machine.period session.summary.instructions
    (session.summary.instructions + session.block.instructionCount)

/-- The summary once the block at hand has been executed. -/
def Session.counted (session : Session) : RunSummary :=
  { session.summary with
    blocks := session.summary.blocks + 1
    instructions := session.summary.instructions + session.block.instructionCount
    timerEvents := session.summary.timerEvents + session.events.length }

/-- The machine once the block at hand was dispatched and the records were made. -/
def Session.dispatched (session : Session) (blocks : Std.TreeMap Nat Block) (clock : Clock)
    (records : List TraceRecord) : Machine :=
  { session.machine with
    blocks
    clock
    trace := (session.machine.trace.pushBlock session.block).pushAll records }

/-- What a turn leads to, and the blocks that it executes. -/
inductive Session.Takes (session : Session) : List Block → Turn → Prop
  | promoted {blocks : Std.TreeMap Nat Block} {other : Block} {later : Session}
      (hbaseline : session.block.tier? = some .baseline) (hoptimised : other.tier? = some .optimised)
      (hlater : later = {
        machine := session.dispatched blocks session.machine.clock []
        walker := session.walker
        block := other
        summary := { session.summary with
          replacements := session.summary.replacements + 1 } })
      (hsound : later.IsSound) : session.Takes [] (.next later)
  | raised (blocks : Std.TreeMap Nat Block) (fault : Fault) :
      session.Takes []
        (.stop (session.dispatched blocks session.machine.clock [.note fault.text])
          { session.summary with exception := some fault })
  | halted (blocks : Std.TreeMap Nat Block) (clock : Clock) :
      session.Takes [session.block]
        (.stop (session.dispatched blocks clock (session.events.map .timer))
          { session.counted with halted := true })
  | running {blocks : Std.TreeMap Nat Block} {clock : Clock} {walker : Walker} {other : Block}
      {later : Session}
      (hlater : later = {
        machine := session.dispatched blocks clock (session.events.map .timer)
        walker
        block := other
        summary := session.counted })
      (hsound : later.IsSound) : session.Takes [session.block] (.next later)

variable {session later : Session} {instructions : List Instruction}

theorem Session.Takes.isSound {executed : List Block} (htakes : session.Takes executed (.next later)) :
    later.IsSound := by
  cases htakes with
  | promoted _ _ _ hsound => exact hsound
  | running _ hsound => exact hsound

/-- The block at hand is carried out as a whole, unless a fault stops the walker. -/
theorem Session.IsSound.length_carriedOut (hsound : session.IsSound)
    (hnone : (session.machine.guest.leg session.walker).fault = none) :
    (session.machine.guest.leg session.walker).carriedOut.length =
      session.block.instructionCount := by
  obtain ⟨tier, executions, hbuilt⟩ := hsound.block
  cases hblock : session.machine.guest.block? session.walker.ip with
  | none =>
    rw [Guest.leg_of_cutOff hblock] at hnone
    cases hnone
  | some instructions =>
    have hisBlock :=
      Instruction.isBlock_of_block? session.machine.manager.minBlockLimit_le hblock
    rw [Guest.leg_of_block? hblock] at hnone ⊢
    rcases Walker.stretch_cases hisBlock.straight with ⟨-, hall⟩ | ⟨last, fault, -, hfault, -⟩
    · rw [hall, hbuilt, builtBlock_of_block? tier executions hblock]
      rfl
    · exact nomatch hnone.symm.trans hfault

theorem turnExecuted_of_walks {kept : Block}
    (hwalks : session.block.Walks session.machine.guest session.walker kept) :
    session.turnExecuted =
      if (session.machine.guest.leg session.walker).fault.isSome then [] else [session.block] := by
  have hexecute := hwalks.execute
  change session.block.execute session.machine.memory _ _ = _ at hexecute
  rw [Session.turnExecuted, hexecute, Stretch.result]
  cases (session.machine.guest.leg session.walker).fault <;> rfl

theorem takes_of_fault {kept : Block} {fault : Fault}
    (hwalks : session.block.Walks session.machine.guest session.walker kept)
    (hfault : (session.machine.guest.leg session.walker).fault = some fault) :
    ∃ turn, session.turn = some turn ∧ session.Takes session.turnExecuted turn := by
  refine ⟨_, turn_of_fault session hwalks hfault, ?_⟩
  rw [turnExecuted_of_walks hwalks, hfault]
  exact .raised _ fault

theorem Session.IsSound.takes_of_none (hsound : session.IsSound) {kept : Block}
    (hwalks : session.block.Walks session.machine.guest session.walker kept)
    (hkept : session.machine.Builds session.walker.ip kept)
    (hnone : (session.machine.guest.leg session.walker).fault = none) :
    ∃ turn, session.turn = some turn ∧ session.Takes session.turnExecuted turn := by
  have hturn := turn_of_walks session hwalks hnone
  rw [hsound.length_carriedOut hnone] at hturn
  rw [turnExecuted_of_walks hwalks, hnone, hturn]
  have hinserted := hsound.kept.insert hkept
  obtain ⟨clock, hticked, htick⟩ := tick_of_isTicking
    { session.machine with
      trace := session.machine.trace.pushBlock session.block
      blocks := session.machine.blocks.insert session.walker.ip kept }
    hsound.ticking (Nat.le_add_right _ session.block.instructionCount)
  cases hhalted : (session.machine.guest.leg session.walker).walker.halted with
  | true => exact ⟨_, afterBlock_of_halted htick hhalted, .halted _ clock⟩
  | false =>
    let moved := session.dispatched (session.machine.blocks.insert session.walker.ip kept) clock
      (session.events.map .timer)
    have hmoved : moved.KeepsBuilt moved.blocks := hinserted
    obtain ⟨other, found, hother, hfound, hblockAt⟩ :=
      hmoved.blockAt (session.machine.guest.leg session.walker).walker.ip
    exact ⟨_, afterBlock_of_running htick hhalted hblockAt, .running rfl ⟨hother, hfound, hticked⟩⟩

/-- A block that is due is promoted. -/
theorem Session.IsSound.takes_of_hot (hsound : session.IsSound) {executions : Nat}
    {threshold : UInt32}
    (hbuilt : session.block = session.machine.builtBlock .baseline executions session.walker.ip)
    (hblock : session.machine.guest.block? session.walker.ip = some instructions)
    (hthreshold : session.machine.manager.hotThreshold = some threshold)
    (hreached : threshold.toNat ≤ executions + 1) :
    ∃ turn, session.turn = some turn ∧ session.Takes session.turnExecuted turn := by
  have hexecute := execute_of_hot Walker.executor session.walker hblock hthreshold hreached
  rw [← hbuilt] at hexecute
  have hstart : session.block.start = session.walker.ip := hbuilt ▸ start_builtBlock
  have hturn := turn_of_replaced session hexecute hstart start_builtBlock
  have htier (tier : Tier) (executions : Nat) :
      (session.machine.builtBlock tier executions session.walker.ip).tier? = some tier := by
    rw [builtBlock_of_block? tier executions hblock]
    rfl
  have hleft : session.machine.Builds session.walker.ip
      (session.machine.builtBlock .baseline (executions + 1) session.walker.ip) := ⟨_, _, rfl⟩
  have hpromoted : session.machine.Builds session.walker.ip
      (session.machine.builtBlock .optimised 0 session.walker.ip) := ⟨_, _, rfl⟩
  rw [Session.turnExecuted, hexecute]
  exact ⟨_, hturn, .promoted (hbuilt ▸ htier .baseline executions) (htier .optimised 0) rfl
    ⟨hpromoted, (hsound.kept.insert hleft).insert hpromoted, hsound.ticking⟩⟩

/-- A turn of a sound session never fails. -/
theorem Session.IsSound.exists_takes (hsound : session.IsSound) :
    ∃ turn, session.turn = some turn ∧ session.Takes session.turnExecuted turn := by
  have hwalked {kept : Block}
      (hwalks : session.block.Walks session.machine.guest session.walker kept)
      (hkept : session.machine.Builds session.walker.ip kept) :
      ∃ turn, session.turn = some turn ∧ session.Takes session.turnExecuted turn := by
    cases hfault : (session.machine.guest.leg session.walker).fault with
    | some fault => exact takes_of_fault hwalks hfault
    | none => exact hsound.takes_of_none hwalks hkept hfault
  obtain ⟨tier, executions, hbuilt⟩ := hsound.block
  cases hblock : session.machine.guest.block? session.walker.ip with
  | none =>
    have hwalks := walks_of_cutOff tier executions hblock
    rw [← hbuilt] at hwalks
    exact hwalked hwalks hsound.block
  | some instructions =>
    by_cases hhot : ∃ threshold, session.machine.manager.hotThreshold = some threshold ∧
        tier = .baseline ∧ threshold.toNat ≤ executions + 1
    · obtain ⟨threshold, hthreshold, rfl, hreached⟩ := hhot
      exact hsound.takes_of_hot hbuilt hblock hthreshold hreached
    · have hcold (threshold : UInt32)
          (hthreshold : session.machine.manager.hotThreshold = some threshold)
          (htier : tier = .baseline) : executions + 1 < threshold.toNat := by
        by_contra hreached
        exact hhot ⟨threshold, hthreshold, htier, Nat.not_lt.mp hreached⟩
      have hwalks := walks_of_cold hblock hcold
      rw [← hbuilt] at hwalks
      exact hwalked hwalks ⟨tier, executions + 1, rfl⟩

end Machine

end GuestMachine

import GuestMachine.Proofs.Machine.Boot
import GuestMachine.Proofs.Machine.Dispatching
import Mathlib.Algebra.Ring.Nat

/-!
# The accounts of a run

What a run reports adds up: each record of its trace is that of a block that was executed or replaced,
of a dispatch of the timer, or belongs to the fault at the end. Each turn keeps the accounts balanced.
A block is replaced at most once for each block that is executed, as what a block is promoted to is
executed next; so the budget bounds the replacements too.
-/

namespace GuestMachine

theorem Trace.size_pushAll (trace : Trace) (records : List TraceRecord) :
    (trace.pushAll records).size = trace.size + records.length := by
  induction records generalizing trace with
  | nil => rfl
  | cons record rest ih =>
    calc
      _ = ((trace.push record).pushAll rest).size := rfl
      _ = trace.size + 1 + rest.length := ih _
      _ = _ := by rw [List.length_cons, Nat.add_assoc, Nat.add_comm 1]

/-- What a summary says of a run of the machine, given the blocks that it has executed and the machine
as it is afterwards. -/
structure RunSummary.Tallies (summary : RunSummary) (machine : Machine) (executed : List Block)
    (later : Machine) : Prop where
  blocks_le : summary.blocks ≤ machine.maxBlocks
  replacements_le : summary.replacements ≤ machine.maxBlocks
  blocks : summary.blocks = executed.length
  instructions : summary.instructions = (executed.map Block.instructionCount).sum
  timerEvents : summary.timerEvents = machine.period.elim 0 (summary.instructions / ·)
  /-- A fault is told by the record of the block that raises it and by a note. -/
  records : later.trace.size = machine.trace.size + summary.blocks + summary.replacements +
    summary.timerEvents + if summary.exception.isSome then 2 else 0

/-- Why a run has ended: the guest has halted, a fault was raised, or the budget is used up. -/
inductive RunSummary.Ends (summary : RunSummary) (machine : Machine) : Prop
  | halted (hhalted : summary.halted = true) (hnone : summary.exception = none)
  | raised (hrunning : summary.halted = false) (hsome : summary.exception.isSome = true)
  | spent (hrunning : summary.halted = false) (hnone : summary.exception = none)
      (hspent : summary.blocks = machine.maxBlocks)

namespace Machine

/-- The blocks that a session executes in all of its turns, at most as many as `bound` says. -/
def Session.executed : (bound : Nat) → Session → List Block
  | 0, _ => []
  | bound + 1, session =>
    if session.summary.blocks < session.machine.maxBlocks then
      session.turnExecuted ++
        match session.turn with
        | some (.next later) => Session.executed bound later
        | _ => []
    else
      []

/-- The blocks that the machine executes when it is run. -/
def executed (machine : Machine) : List Block :=
  match machine.blockAt machine.entry with
  | .error _ => []
  | .ok (block, machine) =>
    Session.executed machine.turnBound
      { machine, walker := { ip := machine.entry }, block, summary := {} }

/-- The number of dispatches up to a time. -/
theorem length_ticks (period : Option Nat) {before after : Nat} (hle : before ≤ after) :
    period.elim 0 (before / ·) + (ticks period before after).length =
      period.elim 0 (after / ·) := by
  cases period with
  | none => rfl
  | some period =>
    rw [ticks, List.length_map, List.length_range']
    exact Nat.add_sub_cancel' (Nat.div_le_div_right hle)

/-! ## Turns -/

/-- The accounts of a session of a run of the machine. The replacement of a block counts in advance
for its execution. -/
structure Session.IsBalanced (session : Session) (machine : Machine) (executed : List Block) :
    Prop where
  maxBlocks : session.machine.maxBlocks = machine.maxBlocks
  period : session.machine.period = machine.period
  running : session.summary.halted = false
  exception : session.summary.exception = none
  tallies : session.summary.Tallies machine executed session.machine
  replacements_le : session.summary.replacements ≤
    session.summary.blocks + if session.block.tier? = some .optimised then 1 else 0

/-- The accounts after a turn. -/
def Turn.Balances (machine : Machine) (executed : List Block) : Turn → Prop
  | .next session => session.IsBalanced machine executed
  | .stop later summary => summary.Tallies machine executed later ∧ summary.Ends machine
  | .fail _ _ => False

variable {machine : Machine} {session : Session} {executed ran : List Block} {turn : Turn}

theorem size_dispatched (session : Session) (blocks : Std.TreeMap Nat Block) (clock : Clock)
    (records : List TraceRecord) : (session.dispatched blocks clock records).trace.size =
      session.machine.trace.size + 1 + records.length :=
  Trace.size_pushAll _ records

/-- An executed block is entered into the accounts, with the dispatches of the timer after it. -/
theorem Session.IsBalanced.tallies_counted (hbalanced : session.IsBalanced machine executed)
    (hbudget : session.summary.blocks < session.machine.maxBlocks)
    (blocks : Std.TreeMap Nat Block) (clock : Clock) :
    session.counted.Tallies machine (executed ++ [session.block])
      (session.dispatched blocks clock (session.events.map .timer)) where
  blocks_le := hbalanced.maxBlocks ▸ hbudget
  replacements_le := hbalanced.tallies.replacements_le
  blocks := by
    rw [List.length_append, ← hbalanced.tallies.blocks]
    rfl
  instructions := by
    rw [List.map_append, List.sum_append, ← hbalanced.tallies.instructions]
    rfl
  timerEvents := by
    have hticks := length_ticks session.machine.period
      (Nat.le_add_right session.summary.instructions session.block.instructionCount)
    have hbefore := hbalanced.tallies.timerEvents
    rw [← hbalanced.period] at hbefore ⊢
    rw [← hbefore] at hticks
    exact hticks
  records := by
    have hrecords := hbalanced.tallies.records
    rw [hbalanced.exception] at hrecords
    rw [size_dispatched, hrecords, List.length_map, Session.counted, hbalanced.exception]
    dsimp only [Option.isSome]
    omega

/-- A turn keeps the accounts balanced. -/
theorem Session.IsBalanced.balances (hbalanced : session.IsBalanced machine executed)
    (hbudget : session.summary.blocks < session.machine.maxBlocks)
    (htakes : session.Takes ran turn) : turn.Balances machine (executed ++ ran) := by
  have hreplacements := hbalanced.replacements_le
  have hrecords := hbalanced.tallies.records
  rw [hbalanced.exception] at hrecords
  cases htakes with
  | @promoted blocks other _ hbaseline hoptimised hlater _ =>
    rw [hbaseline, if_neg nofun] at hreplacements
    rw [List.append_nil, hlater]
    refine ⟨hbalanced.maxBlocks, hbalanced.period, hbalanced.running, hbalanced.exception,
      { hbalanced.tallies with replacements_le := ?_, records := ?_ }, ?_⟩
    · rw [← hbalanced.maxBlocks]
      exact Nat.lt_of_le_of_lt hreplacements hbudget
    · rw [size_dispatched, hrecords, List.length_nil, hbalanced.exception]
      dsimp only [Option.isSome]
      omega
    · rw [hoptimised, if_pos rfl]
      exact Nat.succ_le_succ hreplacements
  | raised blocks fault =>
    rw [List.append_nil]
    refine ⟨{ hbalanced.tallies with records := ?_ }, .raised hbalanced.running rfl⟩
    rw [size_dispatched, hrecords]
    rfl
  | halted blocks clock =>
    have htallies := hbalanced.tallies_counted hbudget blocks clock
    exact ⟨{ htallies with }, .halted rfl hbalanced.exception⟩
  | @running blocks clock _ _ _ hlater _ =>
    have htallies := hbalanced.tallies_counted hbudget blocks clock
    have hroom : session.summary.replacements ≤ session.summary.blocks + 1 := by
      apply hreplacements.trans
      split <;> omega
    rw [hlater]
    exact ⟨hbalanced.maxBlocks, hbalanced.period, hbalanced.running, hbalanced.exception, htallies,
      hroom.trans (Nat.le_add_right _ _)⟩

/-! ## Runs -/

theorem Session.IsBalanced.finish_of_spent (hbalanced : session.IsBalanced machine executed)
    (hspent : ¬ session.summary.blocks < session.machine.maxBlocks) (bound : Nat) :
    session.finish bound = some (.ok session.summary, session.machine) ∧
      session.summary.Tallies machine (executed ++ session.executed bound) session.machine ∧
      session.summary.Ends machine := by
  have hnothing : session.executed bound = [] := by
    cases bound with
    | zero => rfl
    | succ bound => rw [Session.executed, if_neg hspent]
  refine ⟨Machine.finish_of_spent hspent bound, ?_, ?_⟩
  · rw [hnothing, List.append_nil]
    exact hbalanced.tallies
  · rw [hbalanced.maxBlocks] at hspent
    apply RunSummary.Ends.spent hbalanced.running hbalanced.exception
    exact Nat.le_antisymm hbalanced.tallies.blocks_le (Nat.not_lt.mp hspent)

/-- A session that is sound and balanced ends with balanced accounts. -/
theorem Session.IsSound.finish_balances (bound : Nat) (hsound : session.IsSound)
    (hbalanced : session.IsBalanced machine executed) {result : Except Error RunSummary}
    {final : Machine} (hfinish : session.finish bound = some (result, final)) :
    ∃ summary, result = .ok summary ∧
      summary.Tallies machine (executed ++ session.executed bound) final ∧
      summary.Ends machine := by
  induction bound generalizing session executed with
  | zero =>
    by_cases hbudget : session.summary.blocks < session.machine.maxBlocks
    · rw [Session.finish, if_pos hbudget] at hfinish
      cases hfinish
    · obtain ⟨hspent, haccounts⟩ := hbalanced.finish_of_spent hbudget 0
      cases hspent.symm.trans hfinish
      exact ⟨_, rfl, haccounts⟩
  | succ bound ih =>
    by_cases hbudget : session.summary.blocks < session.machine.maxBlocks
    · obtain ⟨turn, hturn, htakes⟩ := hsound.exists_takes
      have hbalances := hbalanced.balances hbudget htakes
      rw [Session.finish, if_pos hbudget, hturn] at hfinish
      rw [Session.executed, if_pos hbudget, hturn, ← List.append_assoc]
      cases turn with
      | next later => exact ih htakes.isSound hbalances hfinish
      | stop later summary =>
        cases hfinish
        rw [List.append_nil]
        exact ⟨summary, rfl, hbalances⟩
      | fail later reason => exact hbalances.elim
    · obtain ⟨hspent, haccounts⟩ := hbalanced.finish_of_spent hbudget (bound + 1)
      cases hspent.symm.trans hfinish
      exact ⟨_, rfl, haccounts⟩

/-- A fresh machine begins its run with a sound session and empty books. -/
theorem IsFresh.exists_beginning (hfresh : machine.IsFresh) :
    ∃ block found, machine.blockAt machine.entry = .ok (block, { machine with blocks := found }) ∧
      let session : Session :=
        { machine := { machine with blocks := found }, walker := { ip := machine.entry }, block,
          summary := {} }
      session.IsSound ∧ session.IsBalanced machine [] := by
  have hnothing : machine.KeepsBuilt machine.blocks := by
    intro offset block hfound
    rw [hfresh.blocks] at hfound
    cases hfound
  obtain ⟨block, found, hblock, hfound, hblockAt⟩ := hnothing.blockAt machine.entry
  refine ⟨block, found, hblockAt, ⟨hblock, hfound, hfresh.ticking⟩, rfl, rfl, rfl, rfl, ?_,
    Nat.zero_le _⟩
  refine ⟨Nat.zero_le _, Nat.zero_le _, rfl, rfl, ?_, rfl⟩
  cases machine.period with
  | none => rfl
  | some period => exact (Nat.zero_div period).symm

variable {configuration : Configuration} {image : Array UInt8} {trace : Trace}

/-- A machine that was booted runs to a summary and never fails: it halts, raises a fault or uses up
its budget of blocks. The summary and the trace add up. -/
theorem run_addsUp (hboot : boot configuration image trace = .ok machine) :
    (machine.maxBlocks = configuration.machine.maxBlocks ∧
      machine.period = configuration.machine.timerPeriod ∧ machine.trace = trace) ∧
      ∃ summary final, machine.run = some (.ok summary, final) ∧
        summary.Tallies machine machine.executed final ∧ summary.Ends machine := by
  have hbooted := isBooted_of_boot hboot
  have hfresh := hbooted.isFresh
  obtain ⟨final, hrun, -, -⟩ := hfresh.run
  obtain ⟨block, found, hblockAt, hsound, hbalanced⟩ := hfresh.exists_beginning
  have hfinish := hrun
  rw [Machine.run, hblockAt] at hfinish
  obtain ⟨summary, hok, htallies, hends⟩ := hsound.finish_balances _ hbalanced hfinish
  cases hok
  rw [Machine.executed, hblockAt]
  exact ⟨⟨hbooted.maxBlocks, hbooted.period, hbooted.trace⟩, _, final, hrun, htallies, hends⟩

/-- Two NOPs and a halt, under a timer that fires with every second instruction. The trace tells the
block and the timer. -/
theorem run_addsUp_nops :
    ∃ machine final,
      boot { machine := { memorySize := 16, timerPeriod := some 2 } } #[0x90, 0x90, 0xF4] .buffer =
          .ok machine ∧
        machine.run =
          some (.ok { blocks := 1, instructions := 3, timerEvents := 1, halted := true }, final) ∧
        machine.period = some 2 ∧ machine.executed.length = 1 ∧
        (machine.executed.map Block.instructionCount).sum = 3 ∧ final.trace.size = 2 := by
  have hlimit : minBlockLimit ≤ ({} : CoreOptions).blockLimit := by decide
  have hperiod : ({ timerPeriod := some 2 } : MachineOptions).timerPeriod ≠ some 0 := by decide
  obtain ⟨machine, hboot⟩ := exists_boot
    { machine := { memorySize := 16, timerPeriod := some 2 } } #[0x90, 0x90, 0xF4] rfl hlimit nofun
    hperiod .buffer
  have hcourse : (boot { machine := { memorySize := 16, timerPeriod := some 2 } }
      #[0x90, 0x90, 0xF4] .buffer).toOption.map (fun machine ↦ machine.summaryOf machine.course) =
      some { blocks := 1, instructions := 3, timerEvents := 1, halted := true } := by cbv
  have hsummary := eq_of_map_boot hboot hcourse
  obtain ⟨final, hrun, -⟩ := (isBooted_of_boot hboot).isFresh.run
  rw [hsummary] at hrun
  obtain ⟨⟨-, hsome, htrace⟩, _, _, hsame, htallies, -⟩ := run_addsUp hboot
  cases hrun.symm.trans hsame
  refine ⟨machine, final, hboot, hrun, hsome, htallies.blocks.symm, htallies.instructions.symm, ?_⟩
  rw [htallies.records, htrace]
  rfl

end Machine

end GuestMachine

import GuestMachine.Proofs.Machine.Accounting

/-!
# When the timer fires

The trace of a run tells each dispatch of a block, followed by the multiples of the period that the
count of instructions has reached at the end of the block. So the records of the timer are those of
all multiples up to the count at the end, one after the other, and each of them stands behind the
block that was executed when its time came.
-/

namespace GuestMachine

/-! ## Records -/

namespace TraceRecord

/-- Tells a dispatch of a block. -/
def isBlock : TraceRecord → Bool
  | .block .. | .spanning .. => true
  | .timer _ | .note _ => false

def isTimer : TraceRecord → Bool
  | .timer _ => true
  | .block .. | .spanning .. | .note _ => false

@[simp]
theorem isBlock_ofBlock (block : Block) : (ofBlock block).isBlock = true := by
  unfold ofBlock
  split <;> rfl

@[simp]
theorem isTimer_ofBlock (block : Block) : (ofBlock block).isTimer = false := by
  unfold ofBlock
  split <;> rfl

@[simp]
theorem countP_isTimer_comp (events : List TimerEvent) :
    events.countP (isTimer ∘ timer) = events.length := by
  rw [List.countP_eq_length]
  intro event _
  rfl

@[simp]
theorem filter_isBlock_map (events : List TimerEvent) : (events.map timer).filter isBlock = [] := by
  rw [List.filter_map, List.map_eq_nil_iff, List.filter_eq_nil_iff]
  intro event _
  exact Bool.false_ne_true

end TraceRecord

/-- What a run notes at its end. -/
def RunSummary.notes (summary : RunSummary) : List TraceRecord :=
  summary.exception.toList.map fun fault ↦ .note fault.text

namespace Machine

open TraceRecord (isBlock isTimer isBlock_ofBlock isTimer_ofBlock)

/-- A block that was dispatched. One that is replaced or raises a fault is not executed. -/
structure Dispatch where
  block : Block
  isExecuted : Bool

namespace Dispatch

def record (dispatch : Dispatch) : TraceRecord := .ofBlock dispatch.block

/-- What a dispatch adds to the count of instructions. -/
def instructionCount (dispatch : Dispatch) : Nat :=
  if dispatch.isExecuted then dispatch.block.instructionCount else 0

def total (dispatches : List Dispatch) : Nat := (dispatches.map instructionCount).sum

theorem total_cons (dispatch : Dispatch) (rest : List Dispatch) :
    total (dispatch :: rest) = dispatch.instructionCount + total rest := by
  rw [total, List.map_cons, List.sum_cons, total]

/-- The records that dispatches leave after `now` instructions. -/
def records (period : Option Nat) : (now : Nat) → List Dispatch → List TraceRecord
  | _, [] => []
  | now, dispatch :: rest =>
    dispatch.record :: ((ticks period now (now + dispatch.instructionCount)).map .timer ++
      records period (now + dispatch.instructionCount) rest)

variable {period now : Nat}

theorem filter_isBlock_records (period : Option Nat) (now : Nat) (dispatches : List Dispatch) :
    (records period now dispatches).filter isBlock = dispatches.map record := by
  induction dispatches generalizing now with
  | nil => rfl
  | cons dispatch rest ih => simp [records, record, ih]

/-- All multiples of the period are told. -/
theorem countP_isTimer_records (period : Option Nat) (now : Nat) (dispatches : List Dispatch) :
    period.elim 0 (now / ·) + (records period now dispatches).countP isTimer =
      period.elim 0 ((now + total dispatches) / ·) := by
  induction dispatches generalizing now with
  | nil => rfl
  | cons dispatch rest ih =>
    have hticks := length_ticks period (Nat.le_add_right now dispatch.instructionCount)
    have hrest := ih (now + dispatch.instructionCount)
    rw [← hticks] at hrest
    rw [total_cons, ← Nat.add_assoc]
    exact Eq.trans (by simp [records, record, Nat.add_assoc]) hrest

/-- A dispatch of the timer in the time from `now` on. -/
theorem tick_of_mem_split {after : Nat} {earlier later : List TimerEvent} {event : TimerEvent}
    (hperiod : 0 < period) (hsplit : ticks (some period) now after = earlier ++ event :: later) :
    event = Clock.tickEvent period (now / period + earlier.length + 1) ∧
      now < event.expiry ∧ event.expiry ≤ after := by
  rw [ticks] at hsplit
  obtain ⟨first, more, hrange, rfl, hmore⟩ := List.map_eq_append_iff.mp hsplit
  obtain ⟨count, rest, rfl, rfl, -⟩ := List.map_eq_cons_iff.mp hmore
  obtain ⟨fired, hfired, rfl, hmore⟩ := List.range'_eq_append_iff.mp hrange
  obtain ⟨hcount, hremaining, -⟩ := List.range'_eq_cons_iff.mp hmore.symm
  rw [List.length_map, List.length_range']
  have hfirst : now / period < count := by omega
  have hlast : count ≤ after / period := by omega
  refine ⟨congrArg _ (by omega), (Nat.div_lt_iff_lt_mul hperiod).mp hfirst,
    (Nat.le_div_iff_mul_le hperiod).mp hlast⟩

/-- Something in two lists one behind the other is in the first or in the second. -/
theorem split_append {α : Type} {first second before after : List α} {item : α}
    (hsplit : first ++ second = before ++ item :: after) :
    (∃ rest, first = before ++ item :: rest) ∨
      ∃ front, before = first ++ front ∧ second = front ++ item :: after := by
  rcases List.append_eq_append_iff.mp hsplit with ⟨front, hbefore, hsecond⟩ | ⟨front, hfirst, hitem⟩
  · exact Or.inr ⟨front, hbefore, hsecond⟩
  · rcases List.cons_eq_append_iff.mp hitem with ⟨rfl, hsecond⟩ | ⟨rest, rfl, -⟩
    · rw [List.append_nil] at hfirst
      exact Or.inr ⟨[], by rw [List.append_nil, hfirst], hsecond⟩
    · exact Or.inl ⟨rest, hfirst⟩

/-- Where a record of the timer stands, it is the next multiple of the period, and the count has
reached it at the end of the block that was dispatched last, but not before. -/
theorem exists_dispatch_of_timer (hperiod : 0 < period) {dispatches : List Dispatch}
    {notes before after : List TraceRecord} {event : TimerEvent}
    (hnotes : ∀ record ∈ notes, record.isTimer = false)
    (hsplit : records (some period) now dispatches ++ notes = before ++ .timer event :: after) :
    event = Clock.tickEvent period (now / period + before.countP isTimer + 1) ∧
      ∃ earlier dispatch later, dispatches = earlier ++ dispatch :: later ∧
        before.filter isBlock = (earlier ++ [dispatch]).map record ∧
        now + total earlier < event.expiry ∧
        event.expiry ≤ now + total earlier + dispatch.instructionCount := by
  induction dispatches generalizing now before with
  | nil =>
    have hmem : TraceRecord.timer event ∈ notes := by
      rw [show notes = before ++ .timer event :: after from hsplit]
      exact List.mem_append_right before List.mem_cons_self
    cases hnotes _ hmem
  | cons dispatch rest ih =>
    have hlength : now / period + (ticks (some period) now (now + dispatch.instructionCount)).length =
        (now + dispatch.instructionCount) / period :=
      length_ticks (some period) (Nat.le_add_right now dispatch.instructionCount)
    rw [records, List.cons_append, List.append_assoc] at hsplit
    cases before with
    | nil =>
      obtain ⟨hrecord, -⟩ := List.cons.inj hsplit
      have hblock := congrArg isTimer hrecord
      rw [record, isTimer_ofBlock] at hblock
      cases hblock
    | cons first front =>
      rw [List.cons_append] at hsplit
      obtain ⟨rfl, hrest⟩ := List.cons.inj hsplit
      rcases split_append hrest with ⟨others, hticks⟩ | ⟨inner, rfl, hlater⟩
      -- The record is one of those behind the block at hand.
      · obtain ⟨earlier, more, hwhole, rfl, hmore⟩ := List.map_eq_append_iff.mp hticks
        obtain ⟨tick, later, rfl, htick, -⟩ := List.map_eq_cons_iff.mp hmore
        obtain rfl := TraceRecord.timer.inj htick
        obtain ⟨hevent, hafter, hwithin⟩ := tick_of_mem_split hperiod hwhole
        refine ⟨?_, [], dispatch, rest, rfl, ?_, hafter, hwithin⟩
        · simpa [record] using hevent
        · simp [record]
      · obtain ⟨hevent, earlier, other, later, rfl, hblocks, hafter, hwithin⟩ := ih hlater
        have hcount : (dispatch.record :: (List.map TraceRecord.timer
            (ticks (some period) now (now + dispatch.instructionCount)) ++ inner)).countP isTimer =
            (ticks (some period) now (now + dispatch.instructionCount)).length +
              inner.countP isTimer := by
          simp [record]
        refine ⟨?_, dispatch :: earlier, other, later, rfl, ?_, ?_, ?_⟩
        · rw [hcount, ← Nat.add_assoc, hlength]
          exact hevent
        · simpa [record] using hblocks
        · rwa [total_cons, ← Nat.add_assoc]
        · rwa [total_cons, ← Nat.add_assoc]

end Dispatch

/-! ## Runs -/

open Dispatch

/-- The dispatch of the block at hand. -/
def Session.dispatch (session : Session) : Dispatch :=
  ⟨session.block, !session.turnExecuted.isEmpty⟩

/-- The dispatches of a session in all of its turns, at most as many as `bound` says. -/
def Session.dispatches : (bound : Nat) → Session → List Dispatch
  | 0, _ => []
  | bound + 1, session =>
    if session.summary.blocks < session.machine.maxBlocks then
      session.dispatch ::
        match session.turn with
        | some (.next later) => Session.dispatches bound later
        | _ => []
    else
      []

/-- The blocks that the machine dispatches when it is run. -/
def dispatches (machine : Machine) : List Dispatch :=
  match machine.blockAt machine.entry with
  | .error _ => []
  | .ok (block, machine) =>
    Session.dispatches machine.turnBound
      { machine, walker := { ip := machine.entry }, block, summary := {} }

theorem ticks_self (period : Option Nat) (now : Nat) : ticks period now now = [] := by
  cases period with
  | none => rfl
  | some period => rw [ticks, Nat.sub_self, List.range'_zero, List.map_nil]

variable {session : Session} {turn : Turn} {ran : List Block}

/-- The trace has grown by what the dispatches leave, and by a note if the run has ended with one. -/
structure Session.Leaves (session : Session) (dispatches : List Dispatch) (summary : RunSummary)
    (final : Machine) : Prop where
  trace : final.trace = session.machine.trace.pushAll
    (records session.machine.period session.summary.instructions dispatches ++ summary.notes)
  instructions : summary.instructions = session.summary.instructions + total dispatches

/-- The next turn is taken in front of a trace that has grown by what the dispatch leaves. -/
structure Session.Hands (session : Session) (dispatch : Dispatch) (later : Session) : Prop where
  trace : later.machine.trace = session.machine.trace.pushAll
    (records session.machine.period session.summary.instructions [dispatch])
  instructions : later.summary.instructions =
    session.summary.instructions + dispatch.instructionCount
  period : later.machine.period = session.machine.period
  exception : later.summary.exception = session.summary.exception

def Turn.Tells (session : Session) (dispatch : Dispatch) : Turn → Prop
  | .next later => session.Hands dispatch later
  | .stop machine summary => session.Leaves [dispatch] summary machine
  | .fail _ _ => False

theorem Session.Takes.tells (htakes : session.Takes ran turn)
    (hnone : session.summary.exception = none) :
    turn.Tells session ⟨session.block, !ran.isEmpty⟩ := by
  have hreplaced : records session.machine.period session.summary.instructions
      [⟨session.block, false⟩] = [.ofBlock session.block] := by
    simp [records, Dispatch.record, Dispatch.instructionCount, ticks_self]
  have hexecuted : records session.machine.period session.summary.instructions
      [⟨session.block, true⟩] = .ofBlock session.block :: session.events.map .timer := by
    simp [records, Dispatch.record, Dispatch.instructionCount, Session.events]
  cases htakes with
  | promoted _ _ hlater _ =>
    rw [hlater]
    exact ⟨hreplaced ▸ rfl, rfl, rfl, rfl⟩
  | raised blocks fault => exact ⟨hreplaced ▸ rfl, rfl⟩
  | halted blocks clock =>
    have hnotes : RunSummary.notes { session.counted with halted := true } = [] := by
      rw [RunSummary.notes, Session.counted, hnone]
      rfl
    refine ⟨?_, rfl⟩
    rw [hnotes, List.append_nil]
    exact hexecuted ▸ rfl
  | running hlater _ =>
    rw [hlater]
    exact ⟨hexecuted ▸ rfl, rfl, rfl, rfl⟩

variable {summary : RunSummary} {final : Machine}

theorem Session.Hands.leaves {dispatch : Dispatch} {later : Session}
    (hhands : session.Hands dispatch later) {rest : List Dispatch}
    (hleaves : later.Leaves rest summary final) : session.Leaves (dispatch :: rest) summary final where
  trace := by
    have hrecords : records session.machine.period session.summary.instructions (dispatch :: rest) =
        records session.machine.period session.summary.instructions [dispatch] ++
          records later.machine.period later.summary.instructions rest := by
      rw [hhands.period, hhands.instructions]
      simp [records]
    rw [hrecords, List.append_assoc, Trace.pushAll_append, ← hhands.trace]
    exact hleaves.trace
  instructions := by
    rw [hleaves.instructions, hhands.instructions, total_cons, Nat.add_assoc]

/-- A session that has used up its budget ends as it is. -/
theorem Session.leaves_of_spent (hspent : ¬ session.summary.blocks < session.machine.maxBlocks)
    (hnone : session.summary.exception = none) (bound : Nat)
    (hfinish : session.finish bound = some (.ok summary, final)) :
    session.Leaves (session.dispatches bound) summary final := by
  have hnothing : session.dispatches bound = [] := by
    cases bound with
    | zero => rfl
    | succ bound => rw [Session.dispatches, if_neg hspent]
  rw [Machine.finish_of_spent hspent bound] at hfinish
  cases hfinish
  rw [hnothing]
  refine ⟨?_, rfl⟩
  rw [RunSummary.notes, hnone]
  rfl

/-- The trace of a session is what its dispatches leave, and a note if it ends with a fault. -/
theorem Session.IsSound.finish_leaves (bound : Nat) (hsound : session.IsSound)
    (hnone : session.summary.exception = none)
    (hfinish : session.finish bound = some (.ok summary, final)) :
    session.Leaves (session.dispatches bound) summary final := by
  induction bound generalizing session with
  | zero =>
    by_cases hbudget : session.summary.blocks < session.machine.maxBlocks
    · rw [Session.finish, if_pos hbudget] at hfinish
      cases hfinish
    · exact Session.leaves_of_spent hbudget hnone 0 hfinish
  | succ bound ih =>
    by_cases hbudget : session.summary.blocks < session.machine.maxBlocks
    · obtain ⟨turn, hturn, htakes⟩ := hsound.exists_takes
      have htells : turn.Tells session session.dispatch := htakes.tells hnone
      rw [Session.finish, if_pos hbudget, hturn] at hfinish
      rw [Session.dispatches, if_pos hbudget, hturn]
      cases turn with
      | next later =>
        exact htells.leaves (ih htakes.isSound (htells.exception.trans hnone) hfinish)
      | stop later summary =>
        cases hfinish
        exact htells
      | fail later reason => exact htells.elim
    · exact Session.leaves_of_spent hbudget hnone (bound + 1) hfinish

variable {machine : Machine}

/-- The first run of a machine, told by its dispatches. -/
theorem IsFresh.run_leaves (hfresh : machine.IsFresh) :
    ∃ summary final, machine.run = some (.ok summary, final) ∧
      summary.timerEvents = machine.period.elim 0 (summary.instructions / ·) ∧
      summary.instructions = total machine.dispatches ∧
      final.trace =
        machine.trace.pushAll (records machine.period 0 machine.dispatches ++ summary.notes) := by
  obtain ⟨final, hrun, -, -⟩ := hfresh.run
  obtain ⟨block, found, hblockAt, hsound, hbalanced⟩ := hfresh.exists_beginning
  have hfinish := hrun
  rw [Machine.run, hblockAt] at hfinish
  obtain ⟨summary, hok, htallies, -⟩ := hsound.finish_balances _ hbalanced hfinish
  cases hok
  obtain ⟨htrace, hinstructions⟩ := hsound.finish_leaves _ rfl hfinish
  have hdispatches : machine.dispatches = Session.dispatches machine.turnBound
      ⟨{ machine with blocks := found }, { ip := machine.entry }, block, {}⟩ := by
    rw [dispatches, hblockAt]
    rfl
  refine ⟨_, final, hrun, htallies.timerEvents, ?_, ?_⟩
  · rw [hdispatches]
    exact hinstructions.trans (Nat.zero_add _)
  · rw [hdispatches]
    exact htrace

theorem quiet_of_mem_notes {record : TraceRecord} (hrecord : record ∈ summary.notes) :
    record.isTimer = false ∧ record.isBlock = false := by
  obtain ⟨fault, -, rfl⟩ := List.mem_map.mp hrecord
  exact ⟨rfl, rfl⟩

variable {configuration : Configuration} {image : Array UInt8} {trace : Trace}

/-- The timer of a run fires at the multiples of its period and at nothing else. The record of each
multiple stands behind the record of the block that was executed when the count of instructions
reached it, and in front of the record of the next dispatch. -/
theorem run_onSchedule (hboot : boot configuration image trace = .ok machine) {period : Nat}
    (hperiod : configuration.machine.timerPeriod = some period) :
    ∃ summary final told, machine.run = some (.ok summary, final) ∧
      final.trace = trace.pushAll told ∧
      summary.instructions = total machine.dispatches ∧
      summary.timerEvents = summary.instructions / period ∧
      told.countP isTimer = summary.timerEvents ∧
      told.filter isBlock = machine.dispatches.map record ∧
      ∀ before event after, told = before ++ .timer event :: after →
        let time := (before.countP isTimer + 1) * period
        event = { id := 0, owner := 0, expiry := time, now := time } ∧
        ∃ earlier block later, machine.dispatches = earlier ++ ⟨block, true⟩ :: later ∧
          before.filter isBlock = (earlier ++ [⟨block, true⟩]).map record ∧
          total earlier < time ∧ time ≤ total earlier + block.instructionCount := by
  have hbooted := isBooted_of_boot hboot
  have hticking : machine.period = some period := hbooted.period.trans hperiod
  obtain ⟨hpositive, -⟩ := hbooted.isFresh.ticking period hticking
  obtain ⟨summary, final, hrun, hevents, hinstructions, htrace⟩ := hbooted.isFresh.run_leaves
  rw [hticking, hbooted.trace] at htrace
  rw [hticking] at hevents
  have htimers : summary.notes.countP isTimer = 0 := by
    rw [List.countP_eq_zero]
    intro record hrecord
    simp [(quiet_of_mem_notes hrecord).1]
  have hblocks : summary.notes.filter isBlock = [] := by
    rw [List.filter_eq_nil_iff]
    intro record hrecord
    simp [(quiet_of_mem_notes hrecord).2]
  refine ⟨summary, final, _, hrun, htrace, hinstructions, hevents, ?_, ?_, ?_⟩
  · have hcount := countP_isTimer_records (some period) 0 machine.dispatches
    rw [Nat.zero_add, ← hinstructions] at hcount
    rw [List.countP_append, htimers, Nat.add_zero, hevents]
    simpa using hcount
  · rw [List.filter_append, hblocks, List.append_nil, filter_isBlock_records]
  · intro before event after hsplit
    obtain ⟨hevent, earlier, ⟨block, isExecuted⟩, later, hdispatches, hbefore, hafter, hwithin⟩ :=
      exists_dispatch_of_timer hpositive (fun record hrecord ↦ (quiet_of_mem_notes hrecord).1) hsplit
    rw [Nat.zero_div, Nat.zero_add] at hevent
    rw [hevent, Nat.zero_add] at hafter hwithin
    cases isExecuted with
    | true => exact ⟨hevent, earlier, block, later, hdispatches, hbefore, hafter, hwithin⟩
    | false => exact absurd (Nat.lt_of_lt_of_le hafter hwithin) (Nat.lt_irrefl _)

/-- A region with two NOPs and a halt, and a timer that fires with every second instruction. -/
def nops : Configuration := { machine := { memorySize := 4, timerPeriod := some 2, maxBlocks := 1 } }

/-- The timer fires once, in the middle of the only block. -/
theorem run_onSchedule_nops : nops.machine.timerPeriod = some 2 ∧
    ∃ machine, boot nops #[0x90, 0x90, 0xF4] .buffer = .ok machine ∧
      ∃ summary final before after, machine.run = some (.ok summary, final) ∧
        summary.instructions = 3 ∧
        final.trace = Trace.buffer.pushAll (before ++ .timer ⟨0, 0, 2, 2⟩ :: after) := by
  have hlimit : minBlockLimit ≤ nops.core.blockLimit := by decide
  have hperiod : nops.machine.timerPeriod ≠ some 0 := by decide
  obtain ⟨machine, hboot⟩ := exists_boot nops #[0x90, 0x90, 0xF4] rfl hlimit nofun hperiod .buffer
  obtain ⟨summary, final, told, hrun, htrace, -, hevents, hcount, -, hplaced⟩ :=
    run_onSchedule hboot rfl
  have hthree : summary.instructions = 3 := by
    obtain ⟨_, hsame, -⟩ := (isBooted_of_boot hboot).isFresh.run
    cases hrun.symm.trans hsame
    have hcourse : (boot nops #[0x90, 0x90, 0xF4] .buffer).toOption.map
        (fun machine ↦ machine.course.instructions) = some 3 := by cbv
    exact eq_of_map_boot hboot hcourse
  have hone : told.countP isTimer = 1 := by rw [hcount, hevents, hthree]
  have hpositive : 0 < told.countP isTimer := hone ▸ Nat.one_pos
  obtain ⟨record, hrecord, htimer⟩ := List.countP_pos_iff.mp hpositive
  obtain ⟨before, after, rfl⟩ := List.append_of_mem hrecord
  cases record with
  | timer event =>
    obtain ⟨rfl, -⟩ := hplaced before event after rfl
    have hfirst : before.countP isTimer = 0 := by
      simp only [List.countP_append, List.countP_cons, TraceRecord.isTimer, if_true] at hone
      omega
    rw [hfirst] at htrace
    exact ⟨rfl, machine, hboot, summary, final, before, after, hrun, hthree, htrace⟩
  | block mode start length count tier => cases htimer
  | spanning mode start => cases htimer
  | note text => cases htimer

end Machine

end GuestMachine

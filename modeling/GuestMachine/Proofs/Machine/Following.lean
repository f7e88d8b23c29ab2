import GuestMachine.Proofs.Machine.Keeping
import GuestMachine.Proofs.Machine.Reference

/-!
# Runs follow their course

Between two legs of its course a machine is determined by the course, up to the blocks that it keeps
and the queue of its clock. A leg takes one turn of the machine, or two if a block is promoted, and
leads to where the course says. So a run always has a result, which its course tells.
-/

namespace GuestMachine

namespace Machine

/-! ## What a run carries out -/

/-- What a session carries out in its next turn, where a run of NOPs counts as its NOPs. -/
def Session.turnCarriedOut (session : Session) : List Instruction :=
  (session.block.execute session.machine.memory (Walker.recorder session.machine.guest.size32)
    (session.walker, [])).state.2

/-- What a session carries out in all of its turns, at most as many as `bound` says. -/
def Session.carriedOut : (bound : Nat) → Session → List Instruction
  | 0, _ => []
  | bound + 1, session =>
    if session.summary.blocks < session.machine.maxBlocks then
      session.turnCarriedOut ++
        match session.turn with
        | some (.next later) => Session.carriedOut bound later
        | _ => []
    else
      []

/-- What the machine carries out when it is run. -/
def carriedOut (machine : Machine) : List Instruction :=
  match machine.blockAt machine.entry with
  | .error _ => []
  | .ok (block, machine) =>
    Session.carriedOut machine.turnBound
      { machine, walker := { ip := machine.entry }, block, summary := {} }

/-- What a turn leads to in the end. -/
def Turn.finish (bound : Nat) : Turn → Option (Except Error RunSummary × Machine)
  | .next session => session.finish bound
  | .stop machine summary => some (.ok summary, machine)
  | .fail machine reason => some (.error reason, machine)

/-- What is carried out after a turn. -/
def Turn.carriedOut (bound : Nat) : Turn → List Instruction
  | .next session => session.carriedOut bound
  | .stop _ _ | .fail _ _ => []

/-- So many turns of a session carry out the instructions of the log and lead to where the turn
leads. -/
structure Session.Leads (session : Session) (turns : Nat) (log : List Instruction) (turn : Turn) :
    Prop where
  finish : ∀ bound, session.finish (bound + turns) = turn.finish bound
  carriedOut : ∀ bound, session.carriedOut (bound + turns) = log ++ turn.carriedOut bound

variable {session later : Session} {turn : Turn}

theorem leads_of_turn (hbudget : session.summary.blocks < session.machine.maxBlocks)
    (hturn : session.turn = some turn) : session.Leads 1 session.turnCarriedOut turn where
  finish bound := by
    rw [Session.finish, if_pos hbudget, hturn]
    cases turn <;> rfl
  carriedOut bound := by
    rw [Session.carriedOut, if_pos hbudget, hturn]
    cases turn <;> rfl

theorem Session.Leads.of_next {turns : Nat} {log : List Instruction}
    (hlater : later.Leads turns log turn)
    (hbudget : session.summary.blocks < session.machine.maxBlocks)
    (hnext : session.turn = some (.next later)) :
    session.Leads (turns + 1) (session.turnCarriedOut ++ log) turn where
  finish bound := by
    rw [← Nat.add_assoc, (leads_of_turn hbudget hnext).finish]
    exact hlater.finish bound
  carriedOut bound := by
    rw [← Nat.add_assoc, (leads_of_turn hbudget hnext).carriedOut, List.append_assoc]
    exact congrArg (_ ++ ·) (hlater.carriedOut bound)

theorem finish_of_spent (hspent : ¬ session.summary.blocks < session.machine.maxBlocks)
    (bound : Nat) : session.finish bound = some (.ok session.summary, session.machine) := by
  cases bound <;> rw [Session.finish, if_neg hspent]

theorem carriedOut_of_spent (hspent : ¬ session.summary.blocks < session.machine.maxBlocks)
    (bound : Nat) : session.carriedOut bound = [] := by
  cases bound with
  | zero => rfl
  | succ bound => rw [Session.carriedOut, if_neg hspent]

/-! ## Turns -/

theorem turn_of_replaced (session : Session) {replacement kept : Block}
    (hexecute : session.block.execute session.machine.memory Walker.executor session.walker =
      ⟨.ok (.replaced replacement), kept, session.walker⟩)
    (hstart : session.block.start = session.walker.ip)
    (hreplacement : replacement.start = session.walker.ip) :
    session.turn = some (.next
      { machine := { session.machine with
          trace := session.machine.trace.pushBlock session.block
          blocks := (session.machine.blocks.insert session.walker.ip kept).insert session.walker.ip
            replacement }
        walker := session.walker
        block := replacement
        summary := { session.summary with
          replacements := session.summary.replacements + 1 } }) := by
  rw [Session.turn]
  dsimp only
  rw [hexecute, hstart, ← hreplacement]

theorem turn_of_fault (session : Session) {kept : Block} {fault : Fault}
    (hwalks : session.block.Walks session.machine.guest session.walker kept)
    (hfault : (session.machine.guest.leg session.walker).fault = some fault) :
    session.turn = some (.stop
      { session.machine with
        trace := (session.machine.trace.pushBlock session.block).pushNote fault.text
        blocks := session.machine.blocks.insert session.walker.ip kept }
      { session.summary with exception := some fault }) := by
  have hexecute := hwalks.execute
  rw [Stretch.result, hfault] at hexecute
  rw [Session.turn]
  dsimp only
  rw [hwalks.start]
  change session.block.execute session.machine.memory _ _ = _ at hexecute
  rw [hexecute]
  rfl

theorem turn_of_walks (session : Session) {kept : Block}
    (hwalks : session.block.Walks session.machine.guest session.walker kept)
    (hfault : (session.machine.guest.leg session.walker).fault = none) :
    session.turn = Session.afterBlock
      { session with
        machine := { session.machine with
          trace := session.machine.trace.pushBlock session.block
          blocks := session.machine.blocks.insert session.walker.ip kept }
        walker := (session.machine.guest.leg session.walker).walker }
      (session.machine.guest.leg session.walker).carriedOut.length := by
  have hexecute := hwalks.execute
  rw [Stretch.result, hfault] at hexecute
  rw [Session.turn]
  dsimp only
  rw [hwalks.start]
  change session.block.execute session.machine.memory _ _ = _ at hexecute
  rw [hexecute, Nat.zero_add]
  rfl

theorem afterBlock_of_halted {moved : Machine} {instructions ticks : Nat}
    (htick : session.machine.tick (session.summary.instructions + instructions) =
      some (.ok ticks, moved))
    (hhalted : session.walker.halted = true) :
    session.afterBlock instructions = some (.stop moved
      { session.summary with
        blocks := session.summary.blocks + 1
        instructions := session.summary.instructions + instructions
        timerEvents := session.summary.timerEvents + ticks
        halted := true }) := by
  rw [Session.afterBlock]
  dsimp only
  rw [htick, hhalted]
  rfl

theorem afterBlock_of_running {moved found : Machine} {block : Block} {instructions ticks : Nat}
    (htick : session.machine.tick (session.summary.instructions + instructions) =
      some (.ok ticks, moved))
    (hrunning : session.walker.halted = false)
    (hblockAt : moved.blockAt session.walker.ip = .ok (block, found)) :
    session.afterBlock instructions = some (.next
      { session with
        machine := found
        block
        summary := { session.summary with
          blocks := session.summary.blocks + 1
          instructions := session.summary.instructions + instructions
          timerEvents := session.summary.timerEvents + ticks } }) := by
  rw [Session.afterBlock]
  dsimp only
  rw [htick, hrunning]
  change (match moved.blockAt session.walker.ip with
    | .error reason => some (Turn.fail moved reason)
    | .ok (block, machine) => some (Turn.next _)) = _
  rw [hblockAt]

/-! ## Legs -/

open Promotion

/-- The machine has not built a block, and its timer is armed for the first time. -/
structure IsFresh (machine : Machine) : Prop where
  blocks : machine.blocks = ∅
  ticking : IsTicking machine.period machine.clock 0

/-- The course of the machine when it is run. -/
def course (machine : Machine) : Course := machine.guest.course machine.maxBlocks machine.entry

/-- The summary of a run that has come so far. -/
def summaryOf (machine : Machine) (course : Course) : RunSummary where
  blocks := course.blocks
  instructions := course.instructions
  replacements := promotions machine.manager.hotThreshold course.records
  timerEvents := course.timerEvents
  exception := course.exception
  halted := course.walker.halted

/-- The trace of a run that has come so far. -/
def traceOf (machine : Machine) (course : Course) : Trace :=
  machine.trace.pushAll (told machine.manager.hotThreshold course.records)

/-- A session of a run that has come so far, but may have been told more than the course. -/
def sessionWith (machine : Machine) (blocks : Std.TreeMap Nat Block) (clock : Clock)
    (trace : Trace) (block : Block) (replacements : Nat) (course : Course) : Session where
  machine := { machine with blocks, clock, trace }
  walker := course.walker
  block
  summary := { machine.summaryOf course with replacements }

/-- The session of a run that has come so far. -/
def sessionAt (machine : Machine) (blocks : Std.TreeMap Nat Block) (clock : Clock)
    (course : Course) : Session :=
  machine.sessionWith blocks clock (machine.traceOf course)
    (machine.blockAfter (dispatches course.records course.walker.ip) course.walker.ip)
    (promotions machine.manager.hotThreshold course.records) course

theorem sessionAt_eq (machine : Machine) (blocks : Std.TreeMap Nat Block) (clock : Clock)
    (course : Course) :
    machine.sessionAt blocks clock course =
      { machine := { machine with blocks, clock, trace := machine.traceOf course }
        walker := course.walker
        block := machine.blockAfter (dispatches course.records course.walker.ip) course.walker.ip
        summary := machine.summaryOf course } := rfl

/-- A turn has led to where the course is. -/
inductive Reaches (machine : Machine) (course : Course) : Turn → Prop where
  | stop {final : Machine} {summary : RunSummary} (hover : course.isOver = true)
    (htrace : final.trace = machine.traceOf course) (hsummary : summary = machine.summaryOf course) :
    Reaches machine course (.stop final summary)
  | next {session : Session} {blocks : Std.TreeMap Nat Block} {clock : Clock}
    (hover : course.isOver = false) (hkeeps : machine.Keeps blocks course.records)
    (hticking : IsTicking machine.period clock course.instructions)
    (hsession : session = machine.sessionAt blocks clock course) :
    Reaches machine course (.next session)

variable {machine : Machine} {course : Course} {blocks : Std.TreeMap Nat Block} {clock : Clock}

/-- A note or the dispatches of a timer add nothing to what is promoted. -/
theorem traceOf_of_silent (course : Course) {trace : Trace} {records later : List TraceRecord}
    (hlater : ∀ record ∈ later, record.start? = none)
    (hrecords : course.records = records ++ later)
    (htrace : trace = machine.trace.pushAll (told machine.manager.hotThreshold records)) :
    trace.pushAll later = machine.traceOf course ∧
      promotions machine.manager.hotThreshold course.records =
        promotions machine.manager.hotThreshold records := by
  rw [traceOf, hrecords, told_append_of_start?_eq_none _ hlater, Trace.pushAll_append, htrace,
    promotions_append_of_start?_eq_none _ machine.manager.hotThreshold_ne_zero hlater]
  exact ⟨rfl, rfl⟩

theorem summaryOf_advance (machine : Machine) {replacements : Nat}
    (hfault : (machine.guest.leg course.walker).fault = none)
    (hpromotions : promotions machine.manager.hotThreshold (machine.guest.advance course).records =
      replacements) :
    machine.summaryOf (machine.guest.advance course) =
      { machine.summaryOf course with
        blocks := course.blocks + 1
        instructions := machine.guest.timeAfter course
        replacements
        timerEvents := course.timerEvents + (machine.guest.ticks course).length
        halted := (machine.guest.leg course.walker).walker.halted } := by
  rw [summaryOf, hpromotions, Guest.advance_of_none hfault]
  rfl

theorem start?_timer (events : List TimerEvent) :
    ∀ record ∈ events.map TraceRecord.timer, record.start? = none := by
  intro record hmem
  obtain ⟨event, -, rfl⟩ := List.mem_map.mp hmem
  rfl

section

-- Control stands at a block that takes the walker through the next leg, and the trace and the number
-- of promotions account for the dispatch of the block.
variable {block : Block} {trace : Trace} {replacements : Nat} (hover : course.isOver = false)
  (hwalks : block.Walks machine.guest course.walker
    (machine.blockAfter (dispatches course.records course.walker.ip + 1) course.walker.ip))
  (htrace : trace.pushBlock block = machine.trace.pushAll (told machine.manager.hotThreshold
    (course.records ++ [machine.guest.record course.walker.ip])))
  (hreplacements : replacements = promotions machine.manager.hotThreshold
    (course.records ++ [machine.guest.record course.walker.ip]))

include hover hwalks htrace hreplacements

theorem reaches_of_fault {fault : Fault}
    (hfault : (machine.guest.leg course.walker).fault = some fault) :
    ∃ turn, machine.Reaches (machine.guest.advance course) turn ∧
      (machine.sessionWith blocks clock trace block replacements course).turn = some turn := by
  obtain ⟨hrunning, -⟩ := Course.isOver_eq_false_iff.mp hover
  have hleg := machine.guest.isInterpreted_leg machine.manager.minBlockLimit_le hrunning
  obtain ⟨hstill, -⟩ := hleg.raised fault hfault
  have hnote : ∀ record ∈ [TraceRecord.note fault.text], record.start? = none :=
    List.forall_mem_singleton.mpr rfl
  have hadvance := Guest.advance_of_fault hfault
  obtain ⟨htold, hpromotions⟩ :=
    traceOf_of_silent (machine.guest.advance course) hnote (by rw [hadvance]) htrace
  have hturn := turn_of_fault
    (machine.sessionWith blocks clock trace block replacements course) hwalks hfault
  refine ⟨_, .stop ?_ htold ?_, hturn⟩
  · rw [hadvance, Course.isOver, Option.isSome_some, Bool.or_true]
  · rw [summaryOf, hpromotions, ← hreplacements, hadvance]
    dsimp only
    rw [hstill, ← hrunning]
    rfl

theorem reaches_of_none
    (hkeeps : ∀ other, other ≠ course.walker.ip → machine.KeepsAt blocks course.records other)
    (hticking : IsTicking machine.period clock course.instructions)
    (hfault : (machine.guest.leg course.walker).fault = none) :
    ∃ turn, machine.Reaches (machine.guest.advance course) turn ∧
      (machine.sessionWith blocks clock trace block replacements course).turn = some turn := by
  obtain ⟨hrunning, hnone⟩ := Course.isOver_eq_false_iff.mp hover
  have hsilent := start?_timer (machine.guest.ticks course)
  have hadvance := Guest.advance_of_none hfault
  obtain ⟨htold, hpromotions⟩ :=
    traceOf_of_silent (machine.guest.advance course) hsilent (by rw [hadvance]) htrace
  have hsummary := summaryOf_advance machine hfault (hpromotions.trans hreplacements.symm)
  have hturn := turn_of_walks
    (machine.sessionWith blocks clock trace block replacements course) hwalks hfault
  have hkept := keeps_insert hkeeps hsilent
  obtain ⟨later, hlater, htick⟩ := tick_of_isTicking
    { machine with
      blocks := blocks.insert course.walker.ip (machine.blockAfter
        (dispatches course.records course.walker.ip + 1) course.walker.ip)
      clock
      trace := trace.pushBlock block } hticking
    (Nat.le_add_right _ _ : _ ≤ machine.guest.timeAfter course)
  cases hhalted : (machine.guest.leg course.walker).walker.halted with
  | true =>
    rw [hhalted] at hsummary
    refine ⟨_, .stop ?_ htold hsummary.symm, hturn.trans (afterBlock_of_halted htick hhalted)⟩
    rw [hadvance, Course.isOver]
    exact Bool.or_eq_true_iff.mpr (.inl hhalted)
  | false =>
    obtain ⟨found, hfound, hblockAt⟩ :=
      hkept.blockAt later (machine.traceOf (machine.guest.advance course))
        (machine.guest.leg course.walker).walker.ip
    rw [← htold] at hblockAt
    have hnext := hturn.trans (afterBlock_of_running htick hhalted hblockAt)
    have hcontinues : (machine.guest.advance course).isOver = false := by
      rw [hadvance, Course.isOver_eq_false_iff]
      exact ⟨hhalted, hnone⟩
    rw [hhalted, ← hrunning] at hsummary
    have hsession := sessionAt_eq machine found later (machine.guest.advance course)
    rw [← htold, hsummary] at hsession
    rw [hadvance] at hcontinues hsession ⊢
    exact ⟨_, .next hcontinues hfound hlater hsession.symm, hnext⟩

theorem reaches_of_walks
    (hkeeps : ∀ other, other ≠ course.walker.ip → machine.KeepsAt blocks course.records other)
    (hticking : IsTicking machine.period clock course.instructions) :
    ∃ turn, machine.Reaches (machine.guest.advance course) turn ∧
      (machine.sessionWith blocks clock trace block replacements course).turn = some turn := by
  cases hfault : (machine.guest.leg course.walker).fault with
  | some fault => exact reaches_of_fault hover hwalks htrace hreplacements hfault
  | none => exact reaches_of_none hover hwalks htrace hreplacements hkeeps hticking hfault

end

/-- A leg takes two turns if the block is promoted: it is replaced, and the block in its place is
executed. -/
theorem exists_reaches_of_promoted (hover : course.isOver = false)
    (hkeeps : machine.Keeps blocks course.records)
    (hticking : IsTicking machine.period clock course.instructions)
    (hbudget : course.blocks < machine.maxBlocks) {instructions : List Instruction}
    (hblock : machine.guest.block? course.walker.ip = some instructions)
    (hdue : IsDue machine.manager.hotThreshold (dispatches course.records course.walker.ip)) :
    ∃ turn, machine.Reaches (machine.guest.advance course) turn ∧
      (machine.sessionAt blocks clock course).Leads 2 (machine.guest.leg course.walker).carriedOut
        turn := by
  obtain ⟨hexecute, hwalks⟩ := blockAfter_promoted hblock hdue
  have hreplaced := turn_of_replaced (machine.sessionAt blocks clock course)
    (hexecute Walker.executor course.walker) start_builtBlock start_builtBlock
  have hrecorded : (machine.sessionAt blocks clock course).turnCarriedOut = [] :=
    congrArg (·.state.2) (hexecute (Walker.recorder _) (course.walker, []))
  have htrace : ((machine.traceOf course).pushBlock (machine.blockAfter
      (dispatches course.records course.walker.ip) course.walker.ip)).pushBlock
        (machine.builtBlock .optimised 0 course.walker.ip) =
          machine.trace.pushAll (told machine.manager.hotThreshold
            (course.records ++ [machine.guest.record course.walker.ip])) := by
    rw [told_append_of_promoted hblock hdue, Trace.pushAll_append, Trace.pushAll_append]
    rfl
  obtain ⟨turn, hreaches, hturn⟩ := reaches_of_walks hover hwalks htrace
    (promotions_append_of_promoted hblock hdue).symm
    (fun other hother ↦ ((hkeeps other).insert hother).insert hother) hticking
  have hleads := (leads_of_turn hbudget hturn).of_next hbudget hreplaced
  rw [hrecorded, List.nil_append] at hleads
  exact ⟨turn, hreaches, hwalks.carriedOut ▸ hleads⟩

/-- Any other leg takes one turn. -/
theorem exists_reaches_of_walks (hover : course.isOver = false)
    (hkeeps : machine.Keeps blocks course.records)
    (hticking : IsTicking machine.period clock course.instructions)
    (hbudget : course.blocks < machine.maxBlocks)
    (hnot : machine.guest.block? course.walker.ip ≠ none →
      ¬ IsDue machine.manager.hotThreshold (dispatches course.records course.walker.ip)) :
    ∃ turn, machine.Reaches (machine.guest.advance course) turn ∧
      (machine.sessionAt blocks clock course).Leads 1 (machine.guest.leg course.walker).carriedOut
        turn := by
  have hwalks := blockAfter_walks hnot
  have htrace : (machine.traceOf course).pushBlock
      (machine.blockAfter (dispatches course.records course.walker.ip) course.walker.ip) =
        machine.trace.pushAll (told machine.manager.hotThreshold
          (course.records ++ [machine.guest.record course.walker.ip])) := by
    rw [told_append_of_walks hnot, Trace.pushAll_append]
    rfl
  obtain ⟨turn, hreaches, hturn⟩ := reaches_of_walks hover hwalks htrace
    (promotions_append_of_walks hnot).symm (fun other _ ↦ hkeeps other) hticking
  have hleads := leads_of_turn hbudget hturn
  exact ⟨turn, hreaches, hwalks.carriedOut ▸ hleads⟩

/-- The machine completes a leg of the course in at most two turns. -/
theorem exists_reaches (hover : course.isOver = false)
    (hkeeps : machine.Keeps blocks course.records)
    (hticking : IsTicking machine.period clock course.instructions)
    (hbudget : course.blocks < machine.maxBlocks) :
    ∃ turn turns, turns ≤ 2 ∧ machine.Reaches (machine.guest.advance course) turn ∧
      (machine.sessionAt blocks clock course).Leads turns
        (machine.guest.leg course.walker).carriedOut turn := by
  by_cases hpromoted : machine.guest.block? course.walker.ip ≠ none ∧
      IsDue machine.manager.hotThreshold (dispatches course.records course.walker.ip)
  · obtain ⟨hsome, hdue⟩ := hpromoted
    obtain ⟨instructions, hblock⟩ := Option.ne_none_iff_exists'.mp hsome
    obtain ⟨turn, hreaches, hleads⟩ :=
      exists_reaches_of_promoted hover hkeeps hticking hbudget hblock hdue
    exact ⟨turn, 2, Nat.le_refl 2, hreaches, hleads⟩
  · obtain ⟨turn, hreaches, hleads⟩ :=
      exists_reaches_of_walks hover hkeeps hticking hbudget (not_and.mp hpromoted)
    exact ⟨turn, 1, Nat.le_succ 1, hreaches, hleads⟩

/-! ## Runs -/

/-- Two turns for each block of the budget suffice to complete the course. -/
theorem finish_sessionAt (course : Course) (budget bound : Nat) (hover : course.isOver = false)
    (hkeeps : machine.Keeps blocks course.records)
    (hticking : IsTicking machine.period clock course.instructions)
    (hbudget : course.blocks + budget = machine.maxBlocks) (hbound : 2 * budget ≤ bound) :
    ∃ final,
      (machine.sessionAt blocks clock course).finish bound =
          some (.ok (machine.summaryOf (machine.guest.follow budget course)), final) ∧
        final.trace = machine.traceOf (machine.guest.follow budget course) ∧
        course.carriedOut ++ (machine.sessionAt blocks clock course).carriedOut bound =
          (machine.guest.follow budget course).carriedOut := by
  induction budget generalizing course blocks clock bound with
  | zero =>
    have hspent : ¬ course.blocks < machine.maxBlocks := Nat.not_lt_of_le (Nat.le_of_eq hbudget.symm)
    refine ⟨_, finish_of_spent hspent bound, rfl, ?_⟩
    exact (congrArg (_ ++ ·) (carriedOut_of_spent hspent bound)).trans (List.append_nil _)
  | succ budget ih =>
    obtain ⟨turn, turns, hturns, hreaches, hleads⟩ :=
      exists_reaches hover hkeeps hticking (by omega)
    obtain ⟨rest, rfl⟩ : ∃ rest, bound = rest + turns := ⟨bound - turns, by omega⟩
    rw [Guest.follow_succ budget hover, hleads.finish, hleads.carriedOut, ← List.append_assoc,
      ← Guest.carriedOut_advance]
    cases hreaches with
    | stop hstopped htrace hsummary =>
      rw [Guest.follow_of_isOver budget hstopped]
      exact ⟨_, by rw [hsummary]; rfl, htrace, List.append_nil _⟩
    | next hcontinues hkept hticked hsession =>
      have hblocks := Guest.blocks_advance hcontinues
      rw [hsession]
      exact ih _ rest hcontinues hkept hticked (by omega) (by omega)

/-- A machine that is run has a result, and it follows its course. -/
theorem IsFresh.run (hfresh : machine.IsFresh) :
    ∃ final, machine.run = some (.ok (machine.summaryOf machine.course), final) ∧
      final.trace = machine.traceOf machine.course ∧
      machine.carriedOut = machine.course.carriedOut := by
  obtain ⟨hblocks, hticking⟩ := hfresh
  obtain ⟨found, hfound, hblockAt⟩ :=
    machine.keeps_empty.blockAt machine.clock machine.trace machine.entry
  obtain ⟨final, hfinish, htrace, hcarriedOut⟩ :=
    finish_sessionAt { walker := { ip := machine.entry } } machine.maxBlocks machine.turnBound rfl
      hfound hticking (Nat.zero_add _) (by rw [turnBound]; omega)
  have hself : machine = { machine with blocks := ∅ } := by rw [← hblocks]
  rw [← hself] at hblockAt
  have hsession : machine.sessionAt found machine.clock { walker := { ip := machine.entry } } =
      { machine := { machine with blocks := found }
        walker := { ip := machine.entry }
        block := machine.blockAfter (dispatches [] machine.entry) machine.entry
        summary := {} } := by
    rw [sessionAt_eq, traceOf, told_nil, summaryOf, promotions_nil]
    rfl
  rw [hsession] at hfinish hcarriedOut
  refine ⟨final, ?_, htrace, ?_⟩
  · rw [Machine.run, hblockAt]
    exact hfinish
  · rw [Machine.carriedOut, hblockAt]
    exact hcarriedOut

end Machine

end GuestMachine

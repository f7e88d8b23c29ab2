import GuestMachine.Proofs.Machine.Schedule

/-!
# What a run counts

A run that ends without a fault counts every instruction that it carries out. A fault costs it the
count of the block that raises it: the instructions before the one that cannot be carried out have
moved the walker, but neither the summary nor the timer learns of them. How many these are can be
told from the last block in the trace.
-/

namespace GuestMachine

/-- The number of instructions of the block that is dispatched; a stub stands for one. -/
def TraceRecord.instructionCount : TraceRecord → Nat
  | block _ _ _ count _ => count
  | spanning _ _ => 1
  | timer _ | note _ => 0

namespace Guest

variable {guest : Guest} {course : Course} {fault : Fault}

/-- Of the block that raises a fault all instructions but one are carried out. -/
theorem length_carriedOut_leg {walker : Walker}
    (hfault : (guest.leg walker).fault = some fault) :
    (guest.leg walker).carriedOut.length + 1 = (guest.record walker.ip).instructionCount := by
  cases hblock : guest.block? walker.ip with
  | none =>
    rw [leg_of_cutOff hblock, record, hblock]
    rfl
  | some instructions =>
    obtain ⟨-, hstraight⟩ := Instruction.isStraight_of_block? hblock
    rw [leg_of_block? hblock] at hfault ⊢
    rcases Walker.stretch_cases hstraight with ⟨hnone, -⟩ | ⟨last, reason, -, -, hsplit⟩
    · rw [hnone] at hfault
      cases hfault
    · have hlength := congrArg List.length hsplit
      rw [List.length_append, List.length_singleton] at hlength
      rw [record, hblock]
      exact hlength

/-- What a course has counted: all that was carried out, or after a fault all but the block that
raised it, which is the last in the records. -/
structure Counts (guest : Guest) (course : Course) : Prop where
  all : course.exception = none → course.instructions = course.carriedOut.length
  lacksLast : ∀ fault, course.exception = some fault → ∃ earlier offset,
    course.records = earlier ++ [guest.record offset, .note fault.text] ∧
      course.carriedOut.length + 1 =
        course.instructions + (guest.record offset).instructionCount

theorem Counts.advance (hcounts : guest.Counts course) (hover : course.isOver = false) :
    guest.Counts (guest.advance course) where
  all := instructions_advance hover hcounts.all
  lacksLast fault hraised := by
    obtain ⟨-, hbefore⟩ := Course.isOver_eq_false_iff.mp hover
    cases hfault : (guest.leg course.walker).fault with
    | none =>
      rw [advance_of_none hfault] at hraised
      exact nomatch hbefore.symm.trans hraised
    | some reason =>
      rw [advance_of_fault hfault] at hraised ⊢
      cases hraised
      refine ⟨course.records, course.walker.ip, List.append_assoc _ _ _, ?_⟩
      calc
        (course.carriedOut ++ (guest.leg course.walker).carriedOut).length + 1
        _ = course.carriedOut.length + ((guest.leg course.walker).carriedOut.length + 1) := by
          rw [List.length_append, Nat.add_assoc]
        _ = course.instructions + (guest.record course.walker.ip).instructionCount := by
          rw [← hcounts.all hbefore, length_carriedOut_leg hfault]

theorem counts_course (guest : Guest) (budget offset : Nat) :
    guest.Counts (guest.course budget offset) := by
  apply follow_induction (motive := guest.Counts)
  · intro course hover hcounts
    exact hcounts.advance hover
  · exact ⟨fun _ ↦ rfl, nofun⟩

end Guest

namespace Promotion

/-- A promoted block has as many instructions as it had before. -/
theorem told_append_record (threshold : Option UInt32) (guest : Guest)
    (records : List TraceRecord) (offset : Nat) :
    ∃ before record, told threshold (records ++ [guest.record offset]) = before ++ [record] ∧
      record.instructionCount = (guest.record offset).instructionCount := by
  rw [Guest.record]
  cases guest.block? offset with
  | none =>
    refine ⟨told threshold records, .spanning guest.mode offset, ?_, rfl⟩
    apply told_append_of_start?_eq_none
    intro record hrecord
    rw [List.mem_singleton.mp hrecord]
    rfl
  | some instructions =>
    by_cases hdue : IsDue threshold (dispatches records offset)
    · exact ⟨told threshold records ++ [_], _,
        (told_append_of_isDue hdue).trans (List.append_assoc _ [_] [_]).symm, rfl⟩
    · exact ⟨told threshold records, _, told_append_of_not_isDue hdue, rfl⟩

end Promotion

namespace Machine

open Promotion

variable {configuration : Configuration} {image : Array UInt8} {trace : Trace} {machine : Machine}

/-- A run that ends without a fault has counted what it has carried out, and its timer goes by that
count. After a fault the count lacks the last block of the trace, all of which but the last
instruction has been carried out. -/
theorem run_accountsFor (hboot : boot configuration image trace = .ok machine) :
    ∃ summary final records, machine.run = some (.ok summary, final) ∧
      final.trace = trace.pushAll records ∧
      summary.timerEvents = configuration.machine.timerPeriod.elim 0 (summary.instructions / ·) ∧
      (summary.exception = none → summary.instructions = machine.carriedOut.length) ∧
      ∀ fault, summary.exception = some fault → ∃ before record,
        records = before ++ [record, .note fault.text] ∧
          machine.carriedOut.length + 1 = summary.instructions + record.instructionCount := by
  have hbooted := isBooted_of_boot hboot
  obtain ⟨final, hrun, htrace, hcarriedOut⟩ := hbooted.isFresh.run
  obtain ⟨summary, _, hsame, hevents, -⟩ := hbooted.isFresh.run_leaves
  cases hsame.symm.trans hrun
  have hcounts : machine.guest.Counts machine.course := Guest.counts_course _ _ _
  rw [traceOf, hbooted.trace] at htrace
  rw [hbooted.period] at hevents
  refine ⟨_, final, _, hrun, htrace, hevents, ?_, ?_⟩
  · intro hnone
    rw [hcarriedOut]
    exact hcounts.all hnone
  · intro fault hraised
    obtain ⟨earlier, offset, hrecords, hlacks⟩ := hcounts.lacksLast fault hraised
    obtain ⟨before, record, htold, hcount⟩ :=
      told_append_record machine.manager.hotThreshold machine.guest earlier offset
    have hnote : ∀ later ∈ [TraceRecord.note fault.text], later.start? = none := by
      intro later hlater
      rw [List.mem_singleton.mp hlater]
      rfl
    refine ⟨before, record, ?_, ?_⟩
    · calc
        _ = told machine.manager.hotThreshold
            (earlier ++ [machine.guest.record offset] ++ [.note fault.text]) := by
          rw [List.append_assoc]
          exact congrArg _ hrecords
        _ = told machine.manager.hotThreshold (earlier ++ [machine.guest.record offset]) ++
            [.note fault.text] := told_append_of_start?_eq_none _ hnote
        _ = before ++ [record] ++ [.note fault.text] := by rw [htold]
        _ = before ++ [record, .note fault.text] := List.append_assoc _ _ _
    · rw [hcarriedOut, hcount]
      exact hlacks

/-- A timer that fires with every instruction. -/
def everyInstruction : Configuration := { machine := { memorySize := 16, timerPeriod := some 1 } }

/-- A NOP, and an instruction that cannot be carried out in the same block. -/
theorem run_everyInstruction :
    ∃ machine final, boot everyInstruction #[0x90, 0x0F, 0x0B] .buffer = .ok machine ∧
      machine.run = some (.ok { exception := some .undefinedOpcode }, final) ∧
      machine.carriedOut.length = 1 := by
  have hlimit : minBlockLimit ≤ everyInstruction.core.blockLimit := by decide
  have hperiod : everyInstruction.machine.timerPeriod ≠ some 0 := by decide
  obtain ⟨machine, hboot⟩ := exists_boot everyInstruction #[0x90, 0x0F, 0x0B] rfl hlimit nofun
    hperiod .buffer
  have hcourse : (boot everyInstruction #[0x90, 0x0F, 0x0B] .buffer).toOption.map (fun machine ↦
      (machine.summaryOf machine.course, machine.course.carriedOut.length)) =
      some ({ exception := some .undefinedOpcode }, 1) := by cbv
  have hvalues := eq_of_map_boot hboot hcourse
  obtain ⟨hsummary, hlength⟩ := Prod.mk.inj hvalues
  obtain ⟨final, hrun, -, hcarriedOut⟩ := (isBooted_of_boot hboot).isFresh.run
  rw [hsummary] at hrun
  exact ⟨machine, final, hboot, hrun, hcarriedOut ▸ hlength⟩

/-- The block that raises the fault counts for two in the trace, and for nothing in the summary. -/
theorem run_accountsFor_everyInstruction :
    ∃ machine final before record,
      boot everyInstruction #[0x90, 0x0F, 0x0B] .buffer = .ok machine ∧
        machine.run = some (.ok { exception := some .undefinedOpcode }, final) ∧
        final.trace = Trace.buffer.pushAll (before ++ [record, .note Fault.undefinedOpcode.text]) ∧
        machine.carriedOut.length = 1 ∧ record.instructionCount = 2 := by
  obtain ⟨machine, final, hboot, hrun, hlength⟩ := run_everyInstruction
  obtain ⟨_, _, records, hsame, htrace, -, -, hraised⟩ := run_accountsFor hboot
  cases hrun.symm.trans hsame
  obtain ⟨before, record, rfl, hcount⟩ := hraised _ rfl
  rw [hlength, Nat.zero_add] at hcount
  exact ⟨machine, final, before, record, hboot, hrun, htrace, hlength, hcount.symm⟩

/-- The NOP is carried out, but it is not counted and the timer does not fire. -/
theorem carriedOut_not_counted :
    ∃ machine, boot everyInstruction #[0x90, 0x0F, 0x0B] .buffer = .ok machine ∧
      ∃ summary final, machine.run = some (.ok summary, final) ∧
        machine.carriedOut.length = 1 ∧ summary.instructions = 0 ∧ summary.timerEvents = 0 := by
  obtain ⟨machine, final, hboot, hrun, hlength⟩ := run_everyInstruction
  exact ⟨machine, hboot, _, final, hrun, hlength, rfl, rfl⟩

end Machine

end GuestMachine

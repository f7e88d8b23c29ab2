import GuestMachine.Proofs.Machine.Course

/-!
# The reference interpreter

An interpreter that knows no blocks: it decodes the instruction where the walker stands, lets the
walker carry it out, and starts again. It stops when the walker has halted, and with a fault where
the instruction is cut off, holds off interrupts and has no whole successor, or cannot be carried
out. The course of a run carries out what the interpreter carries out, and ends as it does.
-/

namespace GuestMachine

/-- Why an interpreter stops. -/
inductive Ending where
  | halted
  | raised (fault : Fault)
  deriving DecidableEq, Repr

/-- What an interpreter has carried out and, if it has stopped, why. -/
structure Account where
  carriedOut : List Instruction
  ending : Option Ending
  deriving DecidableEq, Repr

/-- The account of what was carried out earlier as well. -/
def Account.behind (earlier : List Instruction) (account : Account) : Account :=
  { account with carriedOut := earlier ++ account.carriedOut }

theorem Account.behind_behind (first second : List Instruction) (account : Account) :
    (account.behind second).behind first = account.behind (first ++ second) := by
  unfold behind
  rw [List.append_assoc]

namespace Instruction

section

variable (mode : Mode) (size32 : Bool) (memory : Memory)

/-- The instruction to carry out at an offset, or the fault that it raises. -/
def fetch (offset : Nat) : Except Fault Instruction :=
  match ofMemory? mode size32 memory offset with
  | none => .error .protection0
  | some instruction =>
    if instruction.flow.isShadow && (ofMemory? mode size32 memory instruction.next).isNone then
      .error .protection0
    else
      match instruction.flow with
      | .invalid fault => .error fault
      | _ => .ok instruction

/-- Carries out at most `room` instructions. -/
def interpret : (room : Nat) → Walker → Account
  | 0, walker => ⟨[], if walker.halted then some .halted else none⟩
  | room + 1, walker =>
    if walker.halted then
      ⟨[], some .halted⟩
    else
      match fetch mode size32 memory walker.ip with
      | .error fault => ⟨[], some (.raised fault)⟩
      | .ok instruction => (interpret room (walker.execute instruction).2).behind [instruction]

end

variable {mode : Mode} {size32 : Bool} {memory : Memory} {walker : Walker}
  {instruction : Instruction}

/-! ## Fetching -/

theorem fetch_of_invalid {offset : Nat} {fault : Fault}
    (hat : ofMemory? mode size32 memory offset = some instruction)
    (hflow : instruction.flow = .invalid fault) :
    fetch mode size32 memory offset = .error fault := by
  rw [fetch, hat]
  dsimp only
  rw [hflow]
  rfl

theorem fetch_of_valid {offset : Nat} (hat : ofMemory? mode size32 memory offset = some instruction)
    (hfollowed : instruction.flow.isShadow = true →
      (ofMemory? mode size32 memory instruction.next).isSome = true)
    (hvalid : ∀ fault, instruction.flow ≠ .invalid fault) :
    fetch mode size32 memory offset = .ok instruction := by
  have hwhole : (instruction.flow.isShadow &&
      (ofMemory? mode size32 memory instruction.next).isNone) = false := by
    cases hshadow : instruction.flow.isShadow with
    | false => rfl
    | true => rw [Bool.true_and, ← Option.not_isSome, hfollowed hshadow, Bool.not_true]
  rw [fetch, hat]
  dsimp only
  rw [hwhole, if_neg Bool.false_ne_true]
  split
  · next fault hflow => exact absurd hflow (hvalid fault)
  · rfl

theorem fetch_of_isCutOff {offset : Nat} (hcut : IsCutOff mode size32 memory offset) :
    fetch mode size32 memory offset = .error .protection0 := by
  rw [fetch]
  split
  · rfl
  · next instruction hat =>
    obtain ⟨hshadow, hnext⟩ := hcut instruction hat
    rw [hshadow, hnext]
    rfl

/-! ## Interpreting -/

theorem interpret_of_ok {progress : Progress} {moved : Walker} (room : Nat)
    (hrunning : walker.halted = false)
    (hfetch : fetch mode size32 memory walker.ip = .ok instruction)
    (hexecute : Walker.execute instruction walker = (progress, moved)) :
    interpret mode size32 memory (room + 1) walker =
      (interpret mode size32 memory room moved).behind [instruction] := by
  rw [interpret, hrunning, if_neg Bool.false_ne_true, hfetch]
  dsimp only
  rw [hexecute]

end Instruction

open Instruction

variable {mode : Mode} {size32 : Bool} {memory : Memory} {walker : Walker}
  {instruction : Instruction}

/-! ## Stretches and legs -/

/-- The stretch is what the interpreter carries out first, and where it ends in a fault the
interpreter stops with it. -/
structure Stretch.IsInterpreted (mode : Mode) (size32 : Bool) (memory : Memory) (walker : Walker)
    (stretch : Stretch) : Prop where
  carriedOut : ∀ room, interpret mode size32 memory (stretch.carriedOut.length + room) walker =
    (interpret mode size32 memory room stretch.walker).behind stretch.carriedOut
  raised : ∀ fault, stretch.fault = some fault →
    stretch.walker.halted = false ∧ fetch mode size32 memory stretch.walker.ip = .error fault

theorem Stretch.isInterpreted_nil {fault : Option Fault}
    (hraised : ∀ reason, fault = some reason →
      walker.halted = false ∧ fetch mode size32 memory walker.ip = .error reason) :
    Stretch.IsInterpreted mode size32 memory walker ⟨[], walker, fault⟩ where
  carriedOut room := by
    rw [List.length_nil, Nat.zero_add]
    rfl
  raised := hraised

theorem Stretch.IsInterpreted.cons {later : Stretch} {progress : Progress} {moved : Walker}
    (hlater : later.IsInterpreted mode size32 memory moved) (hrunning : walker.halted = false)
    (hfetch : fetch mode size32 memory walker.ip = .ok instruction)
    (hexecute : Walker.execute instruction walker = (progress, moved)) :
    Stretch.IsInterpreted mode size32 memory walker
      { later with carriedOut := instruction :: later.carriedOut } where
  carriedOut room := by
    rw [List.length_cons, Nat.add_right_comm, interpret_of_ok _ hrunning hfetch hexecute,
      hlater.carriedOut, Account.behind_behind]
    rfl
  raised := hlater.raised

theorem Walker.isInterpreted_stretch {instructions : List Instruction}
    (hstraight : IsStraight mode size32 memory walker.ip instructions)
    (hfollowed : ∀ instruction ∈ instructions, instruction.flow.isShadow = true →
      (ofMemory? mode size32 memory instruction.next).isSome = true)
    (hrunning : walker.halted = false) :
    (walker.stretch instructions).IsInterpreted mode size32 memory walker := by
  induction instructions generalizing walker with
  | nil => exact Stretch.isInterpreted_nil fun _ hnone ↦ nomatch hnone
  | cons instruction rest ih =>
    obtain ⟨hat, -, hrest⟩ := hstraight
    by_cases hinvalid : ∃ fault, instruction.flow = .invalid fault
    · obtain ⟨fault, hflow⟩ := hinvalid
      rw [stretch_cons_of_invalid hflow]
      refine Stretch.isInterpreted_nil fun reason hreason ↦ ?_
      cases hreason
      exact ⟨hrunning, fetch_of_invalid hat hflow⟩
    · have hvalid := not_exists.mp hinvalid
      have hfetch := fetch_of_valid hat (hfollowed instruction List.mem_cons_self) hvalid
      cases hexecute : execute instruction walker with
      | mk progress moved =>
        cases progress with
        | leave =>
          rw [stretch_cons_of_leave hvalid hexecute]
          have hend : Stretch.IsInterpreted mode size32 memory moved ⟨[], moved, none⟩ :=
            Stretch.isInterpreted_nil fun _ hnone ↦ nomatch hnone
          exact hend.cons hrunning hfetch hexecute
        | proceed =>
          rw [stretch_cons_of_proceed hvalid hexecute]
          obtain ⟨hip, hhalted⟩ := execute_proceed hexecute
          have hlater := ih (hip ▸ hrest)
            (fun other hother ↦ hfollowed other (List.mem_cons_of_mem _ hother))
            (hhalted.trans hrunning)
          exact hlater.cons hrunning hfetch hexecute

namespace Guest

variable {guest : Guest} {course : Course}

theorem isInterpreted_leg (hlimit : 2 ≤ guest.blockLimit) (hrunning : walker.halted = false) :
    (guest.leg walker).IsInterpreted guest.mode guest.size32 guest.memory walker := by
  cases hblock : guest.block? walker.ip with
  | some instructions =>
    have hisBlock := isBlock_of_block? hlimit hblock
    rw [leg_of_block? hblock]
    exact Walker.isInterpreted_stretch hisBlock.straight hisBlock.followed hrunning
  | none =>
    rw [leg_of_cutOff hblock]
    refine Stretch.isInterpreted_nil fun reason hreason ↦ ?_
    cases hreason
    exact ⟨hrunning, fetch_of_isCutOff (isCutOff_of_block? hlimit hblock)⟩

/-! ## Courses -/

/-- The course is what the interpreter carries out first from a walker, and where it ends in a fault
the interpreter stops with it. -/
structure Interprets (guest : Guest) (start : Walker) (course : Course) : Prop where
  carriedOut : ∀ room,
    interpret guest.mode guest.size32 guest.memory (course.carriedOut.length + room) start =
      (interpret guest.mode guest.size32 guest.memory room course.walker).behind course.carriedOut
  raised : ∀ fault, course.exception = some fault →
    course.walker.halted = false ∧
      fetch guest.mode guest.size32 guest.memory course.walker.ip = .error fault

variable {start : Walker}

theorem Interprets.advance (hlimit : 2 ≤ guest.blockLimit) (hover : course.isOver = false)
    (hcourse : guest.Interprets start course) : guest.Interprets start (guest.advance course) := by
  obtain ⟨hrunning, hnone⟩ := Course.isOver_eq_false_iff.mp hover
  have hleg := guest.isInterpreted_leg hlimit hrunning
  have hcarriedOut (room : Nat) : interpret guest.mode guest.size32 guest.memory
      ((course.carriedOut ++ (guest.leg course.walker).carriedOut).length + room) start =
        (interpret guest.mode guest.size32 guest.memory room (guest.leg course.walker).walker).behind
          (course.carriedOut ++ (guest.leg course.walker).carriedOut) := by
    rw [List.length_append, Nat.add_assoc, hcourse.carriedOut, hleg.carriedOut,
      Account.behind_behind]
  cases hfault : (guest.leg course.walker).fault with
  | some fault =>
    rw [advance_of_fault hfault]
    refine ⟨hcarriedOut, fun reason hreason ↦ ?_⟩
    cases hreason
    exact hleg.raised fault hfault
  | none =>
    rw [advance_of_none hfault]
    refine ⟨hcarriedOut, fun reason hreason ↦ ?_⟩
    rw [hreason] at hnone
    cases hnone

end Guest

end GuestMachine

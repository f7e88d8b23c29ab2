import GuestMachine.Proofs.Block.Building
import GuestMachine.Proofs.Machine.Stretch
import GuestMachine.Proofs.Machine.Ticks

/-!
# The course of a run

What a run comes to, told without the blocks that a machine keeps, without tiers and without the
queue of its clock. A course is over when the walker has halted or a fault was raised. Each leg of a
course carries out the instructions of the block that starts where the walker stands.
-/

namespace GuestMachine

theorem Mode.defaultSize32_idem (mode : Mode) (size32 : Bool) :
    mode.defaultSize32 (mode.defaultSize32 size32) = mode.defaultSize32 size32 := by
  cases mode <;> rfl

/-- The tier at which a compiled block is dispatched. -/
def TraceRecord.tier? : TraceRecord → Option Tier
  | block _ _ _ _ tier => some tier
  | spanning _ _ | timer _ | note _ => none

/-- What the course of a run depends on. -/
structure Guest where
  memory : Memory
  mode : Mode
  code32 : Bool
  blockLimit : Nat
  period : Option Nat

structure Course where
  walker : Walker
  /-- The legs that were not ended by a fault. -/
  blocks : Nat := 0
  /-- The instructions of these legs. -/
  instructions : Nat := 0
  timerEvents : Nat := 0
  exception : Option Fault := none
  carriedOut : List Instruction := []
  records : List TraceRecord := []

def Course.isOver (course : Course) : Bool := course.walker.halted || course.exception.isSome

theorem Course.isOver_eq_false_iff {course : Course} :
    course.isOver = false ↔ course.walker.halted = false ∧ course.exception = none := by
  rw [isOver, Bool.or_eq_false_iff, Option.isSome_eq_false_iff, Option.isNone_iff_eq_none]

namespace Guest

variable (guest : Guest)

def size32 : Bool := guest.mode.defaultSize32 guest.code32

/-- The instructions of the block at an offset; there is none where the region ends too early. -/
def block? (offset : Nat) : Option (List Instruction) :=
  (Instruction.stream guest.mode guest.size32 guest.memory guest.blockLimit offset).block?

/-- How the walker fares in the block where it stands. -/
def leg (walker : Walker) : Stretch :=
  match guest.block? walker.ip with
  | some instructions => walker.stretch instructions
  | none => ⟨[], walker, some .protection0⟩

/-- The record of the block at an offset, as it is built first. -/
def record (offset : Nat) : TraceRecord :=
  match guest.block? offset with
  | some instructions =>
    .block guest.mode offset (instructions.getLast?.elim offset Instruction.next - offset)
      instructions.length .baseline
  | none => .spanning guest.mode offset

/-- The instructions that were counted once the next leg is done. -/
def timeAfter (course : Course) : Nat :=
  course.instructions + (guest.leg course.walker).carriedOut.length

/-- The dispatches of the timer after the next leg. -/
def ticks (course : Course) : List TimerEvent :=
  Machine.ticks guest.period course.instructions (guest.timeAfter course)

/-- The course after one more leg. -/
def advance (course : Course) : Course :=
  let leg := guest.leg course.walker
  let carriedOut := course.carriedOut ++ leg.carriedOut
  let records := course.records ++ [guest.record course.walker.ip]
  match leg.fault with
  | some fault =>
    { course with
      walker := leg.walker
      exception := some fault
      carriedOut
      records := records ++ [.note fault.text] }
  | none =>
    { course with
      walker := leg.walker
      blocks := course.blocks + 1
      instructions := guest.timeAfter course
      timerEvents := course.timerEvents + (guest.ticks course).length
      carriedOut
      records := records ++ (guest.ticks course).map .timer }

/-- The course after at most `budget` more legs. -/
def follow : (budget : Nat) → Course → Course
  | 0, course => course
  | budget + 1, course => if course.isOver then course else follow budget (guest.advance course)

/-- The course of a run from an offset. -/
def course (budget offset : Nat) : Course := guest.follow budget { walker := { ip := offset } }

variable {guest} {course : Course} {instructions : List Instruction}

/-! ## Legs -/

theorem leg_of_block? {walker : Walker} (hblock : guest.block? walker.ip = some instructions) :
    guest.leg walker = walker.stretch instructions := by
  rw [leg, hblock]

theorem leg_of_cutOff {walker : Walker} (hblock : guest.block? walker.ip = none) :
    guest.leg walker = ⟨[], walker, some .protection0⟩ := by
  rw [leg, hblock]

theorem advance_of_fault {fault : Fault} (hfault : (guest.leg course.walker).fault = some fault) :
    guest.advance course =
      { course with
        walker := (guest.leg course.walker).walker
        exception := some fault
        carriedOut := course.carriedOut ++ (guest.leg course.walker).carriedOut
        records := course.records ++ [guest.record course.walker.ip] ++ [.note fault.text] } := by
  simp only [advance, hfault]

theorem advance_of_none (hfault : (guest.leg course.walker).fault = none) :
    guest.advance course =
      { course with
        walker := (guest.leg course.walker).walker
        blocks := course.blocks + 1
        instructions := guest.timeAfter course
        timerEvents := course.timerEvents + (guest.ticks course).length
        carriedOut := course.carriedOut ++ (guest.leg course.walker).carriedOut
        records := course.records ++ [guest.record course.walker.ip] ++
          (guest.ticks course).map .timer } := by
  simp only [advance, hfault]

theorem carriedOut_advance :
    (guest.advance course).carriedOut =
      course.carriedOut ++ (guest.leg course.walker).carriedOut := by
  cases hfault : (guest.leg course.walker).fault with
  | some fault => rw [advance_of_fault hfault]
  | none => rw [advance_of_none hfault]

/-- A leg after which the course goes on is counted. -/
theorem blocks_advance (hover : (guest.advance course).isOver = false) :
    (guest.advance course).blocks = course.blocks + 1 := by
  obtain ⟨-, hnone⟩ := Course.isOver_eq_false_iff.mp hover
  cases hfault : (guest.leg course.walker).fault with
  | some fault =>
    rw [advance_of_fault hfault] at hnone
    cases hnone
  | none => rw [advance_of_none hfault]

/-! ## Following a course -/

theorem follow_of_isOver (budget : Nat) (hover : course.isOver = true) :
    guest.follow budget course = course := by
  cases budget with
  | zero => rfl
  | succ budget => rw [follow, if_pos hover]

theorem follow_succ (budget : Nat) (hover : course.isOver = false) :
    guest.follow (budget + 1) course = guest.follow budget (guest.advance course) := by
  rw [follow, hover]
  rfl

/-- What a leg preserves of a course that is not over, the whole course preserves. -/
theorem follow_induction {motive : Course → Prop}
    (hadvance : ∀ course, course.isOver = false → motive course → motive (guest.advance course))
    (budget : Nat) (hcourse : motive course) : motive (guest.follow budget course) := by
  induction budget generalizing course with
  | zero => exact hcourse
  | succ budget ih =>
    cases hover : course.isOver with
    | true =>
      rw [follow_of_isOver _ hover]
      exact hcourse
    | false =>
      rw [follow_succ _ hover]
      apply ih
      exact hadvance course hover hcourse

/-- A leg that raises no fault counts what it carries out. -/
theorem instructions_advance (hover : course.isOver = false)
    (hcounted : course.exception = none → course.instructions = course.carriedOut.length)
    (hnone : (guest.advance course).exception = none) :
    (guest.advance course).instructions = (guest.advance course).carriedOut.length := by
  obtain ⟨-, hbefore⟩ := Course.isOver_eq_false_iff.mp hover
  cases hfault : (guest.leg course.walker).fault with
  | some fault =>
    rw [advance_of_fault hfault] at hnone
    cases hnone
  | none =>
    rw [carriedOut_advance, advance_of_none hfault, List.length_append, ← hcounted hbefore]
    rfl

end Guest

end GuestMachine

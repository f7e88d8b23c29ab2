import GuestMachine.Machine.Walker
import GuestMachine.Proofs.Block.Fusion

/-!
# Walking through a block

A walker carries out the instructions of a block until one leaves the block or cannot be carried
out. What it carries out is written down by an executor that walks like the walker, and counts a run
of NOPs as its NOPs. Both tiers of a block make the walker carry out the same instructions.
-/

namespace GuestMachine

/-- How a walker fares in a block: what it carries out, how it then stands, and the fault that it
stops at. -/
structure Stretch where
  carriedOut : List Instruction
  walker : Walker
  fault : Option Fault

/-- What a block answers after the stretch, where `done` instructions were carried out before. -/
def Stretch.result (stretch : Stretch) (done : Nat) : Except Error Nat :=
  match stretch.fault with
  | some fault => .error (.exception fault)
  | none => .ok (done + stretch.carriedOut.length)

namespace Walker

def stretch : List Instruction → Walker → Stretch
  | [], walker => ⟨[], walker, none⟩
  | instruction :: rest, walker =>
    match instruction.flow with
    | .invalid fault => ⟨[], walker, some fault⟩
    | _ =>
      match execute instruction walker with
      | (.leave, walker) => ⟨[instruction], walker, none⟩
      | (.proceed, walker) =>
        let later := stretch rest walker
        { later with carriedOut := instruction :: later.carriedOut }

/-- A walker that writes down what it carries out. -/
def recorder (size32 : Bool) : Executor (Walker × List Instruction) where
  execute instruction := fun (walker, log) ↦
    let (progress, walker) := execute instruction walker
    (.ok progress, walker, log ++ [instruction])
  skip length count := fun (walker, log) ↦
    (skip length walker, log ++ Instruction.nops size32 walker.ip count)

/-! ## The recorder walks like the walker -/

theorem runOps_recorder (size32 : Bool) (ops : List Op) (done : Nat) (walker : Walker)
    (log : List Instruction) :
    runOps executor ops done walker =
      ((runOps (recorder size32) ops done (walker, log)).1,
        (runOps (recorder size32) ops done (walker, log)).2.1) := by
  induction ops generalizing done walker log with
  | nil => rfl
  | cons op rest ih =>
    cases op with
    | execute instruction =>
      rw [runOps, runOps]
      simp only [executor, recorder]
      cases execute instruction walker with
      | mk progress moved =>
        cases progress with
        | proceed => exact ih (done + 1) moved (log ++ [instruction])
        | leave => rfl
    | nopRun offset length count => exact ih _ _ _
    | raise offset length fault => rfl

/-! ## Stepping -/

/-- A walker that does not leave a block stands at the next instruction and is as much halted as
before. -/
theorem execute_proceed {instruction : Instruction} {walker moved : Walker}
    (hexecute : execute instruction walker = (.proceed, moved)) :
    moved.ip = instruction.next ∧ moved.halted = walker.halted := by
  have htake (before : Walker) (htake : before.take instruction = (.proceed, moved)) :
      moved = before := by
    unfold take at htake
    split at htake
    · cases htake
    · cases htake
      rfl
  have hpush (before : Walker) :
      before.pushReturn.ip = before.ip ∧ before.pushReturn.halted = before.halted := by
    unfold pushReturn
    split <;> exact ⟨rfl, rfl⟩
  unfold execute at hexecute
  split at hexecute
  · obtain rfl := htake _ hexecute
    exact ⟨rfl, rfl⟩
  · dsimp only at hexecute
    split at hexecute
    · obtain rfl := htake _ hexecute
      exact ⟨rfl, rfl⟩
    · cases hexecute
  · obtain rfl := htake _ hexecute
    exact hpush _
  · cases hexecute
  · cases hexecute
  · cases hexecute
  · cases hexecute
  · cases hexecute
    exact ⟨rfl, rfl⟩
  · cases hexecute
    exact ⟨rfl, rfl⟩
  · cases hexecute
    exact ⟨rfl, rfl⟩

theorem carriesOut_nops (size32 : Bool) (count : Nat) (walker : Walker) (log : List Instruction) :
    (recorder size32).CarriesOut (Instruction.nops size32 walker.ip count) (walker, log)
      (skip count walker, log ++ Instruction.nops size32 walker.ip count) := by
  induction count generalizing walker log with
  | zero =>
    rw [Instruction.nops, List.range'_zero, List.map_nil, List.append_nil]
    rfl
  | succ count ih =>
    have hrest := ih { walker with ip := walker.ip + 1 } (log ++ [.nop size32 walker.ip])
    have hskip : skip (count + 1) walker = skip count { walker with ip := walker.ip + 1 } := by
      simp only [skip, Nat.add_assoc, Nat.add_comm 1]
    rw [Instruction.nops_succ, hskip]
    refine ⟨({ walker with ip := walker.ip + 1 }, log ++ [.nop size32 walker.ip]), rfl, ?_⟩
    rw [List.append_assoc] at hrest
    exact hrest

/-- Standing at a run of NOPs, the recorder may step over it. -/
theorem skipsNops_recorder (size32 : Bool) :
    (recorder size32).SkipsNops size32 fun offset state ↦ state.1.ip = offset where
  skip _ hstands := by
    subst hstands
    exact carriesOut_nops size32 _ _ _
  proceeds _ hexecute := by
    simp only [recorder] at hexecute
    cases hmove : execute _ _ with
    | mk progress moved =>
      rw [hmove] at hexecute
      cases hexecute
      exact (execute_proceed hmove).1

/-! ## Stretches -/

theorem stretch_cons_of_invalid {instruction : Instruction} {fault : Fault}
    (hflow : instruction.flow = .invalid fault) (rest : List Instruction) (walker : Walker) :
    stretch (instruction :: rest) walker = ⟨[], walker, some fault⟩ := by
  rw [stretch, hflow]

theorem stretch_cons_of_leave {instruction : Instruction} {walker moved : Walker}
    (hvalid : ∀ fault, instruction.flow ≠ .invalid fault)
    (hexecute : execute instruction walker = (.leave, moved)) (rest : List Instruction) :
    stretch (instruction :: rest) walker = ⟨[instruction], moved, none⟩ := by
  rw [stretch]
  split
  · next fault hflow => exact absurd hflow (hvalid fault)
  · rw [hexecute]

theorem stretch_cons_of_proceed {instruction : Instruction} {walker moved : Walker}
    (hvalid : ∀ fault, instruction.flow ≠ .invalid fault)
    (hexecute : execute instruction walker = (.proceed, moved)) (rest : List Instruction) :
    stretch (instruction :: rest) walker =
      { stretch rest moved with carriedOut := instruction :: (stretch rest moved).carriedOut } := by
  rw [stretch]
  split
  · next fault hflow => exact absurd hflow (hvalid fault)
  · rw [hexecute]

/-- Instructions that are executed one by one take the walker through the stretch. -/
theorem runOps_map_ofInstruction (size32 : Bool) (instructions : List Instruction) (done : Nat)
    (walker : Walker) (log : List Instruction) :
    runOps (recorder size32) (instructions.map Op.ofInstruction) done (walker, log) =
      ((walker.stretch instructions).result done, (walker.stretch instructions).walker,
        log ++ (walker.stretch instructions).carriedOut) := by
  induction instructions generalizing done walker log with
  | nil =>
    rw [stretch, List.append_nil]
    rfl
  | cons instruction rest ih =>
    rw [List.map_cons]
    by_cases hinvalid : ∃ fault, instruction.flow = .invalid fault
    · obtain ⟨fault, hflow⟩ := hinvalid
      rw [Op.ofInstruction, hflow, stretch_cons_of_invalid hflow, List.append_nil]
      rfl
    · have hvalid := not_exists.mp hinvalid
      rw [Op.ofInstruction_of_valid hvalid, runOps]
      simp only [recorder]
      cases hexecute : execute instruction walker with
      | mk progress moved =>
        cases progress with
        | leave =>
          rw [stretch_cons_of_leave hvalid hexecute]
          rfl
        | proceed =>
          rw [stretch_cons_of_proceed hvalid hexecute]
          have hrest := ih (done + 1) moved (log ++ [instruction])
          rw [List.append_assoc] at hrest
          simp only [recorder] at hrest
          dsimp only
          rw [hrest]
          simp only [Stretch.result, List.length_cons, List.cons_append, List.nil_append,
            Nat.add_assoc, Nat.add_comm 1]

variable {mode : Mode} {size32 : Bool} {memory : Memory} {instructions : List Instruction}

/-- At both tiers the walker carries out the instructions of the block, and the recorder writes
these down. -/
theorem runOps_compile (tier : Tier) (walker : Walker)
    (hstraight : Instruction.IsStraight mode size32 memory walker.ip instructions) :
    runOps (recorder size32) (tier.compile instructions) 0 (walker, []) =
        ((walker.stretch instructions).result 0, (walker.stretch instructions).walker,
          (walker.stretch instructions).carriedOut) ∧
      runOps executor (tier.compile instructions) 0 walker =
        ((walker.stretch instructions).result 0, (walker.stretch instructions).walker) := by
  have hrecorder : runOps (recorder size32) (tier.compile instructions) 0 (walker, []) =
      ((walker.stretch instructions).result 0, (walker.stretch instructions).walker,
        (walker.stretch instructions).carriedOut) := by
    rw [GuestMachine.runOps_compile (skipsNops_recorder size32) hstraight rfl,
      runOps_map_ofInstruction, List.nil_append]
  refine ⟨hrecorder, ?_⟩
  rw [runOps_recorder size32 _ 0 walker [], hrecorder]

end Walker

end GuestMachine

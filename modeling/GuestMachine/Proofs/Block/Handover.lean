import GuestMachine.Proofs.Block.Execution
import GuestMachine.Proofs.Block.Fusion

/-!
# Handing instructions over

What a block does is told without its operations: its instructions are handed to the executor in
order, until one of them leaves the block, fails or cannot be carried out. The tier does not show, for
every executor that may step over a run of NOPs.
-/

namespace GuestMachine

open Instruction

/-- What comes of handing instructions to an executor. -/
structure Handover (σ : Type) where
  handed : List Instruction
  failure : Option Error
  state : σ

namespace Handover

variable {σ : Type} (handover : Handover σ)

/-- The number of instructions, where `done` were handed over before. -/
def count (done : Nat) : Except Error Nat :=
  match handover.failure with
  | some reason => .error reason
  | none => .ok (done + handover.handed.length)

/-- What a block answers once its instructions are handed over. -/
def outcome : Except Error Outcome := .executed <$> handover.count 0

end Handover

namespace Executor

variable {σ : Type} (executor : Executor σ)

/-- Hands instructions over in order, until one leaves the block or fails. One that is invalid is not
handed over and fails of itself. -/
def handOver : List Instruction → σ → Handover σ
  | [], state => ⟨[], none, state⟩
  | instruction :: rest, state =>
    match instruction.flow with
    | .invalid fault => ⟨[], some (.exception fault), state⟩
    | _ =>
      match executor.execute instruction state with
      | (.error reason, state) => ⟨[instruction], some reason, state⟩
      | (.ok .leave, state) => ⟨[instruction], none, state⟩
      | (.ok .proceed, state) =>
        let later := handOver rest state
        { later with handed := instruction :: later.handed }

variable {executor}

theorem handOver_cons_of_invalid {instruction : Instruction} {fault : Fault}
    (hflow : instruction.flow = .invalid fault) (rest : List Instruction) (state : σ) :
    executor.handOver (instruction :: rest) state = ⟨[], some (.exception fault), state⟩ := by
  rw [handOver, hflow]

theorem handOver_cons_of_valid {instruction : Instruction}
    (hvalid : ∀ fault, instruction.flow ≠ .invalid fault) (rest : List Instruction) (state : σ) :
    executor.handOver (instruction :: rest) state =
      match executor.execute instruction state with
      | (.error reason, state) => ⟨[instruction], some reason, state⟩
      | (.ok .leave, state) => ⟨[instruction], none, state⟩
      | (.ok .proceed, state) =>
        { executor.handOver rest state with
          handed := instruction :: (executor.handOver rest state).handed } := by
  rw [handOver]
  split
  · next fault hflow => exact absurd hflow (hvalid fault)
  · rfl

/-- What is handed over are the first of the instructions, and none that is invalid. -/
theorem handed_spec (instructions : List Instruction) (state : σ) :
    (executor.handOver instructions state).handed <+: instructions ∧
      ∀ instruction ∈ (executor.handOver instructions state).handed,
        ∀ fault, instruction.flow ≠ .invalid fault := by
  induction instructions generalizing state with
  | nil => exact ⟨List.prefix_rfl, fun _ hmem ↦ nomatch hmem⟩
  | cons instruction rest ih =>
    by_cases hinvalid : ∃ fault, instruction.flow = .invalid fault
    · obtain ⟨fault, hflow⟩ := hinvalid
      rw [handOver_cons_of_invalid hflow]
      exact ⟨List.nil_prefix, fun _ hmem ↦ nomatch hmem⟩
    · have hvalid := not_exists.mp hinvalid
      have honly : [instruction] <+: instruction :: rest ∧
          ∀ other ∈ [instruction], ∀ fault, other.flow ≠ .invalid fault :=
        ⟨List.prefix_append [instruction] rest, List.forall_mem_singleton.mpr hvalid⟩
      rw [handOver_cons_of_valid hvalid]
      split
      · exact honly
      · exact honly
      · next after _ =>
        obtain ⟨hfirst, hlater⟩ := ih after
        exact ⟨(List.prefix_cons_inj instruction).mpr hfirst,
          List.forall_mem_cons.mpr ⟨hvalid, hlater⟩⟩

/-- The baseline operations hand the instructions over. -/
theorem runOps_eq_handOver (instructions : List Instruction) (done : Nat) (state : σ) :
    runOps executor (instructions.map Op.ofInstruction) done state =
      ((executor.handOver instructions state).count done,
        (executor.handOver instructions state).state) := by
  induction instructions generalizing done state with
  | nil => rfl
  | cons instruction rest ih =>
    rw [List.map_cons]
    by_cases hinvalid : ∃ fault, instruction.flow = .invalid fault
    · obtain ⟨fault, hflow⟩ := hinvalid
      rw [Op.ofInstruction, hflow, handOver_cons_of_invalid hflow]
      rfl
    · have hvalid := not_exists.mp hinvalid
      rw [Op.ofInstruction_of_valid hvalid, handOver_cons_of_valid hvalid, runOps]
      cases hexecute : executor.execute instruction state with
      | mk progress after =>
        rcases progress with reason | progress
        · rfl
        · cases progress with
          | leave => rfl
          | proceed =>
            dsimp only
            rw [ih]
            simp only [Handover.count, List.length_cons, Nat.add_assoc, Nat.add_comm 1]

end Executor

/-! ## Blocks of either tier -/

/-- The block was compiled by the chain from what stands at an offset, and may have been executed
since. -/
def Chain.HasCompiled (chain : Chain) (memory : Memory) (offset : Nat) (size32 : Bool)
    (block : Block) : Prop :=
  ∃ requested code executions,
    chain.build memory offset size32 requested = .ok ⟨chain, size32, .compiled code⟩ ∧
      block = ⟨chain, size32, .compiled { code with executions }⟩

namespace Manager

variable {manager : Manager} {mode : Mode} {memory later : Memory} {offset : Nat} {size32 : Bool}
  {block other : Block} {instructions : List Instruction}

theorem isBlock_of_block? (hblock : manager.block? mode size32 memory offset = some instructions) :
    IsBlock mode (mode.defaultSize32 size32) memory offset instructions :=
  Instruction.isBlock_of_block? manager.minBlockLimit_le hblock

/-- A compiled block has the operations of its instructions, at one of the tiers. -/
theorem ops_of_hasCompiled
    (hcompiled : (manager.chain mode).HasCompiled memory offset size32 block) :
    ∃ (tier : Tier) (instructions : List Instruction),
      manager.block? mode size32 memory offset = some instructions ∧
        block.ops = tier.compile instructions := by
  obtain ⟨requested, code, executions, hbuild, rfl⟩ := hcompiled
  rw [build_chain, bodyAt] at hbuild
  cases hblock : manager.block? mode size32 memory offset with
  | none =>
    rw [hblock] at hbuild
    cases hbuild
  | some instructions =>
    rw [hblock] at hbuild
    cases hbuild
    exact ⟨_, instructions, rfl, rfl⟩

/-- A block that is run hands its instructions over, at either tier. -/
theorem execute_of_block? {σ : Type} {executor : Executor σ} {stands : Nat → σ → Prop} {state : σ}
    (hblock : manager.block? mode size32 memory offset = some instructions)
    (hcompiled : (manager.chain mode).HasCompiled memory offset size32 block)
    (hruns : block.request? later = none)
    (hskips : executor.SkipsNops (mode.defaultSize32 size32) stands)
    (hstands : stands offset state) :
    block.execute later executor state =
      ⟨(executor.handOver instructions state).outcome, block.counted later,
        (executor.handOver instructions state).state⟩ := by
  obtain ⟨tier, found, hfound, hops⟩ := ops_of_hasCompiled hcompiled
  obtain rfl : instructions = found := Option.some_inj.mp (hblock.symm.trans hfound)
  have hstraight := (isBlock_of_block? hblock).straight
  rw [Block.execute_eq, hruns, hops, runOps_compile hskips hstraight hstands,
    Executor.runOps_eq_handOver]
  rfl

/-- Both tiers run a block alike, for every executor that steps over a run of NOPs as it carries them
out. The instructions of the block are handed over in order, until one leaves the block or fails; an
invalid one, which can only be the last, is not handed over and raises its fault. -/
theorem execute_eq_handOver
    (hcompiled : (manager.chain mode).HasCompiled memory offset size32 block)
    (hruns : block.request? later = none) {σ : Type} {executor : Executor σ}
    {stands : Nat → σ → Prop} {state : σ}
    (hskips : executor.SkipsNops (mode.defaultSize32 size32) stands)
    (hstands : stands offset state) :
    ∃ instructions final, decodeBlock mode (mode.defaultSize32 size32) manager.blockLimit
        (Cursor.start memory offset) = .ok instructions final ∧
      (∀ instruction ∈ instructions.dropLast, ∀ fault, instruction.flow ≠ .invalid fault) ∧
      let handover := executor.handOver instructions state
      (handover.handed <+: instructions ∧
        ∀ instruction ∈ handover.handed, ∀ fault, instruction.flow ≠ .invalid fault) ∧
      (block.execute later executor state).result = handover.outcome ∧
      (block.execute later executor state).state = handover.state ∧
      ∀ other, (manager.chain mode).HasCompiled memory offset size32 other →
        other.request? later = none →
        (other.execute later executor state).result = (block.execute later executor state).result ∧
        (other.execute later executor state).state = (block.execute later executor state).state := by
  obtain ⟨tier, instructions, hblock, -⟩ := ops_of_hasCompiled hcompiled
  obtain ⟨final, hdecode⟩ := decodeBlock_of_block? hblock
  have hexecute := execute_of_block? hblock hcompiled hruns hskips hstands
  refine ⟨instructions, final, hdecode, ?_, executor.handed_spec instructions state,
    by rw [hexecute], by rw [hexecute], ?_⟩
  · intro instruction hmem fault hflow
    have hend := (isBlock_of_block? hblock).straight.isTerminator_of_mem_dropLast instruction hmem
    rw [hflow] at hend
    cases hend
  · intro other hcompiled' hruns'
    have hexecute' := execute_of_block? hblock hcompiled' hruns' hskips hstands
    rw [hexecute, hexecute']
    exact ⟨rfl, rfl⟩

/-- An executor that counts the instructions that it carries out. -/
def instructionCounter : Executor Nat where
  execute _ done := (.ok .proceed, done + 1)
  skip _ count done := done + count

theorem carriesOut_instructionCounter (size32 : Bool) (offset count done : Nat) :
    instructionCounter.CarriesOut (nops size32 offset count) done (done + count) := by
  induction count generalizing offset done with
  | zero => rfl
  | succ count ih =>
    rw [nops_succ, Nat.add_comm count 1, ← Nat.add_assoc]
    exact ⟨done + 1, rfl, ih (offset + 1) (done + 1)⟩

theorem skipsNops_instructionCounter (size32 : Bool) :
    instructionCounter.SkipsNops size32 fun _ _ ↦ True where
  skip _ _ := carriesOut_instructionCounter size32 _ _ _
  proceeds _ _ := trivial

def promotingManager : Manager where
  blockLimit := 10
  hotThreshold := some 3
  minBlockLimit_le := by decide
  hotThreshold_ne_zero := by decide

/-- Two NOPs and an instruction that is invalid. -/
def faultingCode : Memory := .rom #[0x90, 0x90, 0x0F, 0xFF]

def faultingInstructions : List Instruction :=
  [nop false 0, nop false 1, { nop false 2 with
    length := 2, opcode := 0x0FFF, prefixes := { escape := true },
    flow := .invalid .undefinedOpcode }]

def faultingBlock (tier : Tier) : Block where
  chain := promotingManager.chain .real
  size32 := false
  body := .compiled (.ofInstructions tier faultingCode 0 faultingInstructions)

/-- After two NOPs both tiers raise the fault. -/
theorem execute_eq_handOver_faulting :
    (∀ tier, (promotingManager.chain .real).HasCompiled faultingCode 0 false
      (faultingBlock tier)) ∧
      (∀ tier, (faultingBlock tier).request? faultingCode = none) ∧
      instructionCounter.SkipsNops (Mode.real.defaultSize32 false) (fun _ _ ↦ True) ∧
      ∀ tier, ((faultingBlock tier).execute faultingCode instructionCounter 0).state = 2 := by
  have hblock : promotingManager.block? .real false faultingCode 0 =
      some faultingInstructions := by cbv
  have hcompiled (tier : Tier) : (promotingManager.chain .real).HasCompiled faultingCode 0 false
      (faultingBlock tier) := by
    refine ⟨tier, .ofInstructions tier faultingCode 0 faultingInstructions, 0, ?_, rfl⟩
    rw [build_chain, bodyAt, hblock]
    rfl
  have hruns (tier : Tier) : (faultingBlock tier).request? faultingCode = none := by
    cases tier <;> cbv
  have hskips := skipsNops_instructionCounter (Mode.real.defaultSize32 false)
  refine ⟨hcompiled, hruns, hskips, fun tier ↦ ?_⟩
  obtain ⟨instructions, final, hdecode, -, -, -, hstate, -⟩ :=
    execute_eq_handOver (hcompiled tier) (hruns tier) hskips trivial
  obtain ⟨final', hdecode'⟩ := decodeBlock_of_block? hblock
  cases hdecode.symm.trans hdecode'
  rw [hstate]
  cbv

end Manager

end GuestMachine

import GuestMachine.Block.Chain

/-!
# Executing blocks

A block is executed against the region it was built from, by an executor that carries out its
instructions. Instead of running, a block may hand back a replacement, which is to be executed in
its place: when its code has been modified, when it has become hot, or when a stub can now be
decoded in full. The block is returned with its execution counter, which also moves when the run
ends in a fault.
-/

namespace GuestMachine

/-- What an executor makes of one instruction. -/
inductive Progress where
  | proceed
  /-- The block is left early. -/
  | leave
  deriving DecidableEq, Repr, Inhabited

/-- Something that carries out instructions and has a state of type `σ`. -/
structure Executor (σ : Type) where
  execute : Instruction → σ → Except Error Progress × σ
  /-- Steps over `count` instructions of `length` bytes that have no effect. -/
  skip : (length count : Nat) → σ → σ

inductive Outcome where
  /-- The block ran, and handed over this number of instructions. -/
  | executed (instructions : Nat)
  /-- The block did not run; the other is to be executed in its place. -/
  | replaced (block : Block)
  deriving DecidableEq, Repr

/-- The result of executing a block, with the block and the executor as they are afterwards. -/
structure Execution (σ : Type) where
  result : Except Error Outcome
  block : Block
  state : σ

variable {σ : Type}

/-- Runs operations in order; `done` instructions were carried out before. -/
def runOps (executor : Executor σ) : List Op → (done : Nat) → σ → Except Error Nat × σ
  | [], done, state => (.ok done, state)
  | .execute instruction :: rest, done, state =>
    match executor.execute instruction state with
    | (.ok .proceed, state) => runOps executor rest (done + 1) state
    | (.ok .leave, state) => (.ok (done + 1), state)
    | (.error reason, state) => (.error reason, state)
  | .nopRun _ length count :: rest, done, state =>
    runOps executor rest (done + count) (executor.skip length count state)
  | .raise _ _ fault :: _, _, state => (.error (.exception fault), state)

namespace CompiledBlock

/-- Whether the code may have changed since it was decoded. -/
def isModified (code : CompiledBlock) (memory : Memory) : Bool :=
  memory.codeVersion (UInt32.ofNat code.start) code.length != code.version

/-- Counts one more execution, as far as the counter goes. -/
def countExecution (code : CompiledBlock) : CompiledBlock :=
  { code with executions := if code.executions = UInt32.ofNat (UInt32.size - 1) then code.executions
                            else code.executions + 1 }

/-- Whether the block, once counted, is due for promotion. -/
def isHot (code : CompiledBlock) (chain : Chain) : Bool :=
  match chain.hotThreshold with
  | some threshold => code.tier == .baseline && decide (threshold ≤ code.executions)
  | none => false

end CompiledBlock

namespace Block

def rebuild (block : Block) (memory : Memory) (requested : Tier) : Except Error Outcome :=
  .replaced <$> block.chain.build memory block.start block.size32 requested

/-- Executes a block against the memory it was built from. -/
def execute (block : Block) (memory : Memory) (executor : Executor σ) (state : σ) : Execution σ :=
  match block.body with
  | .spanning start =>
    let result := do
      let replacement ← block.chain.build memory start block.size32 .baseline
      if replacement.isSpanning then
        throw (.exception .protection0)
      else
        return .replaced replacement
    ⟨result, block, state⟩
  | .compiled code =>
    if code.isModified memory then
      ⟨block.rebuild memory .baseline, block, state⟩
    else
      let code := code.countExecution
      let block := { block with body := .compiled code }
      if code.isHot block.chain then
        ⟨block.rebuild memory .optimised, block, state⟩
      else
        let (result, state) := runOps executor code.ops 0 state
        ⟨.executed <$> result, block, state⟩

end Block

end GuestMachine

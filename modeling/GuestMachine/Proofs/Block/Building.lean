import GuestMachine.Block.Manager
import GuestMachine.Proofs.Instruction.Stream

/-!
# What a chain builds

A compiled block is determined by its tier, the region and the instructions decoded at its start.
The chain of a manager always answers: with the block at the offset, at the requested tier as far as
promotion is enabled, or with a stub where the region ends too early.
-/

namespace GuestMachine

open Instruction

/-- A block as it is built from the instructions at an offset. -/
def CompiledBlock.ofInstructions (tier : Tier) (memory : Memory) (offset : Nat)
    (instructions : List Instruction) : CompiledBlock :=
  let length := instructions.getLast?.elim offset next - offset
  { start := offset
    length
    instructionCount := instructions.length
    tier
    ops := tier.compile instructions
    version := memory.codeVersion (UInt32.ofNat offset) length
    executions := 0 }

/-- Where a stream holds a block, this is what is decoded. -/
theorem Instruction.decodeBlock_of_block? {mode : Mode} {size32 : Bool} {memory : Memory}
    {limit offset : Nat} {instructions : List Instruction}
    (h : (stream mode size32 memory (max limit 1) offset).block? = some instructions) :
    ∃ final, decodeBlock mode size32 limit (Cursor.start memory offset) =
      .ok instructions final := by
  have hdecode := decodeBlock_eq mode size32 limit (Cursor.start memory offset)
  simp only [Cursor.start, h] at hdecode
  exact hdecode

/-! ## Factories -/

namespace Factory

variable (factory : Factory) (mode : Mode) (size32 : Bool) (memory : Memory) (offset : Nat)

/-- The instructions of the block that the factory builds at an offset. -/
def block? : Option (List Instruction) :=
  (stream mode (mode.defaultSize32 size32) memory (max factory.limit 1) offset).block?

variable {requested : Tier}

theorem make?_eq_none (h : factory.tier.isWithin requested = false) :
    factory.make? mode size32 requested (Cursor.start memory offset) =
      .ok none (Cursor.start memory offset) := by
  unfold make?
  rw [h]
  rfl

theorem make?_eq_some (hwithin : factory.tier.isWithin requested = true)
    {instructions : List Instruction}
    (h : factory.block? mode size32 memory offset = some instructions) :
    ∃ final, factory.make? mode size32 requested (Cursor.start memory offset) =
      .ok (some (.ofInstructions factory.tier memory offset instructions)) final := by
  obtain ⟨final, hdecode⟩ := decodeBlock_of_block? h
  refine ⟨final, ?_⟩
  unfold make?
  rw [hwithin, if_pos rfl]
  change (decodeBlock mode _ factory.limit >>= _) (Cursor.start memory offset) = _
  rw [Scan.bind_of_ok hdecode]
  rfl

theorem make?_eq_error (hwithin : factory.tier.isWithin requested = true)
    (h : factory.block? mode size32 memory offset = none) :
    ∃ reason final, factory.make? mode size32 requested (Cursor.start memory offset) =
      .error reason final := by
  have hdecode := decodeBlock_eq mode (mode.defaultSize32 size32) factory.limit
    (Cursor.start memory offset)
  unfold block? at h
  simp only [Cursor.start] at hdecode
  rw [h] at hdecode
  refine ⟨(Cursor.start memory offset).endError, (Cursor.start memory offset).atEnd, ?_⟩
  unfold make?
  rw [hwithin, if_pos rfl]
  change (decodeBlock mode _ factory.limit >>= _) (Cursor.start memory offset) = _
  rw [Cursor.start, Scan.bind_of_error hdecode]

end Factory

/-! ## Chains -/

namespace Chain

variable {memory : Memory} {offset : Nat} {size32 : Bool} {requested : Tier}

/-- The body of a block that a factory builds at an offset. -/
def bodyOf (factory : Factory) (mode : Mode) (size32 : Bool) (memory : Memory) (offset : Nat) :
    BlockBody :=
  match factory.block? mode size32 memory offset with
  | some instructions => .compiled (.ofInstructions factory.tier memory offset instructions)
  | none => .spanning offset

theorem ask_cons (chain : Chain) (factory : Factory) (others : List Factory) :
    chain.ask memory offset size32 requested (factory :: others) =
      if factory.tier.isWithin requested then
        .ok ⟨chain, size32, bodyOf factory chain.mode size32 memory offset⟩
      else
        chain.ask memory offset size32 requested others := by
  rw [ask, bodyOf]
  cases hwithin : factory.tier.isWithin requested with
  | false =>
    rw [factory.make?_eq_none _ _ _ _ hwithin]
    rfl
  | true =>
    cases hblock : factory.block? chain.mode size32 memory offset with
    | some instructions =>
      obtain ⟨final, hmake⟩ := factory.make?_eq_some _ _ _ _ hwithin hblock
      rw [hmake]
      rfl
    | none =>
      obtain ⟨reason, final, hmake⟩ := factory.make?_eq_error _ _ _ _ hwithin hblock
      rw [hmake]
      rfl

/-- A chain builds with the first of its factories whose tier is within the requested one. -/
theorem build_eq (chain : Chain) :
    chain.build memory offset size32 requested =
      match chain.factories.find? (·.tier.isWithin requested) with
      | some factory => .ok ⟨chain, size32, bodyOf factory chain.mode size32 memory offset⟩
      | none => .error (.internal (.noBlockProduced chain.mode)) := by
  unfold build
  induction chain.factories with
  | nil => rfl
  | cons factory others ih =>
    rw [ask_cons, List.find?_cons]
    cases factory.tier.isWithin requested
    · exact ih
    · rfl

/-- Whatever a chain builds stands at the offset and belongs to the chain. -/
theorem frame_of_build {chain : Chain} {block : Block}
    (hbuild : chain.build memory offset size32 requested = .ok block) :
    block.chain = chain ∧ block.size32 = size32 ∧ block.start = offset := by
  rw [build_eq] at hbuild
  split at hbuild
  · next factory _ =>
    cases hbuild
    refine ⟨rfl, rfl, ?_⟩
    rw [bodyOf, Block.start]
    cases factory.block? chain.mode size32 memory offset <;> rfl
  · cases hbuild

end Chain

/-! ## Managers -/

namespace Manager

variable (manager : Manager) (mode : Mode) (size32 : Bool) (memory : Memory)

/-- The tier of the blocks that are built on a request: without a threshold there is only one. -/
def builtTier (requested : Tier) : Tier :=
  if manager.hotThreshold.isSome then requested else .baseline

/-- The instructions of the block at an offset; there is none where a stub is left. -/
def block? (offset : Nat) : Option (List Instruction) :=
  (stream mode (mode.defaultSize32 size32) memory manager.blockLimit offset).block?

/-- The body of the block at an offset. -/
def bodyAt (requested : Tier) (offset : Nat) : BlockBody :=
  match manager.block? mode size32 memory offset with
  | some instructions =>
    .compiled (.ofInstructions (manager.builtTier requested) memory offset instructions)
  | none => .spanning offset

theorem hotThreshold_chain : (manager.chain mode).hotThreshold = manager.hotThreshold := by
  unfold chain Chain.ofFactories factories
  cases h : manager.hotThreshold <;> simp

theorem find?_factories (requested : Tier) :
    manager.factories.find? (·.tier.isWithin requested) =
      some ⟨manager.builtTier requested, manager.blockLimit⟩ := by
  unfold factories builtTier
  cases manager.hotThreshold with
  | none => cases requested <;> rfl
  | some threshold => cases requested <;> rfl

theorem max_blockLimit : max manager.blockLimit 1 = manager.blockLimit :=
  Nat.max_eq_left (Nat.le_of_lt manager.minBlockLimit_le)

/-- The instructions of a block are what the manager decodes at its start. -/
theorem decodeBlock_of_block? {manager : Manager} {mode : Mode} {size32 : Bool} {memory : Memory}
    {offset : Nat} {instructions : List Instruction}
    (hblock : manager.block? mode size32 memory offset = some instructions) :
    ∃ final, decodeBlock mode (mode.defaultSize32 size32) manager.blockLimit
      (Cursor.start memory offset) = .ok instructions final := by
  apply Instruction.decodeBlock_of_block?
  rw [max_blockLimit]
  exact hblock

/-- The chain of a manager answers every request. -/
theorem build_chain (offset : Nat) (requested : Tier) :
    (manager.chain mode).build memory offset size32 requested =
      .ok ⟨manager.chain mode, size32, manager.bodyAt mode size32 memory requested offset⟩ := by
  have hfactories : (manager.chain mode).factories = manager.factories := rfl
  rw [Chain.build_eq, hfactories, find?_factories]
  simp only [Chain.bodyOf, Factory.block?, max_blockLimit]
  rfl

end Manager

end GuestMachine

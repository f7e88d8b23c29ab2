import GuestMachine.Proofs.Block.Fusion
import GuestMachine.Proofs.Block.Growth

/-!
# Blocks fit

The chains of a manager answer every request, also one far behind the end of the region. A stub is
left exactly where no block starts; every other block holds as many instructions as the limit allows
at most, lies within the region, and is added up by its operations, fused or not.
-/

namespace GuestMachine

open Instruction

/-! ## Operations add up -/

namespace Op

variable {op : Op} {group : List Instruction} {ops : List Op} {groups : List (List Instruction)}

theorem Covers.length_eq (hcovers : op.Covers group) :
    op.length = (group.map Instruction.length).sum := by
  cases hcovers with
  | single instruction =>
    rw [List.map_singleton, List.sum_singleton]
    unfold ofInstruction
    split <;> rfl
  | run _ hlength _ => exact hlength

theorem Covers.count_eq (hcovers : op.Covers group) : op.count = group.length := by
  cases hcovers with
  | single instruction =>
    unfold ofInstruction
    split <;> rfl
  | run _ _ hcount => exact hcount

theorem sum_length_of_covers (hcovers : List.Forall₂ Covers ops groups) :
    (ops.map length).sum = (groups.flatten.map Instruction.length).sum := by
  induction hcovers with
  | nil => rfl
  | cons hfirst _ ih =>
    rw [List.map_cons, List.sum_cons, hfirst.length_eq, ih, List.flatten_cons, List.map_append,
      List.sum_append]

theorem sum_count_of_covers (hcovers : List.Forall₂ Covers ops groups) :
    (ops.map count).sum = groups.flatten.length := by
  induction hcovers with
  | nil => rfl
  | cons hfirst _ ih =>
    rw [List.map_cons, List.sum_cons, hfirst.count_eq, ih, List.flatten_cons, List.length_append]

end Op

theorem Tier.sum_length_compile (tier : Tier) (instructions : List Instruction) :
    ((tier.compile instructions).map Op.length).sum =
      (instructions.map Instruction.length).sum := by
  obtain ⟨groups, hcovers, rfl⟩ := tier.compile_covers instructions
  exact Op.sum_length_of_covers hcovers

theorem Tier.sum_count_compile (tier : Tier) (instructions : List Instruction) :
    ((tier.compile instructions).map Op.count).sum = instructions.length := by
  obtain ⟨groups, hcovers, rfl⟩ := tier.compile_covers instructions
  exact Op.sum_count_of_covers hcovers

variable {mode : Mode} {size32 : Bool} {memory : Memory} {offset : Nat}
  {instructions : List Instruction}

/-- Instructions that stand one after another end where their lengths add up to. -/
theorem Instruction.IsStraight.stopOf_eq
    (hstraight : IsStraight mode size32 memory offset instructions) :
    stopOf offset instructions = offset + (instructions.map Instruction.length).sum := by
  induction instructions generalizing offset with
  | nil => rfl
  | cons first rest ih =>
    obtain ⟨hat, -, hrest⟩ := hstraight
    obtain ⟨rfl, -, -⟩ := ofMemory?_eq_some hat
    rw [stopOf_cons, ih hrest, List.map_cons, List.sum_cons, ← Nat.add_assoc]
    rfl

/-! ## Blocks that fit -/

/-- The block has instructions, at most as many as the limit, and bytes of the region, and its
operations add up to them. -/
structure Block.Fits (block : Block) (memory : Memory) (limit : Nat) : Prop where
  instructionCount_pos : 1 ≤ block.instructionCount
  instructionCount_le : block.instructionCount ≤ limit
  byteLength_pos : 1 ≤ block.byteLength
  stop_le : block.stop ≤ memory.size
  sum_length : (block.ops.map Op.length).sum = block.byteLength
  sum_count : (block.ops.map Op.count).sum = block.instructionCount

/-- A block that is compiled from what was taken within the limit fits. -/
theorem Block.fits_of_body {block : Block} {limit : Nat} {tier : Tier} (hlimit : 1 ≤ limit)
    (hbody : block.body = .compiled (.ofInstructions tier memory offset instructions))
    (htaken : IsTakenWithin mode size32 memory limit offset instructions) :
    block.Fits memory limit := by
  have hne : instructions ≠ [] := List.length_pos_iff.mp htaken.length_pos
  have hstart : block.start = offset := by
    rw [Block.start, hbody]
    rfl
  have hstop : block.stop = stopOf offset instructions := by
    rw [Block.stop, Block.start, Block.byteLength, hbody]
    exact CompiledBlock.stop_ofInstructions tier htaken.straight
  have hlength : block.byteLength = (instructions.map Instruction.length).sum := by
    rw [Block.stop, hstart, htaken.straight.stopOf_eq] at hstop
    exact Nat.add_left_cancel hstop
  have hcount : block.instructionCount = instructions.length := by
    rw [Block.instructionCount, hbody]
    rfl
  have hops : block.ops = tier.compile instructions := by
    rw [Block.ops, hbody]
    rfl
  constructor
  · exact htaken.length_pos.trans_eq hcount.symm
  · calc
      block.instructionCount = instructions.length := hcount
      _ ≤ max limit 1 := htaken.length_le
      _ = limit := Nat.max_eq_left hlimit
  · have hless := htaken.straight.left_stopOf_lt hne
    rw [← hstop, Block.stop, hstart] at hless
    omega
  · rw [hstop]
    exact (htaken.straight.within_size hne).2
  · rw [hops, tier.sum_length_compile, hlength]
  · rw [hops, tier.sum_count_compile, hcount]

namespace Manager

variable {manager : Manager} {requested : Tier}

/-- The limit of a manager leaves room for the successor of an instruction that holds off
interrupts, so that a block is missing exactly where none starts. -/
theorem block?_eq_none_iff : manager.block? mode size32 memory offset = none ↔
    IsCutOff mode (mode.defaultSize32 size32) memory offset := by
  constructor
  · exact isCutOff_of_block? manager.minBlockLimit_le
  · intro hcut
    apply block?_of_lacks
    rcases wholeStream_of_isCutOff hcut with hnil | ⟨shadow, hshadow, -, honly⟩
    · rw [hnil]
      exact Or.inl rfl
    · rw [honly]
      exact Or.inr ⟨manager.minBlockLimit_le, rfl, shadow, rfl, hshadow⟩

theorem isTakenWithin_of_block?
    (hblock : manager.block? mode size32 memory offset = some instructions) :
    IsTakenWithin mode (mode.defaultSize32 size32) memory manager.blockLimit offset
      instructions := by
  by_cases hlacks :
    (wholeStream mode (mode.defaultSize32 size32) memory offset).Lacks manager.blockLimit
  · rw [block?_of_lacks hlacks] at hblock
    cases hblock
  · have htaken := isTakenWithin_withoutShadows hlacks
    rw [block?_of_not_lacks hlacks] at hblock
    rw [max_blockLimit, Option.some.inj hblock] at htaken
    exact htaken

theorem builtTier_eq (manager : Manager) (requested : Tier) : manager.builtTier requested =
    if requested = .optimised ∧ manager.hotThreshold.isSome = true then .optimised
    else .baseline := by
  rw [builtTier]
  cases manager.hotThreshold <;> cases requested <;> rfl

/-- Building a block never fails. A stub is left exactly where the region cuts off the instruction,
or the successor of one that holds off interrupts. Every other block fits, and it is at the optimised
tier exactly if that was asked for and there is a threshold. -/
theorem exists_fitting_block (manager : Manager) (mode : Mode) (memory : Memory) (offset : Nat)
    (size32 : Bool) (requested : Tier) :
    ∃ block, (manager.chain mode).build memory offset size32 requested = .ok block ∧
      block.mode = mode ∧ block.start = offset ∧
      (block.isSpanning = true ↔ IsCutOff mode (mode.defaultSize32 size32) memory offset) ∧
      (block.isSpanning = false → block.Fits memory manager.blockLimit ∧
        block.tier? = some (if requested = .optimised ∧ manager.hotThreshold.isSome = true
          then .optimised else .baseline)) := by
  refine ⟨_, build_built, rfl, start_built, ?_, fun hcompiled ↦ ?_⟩
  · rw [isSpanning_built, Option.isNone_iff_eq_none]
    exact block?_eq_none_iff
  · rw [isSpanning_built, Option.isNone_eq_false_iff] at hcompiled
    obtain ⟨instructions, hblock⟩ := Option.isSome_iff_exists.mp hcompiled
    have hbody : (manager.built mode size32 memory requested offset).body = .compiled
        (.ofInstructions (manager.builtTier requested) memory offset instructions) := by
      rw [built, bodyAt, hblock]
    refine ⟨Block.fits_of_body ?_ hbody (isTakenWithin_of_block? hblock), ?_⟩
    · exact Nat.le_of_succ_le manager.minBlockLimit_le
    · rw [tier?_built hblock, builtTier_eq]

end Manager

end GuestMachine

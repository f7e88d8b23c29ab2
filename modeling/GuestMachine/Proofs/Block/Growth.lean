import GuestMachine.Proofs.Block.Boundaries
import GuestMachine.Proofs.Block.Settling
import GuestMachine.Proofs.Instruction.Blocks
import GuestMachine.Proofs.Instruction.Delimiting

/-!
# Growing regions

Bytes that are appended to a region only add to what was decoded of it. The stream goes on where the
region cut it off, and stays as it is where it ended of itself. So a block goes on with the
instructions that it had left out, or that were not whole, as far as the limit allows; and a stub can
be exchanged as soon as the instruction it stands for is whole, with its successor if need be.
-/

namespace GuestMachine

namespace Instruction

/-! ## Streams that go on -/

/-- The other stream begins with the same instructions, and goes on only if this one was cut off. -/
structure Stream.Grows (stream grown : Stream) : Prop where
  instructions : stream.instructions <+: grown.instructions
  ended : stream.isCut = false → grown = stream

variable {mode : Mode} {size32 : Bool} {memory larger : Memory} {offset limit : Nat}
  {first second : List Instruction} {stream grown : Stream}

theorem IsStraight.of_extends (hextends : larger.Extends memory) (hsize : larger.size ≤ 2 ^ 32)
    (hstraight : IsStraight mode size32 memory offset first) :
    IsStraight mode size32 larger offset first := by
  by_cases hnil : first = []
  · rw [hnil]
    trivial
  · have hagrees : memory.Agrees larger offset memory.size :=
      (hextends.sharesBytes offset).agrees (hextends.size_le.trans hsize)
    exact hstraight.of_agrees hextends.size_le
      (hagrees.narrow le_rfl (hstraight.within_size hnil).2)

/-- A whole stream that does not end with the end of a block was cut off. -/
theorem isCut_wholeStream
    (hends : endsBlock (wholeStream mode size32 memory offset).instructions = false) :
    (wholeStream mode size32 memory offset).isCut = true := by
  have hstraight := wholeStream_isStraight mode size32 memory offset
  have hwhole := hstraight.wholeStream_of_not_endsBlock hends
  -- Nothing is left behind all of the instructions.
  have hnil := congrArg Stream.instructions hwhole
  have hcut := stream_eq_nil mode size32 (List.self_eq_append_right.mp hnil)
  rw [hwhole]
  exact hcut

theorem wholeStream_grows (hextends : larger.Extends memory) (hsize : larger.size ≤ 2 ^ 32)
    (mode : Mode) (size32 : Bool) (offset : Nat) :
    (wholeStream mode size32 memory offset).Grows (wholeStream mode size32 larger offset) := by
  have hstraight := wholeStream_isStraight mode size32 memory offset
  have hlarger := hstraight.of_extends hextends hsize
  cases hends : endsBlock (wholeStream mode size32 memory offset).instructions with
  | true =>
    have hsame : wholeStream mode size32 larger offset = wholeStream mode size32 memory offset :=
      (hlarger.wholeStream_of_endsBlock hends).trans
        (hstraight.wholeStream_of_endsBlock hends).symm
    rw [hsame]
    exact ⟨List.prefix_rfl, fun _ ↦ rfl⟩
  | false =>
    refine ⟨?_, fun hended ↦ ?_⟩
    · rw [hlarger.wholeStream_of_not_endsBlock hends]
      exact List.prefix_append _ _
    · rw [isCut_wholeStream hends] at hended
      cases hended

/-! ## Blocks of a stream that goes on -/

/-- What is left at the end of a list is left of every list that goes on. -/
theorem rdropWhile_mono {α : Type} (p : α → Bool) {first second : List α}
    (hstarts : first <+: second) : first.rdropWhile p <+: second.rdropWhile p := by
  obtain ⟨appended, rfl⟩ := hstarts
  induction appended using List.reverseRecOn with
  | nil => rw [List.append_nil]
  | append_singleton appended last ih =>
    rw [← List.append_assoc, List.rdropWhile_concat]
    split
    · exact ih
    · exact (List.rdropWhile_prefix p first).trans
        ((List.prefix_append _ _).trans (List.prefix_append _ _))

theorem withoutShadows_mono (hstarts : first <+: second) :
    withoutShadows first <+: withoutShadows second := by
  cases first with
  | nil => exact List.nil_prefix
  | cons instruction rest =>
    obtain ⟨appended, rfl⟩ := hstarts
    rw [List.cons_append, withoutShadows, withoutShadows, List.prefix_cons_inj]
    exact rdropWhile_mono _ (List.prefix_append _ _)

/-- Where there was a block there is one. -/
theorem Stream.Grows.not_lacks (hgrows : stream.Grows grown) (hlacks : ¬ stream.Lacks limit) :
    ¬ grown.Lacks limit := by
  have hstarts := hgrows.instructions
  rintro (hnil | ⟨hlimit, hcut, shadow, honly, hshadow⟩)
  · rw [hnil] at hstarts
    exact hlacks (.inl (List.prefix_nil.mp hstarts))
  · rw [honly] at hstarts
    cases hended : stream.isCut with
    | false =>
      rw [hgrows.ended hended, hended] at hcut
      cases hcut
    | true =>
      match hfound : stream.instructions with
      | [] => exact hlacks (.inl hfound)
      | found :: others =>
        rw [hfound, List.cons_prefix_cons, List.prefix_nil] at hstarts
        obtain ⟨rfl, rfl⟩ := hstarts
        exact hlacks (.inr ⟨hlimit, hended, found, hfound, hshadow⟩)

/-- A block goes on with further instructions, unless the limit or the end of the block keeps them
from it. -/
theorem Stream.Grows.block_isPrefix (hgrows : stream.Grows grown) (room : Nat) :
    ∃ more, withoutShadows (grown.instructions.take room) =
        withoutShadows (stream.instructions.take room) ++ more ∧
      (stream.isCut = false ∨ (withoutShadows (stream.instructions.take room)).length = room →
        more = []) := by
  have htake := hgrows.instructions.take room
  obtain ⟨more, hmore⟩ := withoutShadows_mono htake
  refine ⟨more, hmore.symm, fun hfull ↦ ?_⟩
  have hsame : grown.instructions.take room = stream.instructions.take room := by
    rcases hfull with hended | hlength
    · rw [hgrows.ended hended]
    · have hroom : room ≤ (stream.instructions.take room).length :=
        hlength.symm.le.trans (withoutShadows_isPrefix _).length_le
      exact (htake.eq_of_length_le ((List.length_take_le _ _).trans hroom)).symm
  rw [hsame] at hmore
  exact List.self_eq_append_right.mp hmore.symm

end Instruction

open Instruction

/-! ## Blocks of a manager -/

/-- The other block was built in the same way from the instructions of the block and more, and from
just these if the last of them ends a block, or if they are as many as the limit. -/
def Block.GoesOn (block : Block) (memory : Memory) (limit : Nat) (grown : Block)
    (larger : Memory) : Prop :=
  grown.chain = block.chain ∧ grown.size32 = block.size32 ∧ grown.start = block.start ∧
    grown.tier? = block.tier? ∧
    ∃ instructions more, block.Holds memory instructions ∧
      grown.Holds larger (instructions ++ more) ∧
      (endsBlock instructions = true ∨ instructions.length = limit → more = [])

namespace Manager

variable {manager : Manager} {mode : Mode} {size32 : Bool} {memory larger : Memory}
  {requested : Tier} {offset : Nat} {instructions : List Instruction}

theorem block?_eq_within : manager.block? mode size32 memory offset =
    ((wholeStream mode (mode.defaultSize32 size32) memory offset).within
      (max manager.blockLimit 1)).block? := by
  rw [block?, stream_eq_within, max_blockLimit]

theorem block?_of_lacks (hlacks : (wholeStream mode (mode.defaultSize32 size32) memory
    offset).Lacks manager.blockLimit) : manager.block? mode size32 memory offset = none := by
  rw [block?_eq_within]
  exact Stream.block?_within_of_lacks hlacks

theorem block?_of_not_lacks (hlacks : ¬ (wholeStream mode (mode.defaultSize32 size32) memory
    offset).Lacks manager.blockLimit) : manager.block? mode size32 memory offset =
      some (withoutShadows ((wholeStream mode (mode.defaultSize32 size32) memory
        offset).instructions.take manager.blockLimit)) := by
  rw [block?_eq_within, Stream.block?_within_of_not_lacks hlacks, max_blockLimit]

theorem holds_built (hblock : manager.block? mode size32 memory offset = some instructions) :
    (manager.built mode size32 memory requested offset).Holds memory instructions := by
  have hbody : (manager.built mode size32 memory requested offset).body = .compiled
      (.ofInstructions (manager.builtTier requested) memory offset instructions) := by
    rw [built, bodyAt, hblock]
  have hmem : (⟨manager.builtTier requested, manager.blockLimit⟩ : Factory) ∈ manager.factories :=
    List.mem_of_find?_eq_some (manager.find?_factories requested)
  refine ⟨_, hmem, ?_, ?_⟩
  · rw [start_built]
    exact decodeBlock_of_block? hblock
  · rw [start_built]
    exact hbody

theorem tier?_built (hblock : manager.block? mode size32 memory offset = some instructions) :
    (manager.built mode size32 memory requested offset).tier? =
      some (manager.builtTier requested) := by
  rw [Block.tier?, built, bodyAt, hblock]
  rfl

/-- A manager goes on with a block where it can. -/
theorem goesOn_built (hextends : larger.Extends memory) (hsize : larger.size ≤ 2 ^ 32)
    (hlacks : ¬ (wholeStream mode (mode.defaultSize32 size32) memory offset).Lacks
      manager.blockLimit) :
    (manager.built mode size32 memory requested offset).GoesOn memory manager.blockLimit
      (manager.built mode size32 larger requested offset) larger := by
  have hgrows := wholeStream_grows hextends hsize mode (mode.defaultSize32 size32) offset
  have hblock := block?_of_not_lacks hlacks
  have hgrown := block?_of_not_lacks (hgrows.not_lacks hlacks)
  obtain ⟨more, hmore, hfull⟩ := hgrows.block_isPrefix manager.blockLimit
  rw [hmore] at hgrown
  refine ⟨rfl, rfl, by rw [start_built, start_built], ?_, _, more, holds_built hblock,
    holds_built hgrown, fun hreason ↦ hfull (hreason.imp_left fun hends ↦ ?_)⟩
  · rw [tier?_built hgrown, tier?_built hblock]
  · -- A block that ends of itself is all of the stream.
    have hread := isTakenWithin_withoutShadows hlacks
    rw [max_blockLimit] at hread
    rw [hread.straight.wholeStream_of_endsBlock hends]

/-- A stub asks for the baseline block and does not call the executor. -/
theorem execute_stub (hspanning : (manager.built mode size32 memory requested offset).isSpanning =
      true) {σ : Type} (executor : Executor σ) (state : σ) :
    (manager.built mode size32 memory requested offset).execute larger executor state =
      ⟨if (manager.built mode size32 larger .baseline offset).isSpanning then
          .error (.exception .protection0)
        else .ok (.replaced (manager.built mode size32 larger .baseline offset)),
        manager.built mode size32 memory requested offset, state⟩ := by
  have hbody : (manager.built mode size32 memory requested offset).body = .spanning offset := by
    rw [isSpanning_built, Option.isNone_iff_eq_none] at hspanning
    rw [built, bodyAt, hspanning]
  rw [Block.execute, hbody]
  have hbuild : (manager.built mode size32 memory requested offset).chain.build larger offset
      (manager.built mode size32 memory requested offset).size32 .baseline =
        .ok (manager.built mode size32 larger .baseline offset) := build_built
  simp only [hbuild, bind, Except.bind]
  split <;> rfl

/-- Bytes that are appended to a region only add to what a chain builds there. A compiled block goes
on; and a stub, executed against the larger region, hands back the baseline block that is built there,
or fails if that is a stub as well. -/
theorem build_of_extends (manager : Manager) (mode : Mode) (size32 : Bool) (requested : Tier)
    (offset : Nat) {memory larger : Memory} (hextends : larger.Extends memory)
    (hsize : larger.size ≤ 2 ^ 32) :
    ∃ block, (manager.chain mode).build memory offset size32 requested = .ok block ∧
      (block.isSpanning = false → ∃ grown,
        (manager.chain mode).build larger offset size32 requested = .ok grown ∧
          block.GoesOn memory manager.blockLimit grown larger) ∧
      (block.isSpanning = true → ∃ replacement,
        (manager.chain mode).build larger offset size32 .baseline = .ok replacement ∧
          (replacement.isSpanning = false → replacement.tier? = some .baseline) ∧
          ∀ {σ : Type} (executor : Executor σ) (state : σ), block.execute larger executor state =
            ⟨if replacement.isSpanning then .error (.exception .protection0)
              else .ok (.replaced replacement), block, state⟩) := by
  refine ⟨_, build_built, fun hcompiled ↦ ?_, fun hspanning ↦ ?_⟩
  · refine ⟨_, build_built, goesOn_built hextends hsize fun hlacks ↦ ?_⟩
    rw [isSpanning_built, block?_of_lacks hlacks] at hcompiled
    cases hcompiled
  · refine ⟨_, build_built, fun hcompiled ↦ ?_, execute_stub hspanning⟩
    rw [isSpanning_built, Option.isNone_eq_false_iff] at hcompiled
    obtain ⟨instructions, hblock⟩ := Option.isSome_iff_exists.mp hcompiled
    have htier : manager.builtTier .baseline = .baseline := ite_self _
    exact (tier?_built hblock).trans (congrArg some htier)

/-- A NOP, an instruction that holds off interrupts and a prefix, which the region cuts off. -/
def cutCode : Memory := .rom #[0x90, 0x17, 0x66]

/-- The prefix has its instruction. -/
def completedCode : Memory := .rom #[0x90, 0x17, 0x66, 0x90]

def threeAtMost : Manager where
  blockLimit := 3
  hotThreshold := none
  minBlockLimit_le := by decide
  hotThreshold_ne_zero := by decide

/-- The block at the NOP goes on with what it had left out. The stub behind it, for the instruction
that holds off interrupts, is exchanged. -/
theorem build_of_extends_completed :
    completedCode.Extends cutCode ∧ completedCode.size ≤ 2 ^ 32 ∧
      (∃ block grown : Block,
        (threeAtMost.chain .real).build cutCode 0 false .baseline = .ok block ∧
        (threeAtMost.chain .real).build completedCode 0 false .baseline = .ok grown ∧
        block.GoesOn cutCode 3 grown completedCode ∧
        block.instructionCount = 1 ∧ grown.instructionCount = 3) ∧
      ∃ stub replacement : Block,
        (threeAtMost.chain .real).build cutCode 1 false .baseline = .ok stub ∧
        (threeAtMost.chain .real).build completedCode 1 false .baseline = .ok replacement ∧
        stub.execute completedCode Block.callCounter 0 = ⟨.ok (.replaced replacement), stub, 0⟩ := by
  have hextends : completedCode.Extends cutCode := ⟨#[0x90], rfl⟩
  have hsize : completedCode.size ≤ 2 ^ 32 := by decide
  refine ⟨hextends, hsize, ?_, ?_⟩
  · obtain ⟨block, hblock, hgoesOn, -⟩ :=
      threeAtMost.build_of_extends .real false .baseline 0 hextends hsize
    have hshort : ((threeAtMost.chain .real).build cutCode 0 false .baseline).map
        (fun block ↦ (block.isSpanning, block.instructionCount)) = .ok (false, 1) := by
      decide +kernel
    rw [hblock, Except.map, Except.ok.injEq, Prod.mk.injEq] at hshort
    obtain ⟨grown, hgrown, hgoesOn⟩ := hgoesOn hshort.1
    have hlong : ((threeAtMost.chain .real).build completedCode 0 false .baseline).map
        Block.instructionCount = .ok 3 := by decide +kernel
    rw [hgrown, Except.map, Except.ok.injEq] at hlong
    exact ⟨block, grown, hblock, hgrown, hgoesOn, hshort.2, hlong⟩
  · obtain ⟨stub, hstub, -, hexchanged⟩ :=
      threeAtMost.build_of_extends .real false .baseline 1 hextends hsize
    have hspanning : ((threeAtMost.chain .real).build cutCode 1 false .baseline).map
        Block.isSpanning = .ok true := by decide +kernel
    rw [hstub, Except.map, Except.ok.injEq] at hspanning
    obtain ⟨replacement, hreplacement, -, hexecute⟩ := hexchanged hspanning
    have hcompiled : ((threeAtMost.chain .real).build completedCode 1 false .baseline).map
        Block.isSpanning = .ok false := by decide +kernel
    rw [hreplacement, Except.map, Except.ok.injEq] at hcompiled
    have hreplaced := hexecute Block.callCounter 0
    rw [hcompiled, if_neg Bool.false_ne_true] at hreplaced
    exact ⟨stub, replacement, hstub, hreplacement, hreplaced⟩

end Manager

end GuestMachine

import GuestMachine.Proofs.Block.Freshness
import GuestMachine.Proofs.Instruction.WholeStream

/-!
# Block boundaries

Blocks that are taken one after another, each at the end of the one before, take up the stream of
instructions: none is lost and none comes twice, wherever the limit cuts. A block leaves instructions
that hold off interrupts to the next one, so that only one in front of a cut is left over, for the
stub. The number of factories, their tiers and their limits do not show, as long as each limit leaves
room for a second instruction.
-/

namespace GuestMachine

open Instruction

/-! ## What blocks take up of a stream -/

namespace Instruction

/-- What blocks take up of the stream from an offset, and where a stub stands if the region cuts the
stream off: at the instruction that is cut off, or at the one before if that holds off interrupts. -/
inductive Stream.IsTaken (stream : Stream) (offset : Nat) : List Instruction → Option Nat → Prop
  | ended : stream.isCut = false → stream.IsTaken offset stream.instructions none
  | cut : stream.isCut = true →
      (∀ last ∈ stream.instructions.getLast?, last.flow.isShadow = false) →
      stream.IsTaken offset stream.instructions (some (stopOf offset stream.instructions))
  | heldOff {earlier : List Instruction} {shadow : Instruction} : stream.isCut = true →
      stream.instructions = earlier ++ [shadow] → shadow.flow.isShadow = true →
      stream.IsTaken offset earlier (some shadow.offset)

variable {stream : Stream} {offset : Nat} {taken other : List Instruction} {stub last : Option Nat}

theorem Stream.IsTaken.unique (htaken : stream.IsTaken offset taken stub)
    (hother : stream.IsTaken offset other last) : taken = other ∧ stub = last := by
  cases htaken with
  | ended hended =>
    cases hother with
    | ended => exact ⟨rfl, rfl⟩
    | cut hcut => exact absurd (hended.symm.trans hcut) Bool.false_ne_true
    | heldOff hcut => exact absurd (hended.symm.trans hcut) Bool.false_ne_true
  | cut hcut hlast =>
    cases hother with
    | ended hended => exact absurd (hended.symm.trans hcut) Bool.false_ne_true
    | cut => exact ⟨rfl, rfl⟩
    | heldOff _ hsplit hshadow =>
      rw [hsplit, List.getLast?_concat] at hlast
      exact absurd ((hlast _ rfl).symm.trans hshadow) Bool.false_ne_true
  | heldOff hcut hsplit hshadow =>
    cases hother with
    | ended hended => exact absurd (hended.symm.trans hcut) Bool.false_ne_true
    | cut _ hlast =>
      rw [hsplit, List.getLast?_concat] at hlast
      exact absurd ((hlast _ rfl).symm.trans hshadow) Bool.false_ne_true
    | heldOff _ hsplit' =>
      obtain ⟨rfl, hsame⟩ := List.append_inj' (hsplit.symm.trans hsplit') rfl
      cases hsame
      exact ⟨rfl, rfl⟩

/-- What is taken up of the rest of a stream is taken up of the whole, behind the instructions of a
block: the last of these is followed by another if it holds off interrupts. -/
theorem Stream.IsTaken.behind {block : List Instruction}
    (htaken : stream.IsTaken (stopOf offset block) taken stub)
    (hfollowed : stream.instructions = [] → ∀ last ∈ block.getLast?, last.flow.isShadow = false) :
    (stream.behind block).IsTaken offset (block ++ taken) stub := by
  cases htaken with
  | ended hended => exact .ended hended
  | cut hcut hlast =>
    rw [← stopOf_append]
    refine .cut hcut fun last hmem ↦ ?_
    change last ∈ (block ++ stream.instructions).getLast? at hmem
    by_cases hnil : stream.instructions = []
    · rw [hnil, List.append_nil] at hmem
      exact hfollowed hnil last hmem
    · rw [List.getLast?_append_of_ne_nil _ hnil] at hmem
      exact hlast last hmem
  | heldOff hcut hsplit hshadow =>
    refine .heldOff hcut ?_ hshadow
    rw [Stream.behind, hsplit, List.append_assoc]

end Instruction

/-! ## Blocks one after another -/

/-- The block was decoded to these instructions, by a factory of its chain. -/
def Block.Holds (block : Block) (memory : Memory) (instructions : List Instruction) : Prop :=
  ∃ factory ∈ block.chain.factories,
    (∃ final, decodeBlock block.mode (block.mode.defaultSize32 block.size32) factory.limit
      (Cursor.start memory block.start) = .ok instructions final) ∧
    block.body = .compiled (.ofInstructions factory.tier memory block.start instructions)

namespace Chain

/-- The blocks from an offset on, each at the end of the one before, told by the instructions that
they hold. The last of them ends with a terminator, or a stub follows. -/
inductive Passes (chain : Chain) (memory : Memory) (size32 : Bool) (requested : Tier) :
    Nat → List (List Instruction) → Option Nat → Prop
  | stub {offset start : Nat} {block : Block}
      (hbuild : chain.build memory offset size32 requested = .ok block)
      (hbody : block.body = .spanning start) :
      Passes chain memory size32 requested offset [] (some start)
  | last {offset : Nat} {block : Block} {instructions : List Instruction}
      (hbuild : chain.build memory offset size32 requested = .ok block)
      (hholds : block.Holds memory instructions) (hends : endsBlock instructions = true) :
      Passes chain memory size32 requested offset [instructions] none
  | next {offset : Nat} {block : Block} {instructions : List Instruction}
      {later : List (List Instruction)} {stub : Option Nat}
      (hbuild : chain.build memory offset size32 requested = .ok block)
      (hholds : block.Holds memory instructions) (hends : endsBlock instructions = false)
      (hlater : Passes chain memory size32 requested block.stop later stub) :
      Passes chain memory size32 requested offset (instructions :: later) stub

variable {chain : Chain} {memory : Memory} {offset : Nat} {size32 : Bool} {requested : Tier}
  {block : Block} {instructions : List Instruction}

/-- A chain that has a factory for the request builds a stub where no block starts, and otherwise a
block that holds the instructions there. -/
theorem build_of_answers (hanswers : ∃ factory ∈ chain.factories,
      factory.tier.isWithin requested = true) :
    ∃ block, chain.build memory offset size32 requested = .ok block ∧
      (block.body = .spanning offset ∨ ∃ instructions, block.Holds memory instructions) := by
  obtain ⟨answering, hmem, hwithin⟩ := hanswers
  cases hfind : chain.factories.find? (·.tier.isWithin requested) with
  | none => exact absurd hwithin (List.find?_eq_none.mp hfind answering hmem)
  | some factory =>
    have hbuild : chain.build memory offset size32 requested =
        .ok ⟨chain, size32, bodyOf factory chain.mode size32 memory offset⟩ := by
      rw [build_eq, hfind]
    refine ⟨_, hbuild, ?_⟩
    rw [bodyOf]
    cases hblock : factory.block? chain.mode size32 memory offset with
    | none => exact .inl rfl
    | some instructions =>
      have hdecode := decodeBlock_of_block? hblock
      exact .inr ⟨instructions, factory, List.mem_of_find?_eq_some hfind, hdecode, rfl⟩

section

variable (hlimits : ∀ factory ∈ chain.factories, 2 ≤ factory.limit)

include hlimits

theorem isBlock_of_holds (hbuild : chain.build memory offset size32 requested = .ok block)
    (hholds : block.Holds memory instructions) :
    IsBlock chain.mode (chain.mode.defaultSize32 size32) memory offset instructions ∧
      block.stop = stopOf offset instructions := by
  obtain ⟨rfl, rfl, rfl⟩ := frame_of_build hbuild
  obtain ⟨factory, hmem, ⟨final, hdecode⟩, hbody⟩ := hholds
  have hlimit := hlimits factory hmem
  have hread := decodeBlock_eq block.mode (block.mode.defaultSize32 block.size32) factory.limit
    (Cursor.start memory block.start)
  rw [hdecode, Nat.max_eq_left (Nat.le_of_succ_le hlimit)] at hread
  split at hread
  · next found hblock =>
    obtain ⟨_, hsame⟩ := hread
    cases hsame
    have hisBlock := isBlock_of_block? hlimit hblock
    refine ⟨hisBlock, ?_⟩
    have hstop := CompiledBlock.stop_ofInstructions factory.tier hisBlock.straight
    rw [Block.stop, Block.byteLength, hbody]
    exact hstop
  · cases hread

theorem isCutOff_of_spanning (hbuild : chain.build memory offset size32 requested = .ok block)
    {start : Nat} (hbody : block.body = .spanning start) :
    start = offset ∧ IsCutOff chain.mode (chain.mode.defaultSize32 size32) memory offset := by
  rw [build_eq] at hbuild
  split at hbuild
  · next factory hfind =>
    cases hbuild
    have hlimit := hlimits factory (List.mem_of_find?_eq_some hfind)
    rw [bodyOf] at hbody
    cases hblock : factory.block? chain.mode size32 memory offset with
    | some instructions =>
      rw [hblock] at hbody
      cases hbody
    | none =>
      rw [hblock] at hbody
      cases hbody
      rw [Factory.block?, Nat.max_eq_left (Nat.le_of_succ_le hlimit)] at hblock
      exact ⟨rfl, isCutOff_of_block? hlimit hblock⟩
  · cases hbuild

/-- However the blocks are cut, they take up the stream. -/
theorem Passes.isTaken {groups : List (List Instruction)} {stub : Option Nat}
    (hpasses : chain.Passes memory size32 requested offset groups stub) :
    (wholeStream chain.mode (chain.mode.defaultSize32 size32) memory offset).IsTaken offset
      groups.flatten stub := by
  induction hpasses with
  | stub hbuild hbody =>
    obtain ⟨rfl, hcut⟩ := isCutOff_of_spanning hlimits hbuild hbody
    obtain hnil | ⟨shadow, hshadow, hoffset, honly⟩ := wholeStream_of_isCutOff hcut
    · rw [hnil]
      exact .cut rfl fun last hmem ↦ nomatch hmem
    · rw [honly, ← hoffset]
      exact .heldOff rfl rfl hshadow
  | last hbuild hholds hends =>
    obtain ⟨hisBlock, -⟩ := isBlock_of_holds hlimits hbuild hholds
    rw [hisBlock.straight.wholeStream_of_endsBlock hends, List.flatten_singleton]
    exact .ended rfl
  | @next offset block instructions later stub hbuild hholds hends _ ih =>
    obtain ⟨hisBlock, hstop⟩ := isBlock_of_holds hlimits hbuild hholds
    rw [hstop] at ih
    rw [hisBlock.straight.wholeStream_of_not_endsBlock hends, List.flatten_cons]
    refine ih.behind fun hnil last hmem ↦ ?_
    -- Were the last to hold off interrupts, then the rest of the stream would begin with a successor.
    by_contra hshadow
    have hwhole := hisBlock.followed last (List.mem_of_getLast? hmem)
      ((Bool.not_eq_false _).mp hshadow)
    have hlast : stopOf offset instructions = last.next := by
      rw [stopOf, Option.mem_def.mp hmem]
      rfl
    rw [hlast] at hnil
    exact wholeStream_ne_nil hwhole hnil

/-- Every block takes up bytes of the region, so that there is a last one. -/
theorem exists_passes (memory : Memory) (size32 : Bool)
    (hanswers : ∃ factory ∈ chain.factories, factory.tier.isWithin requested = true)
    (offset : Nat) :
    ∃ groups stub, chain.Passes memory size32 requested offset groups stub := by
  induction hleft : memory.size - offset using Nat.strong_induction_on generalizing offset with
  | _ left ih =>
    obtain ⟨block, hbuild, hbody | ⟨instructions, hholds⟩⟩ := build_of_answers hanswers
    · exact ⟨[], some offset, .stub hbuild hbody⟩
    · cases hends : endsBlock instructions with
      | true => exact ⟨[instructions], none, .last hbuild hholds hends⟩
      | false =>
        obtain ⟨hisBlock, hstop⟩ := isBlock_of_holds hlimits hbuild hholds
        have hsmaller : memory.size - block.stop < left := by
          rw [hstop, ← hleft]
          exact hisBlock.straight.left_stopOf_lt hisBlock.ne_nil
        obtain ⟨later, stub, hlater⟩ := ih _ hsmaller block.stop rfl
        exact ⟨instructions :: later, stub, .next hbuild hholds hends hlater⟩

end

/-- Blocks that are taken one after another come to an end, and take up the stream of instructions
from where they start. Only an instruction that holds off interrupts and stands before a cut is left
out, and there the stub starts. Chains with other factories, tiers or limits take up the same. -/
theorem passes_take_wholeStream (chain : Chain) (memory : Memory) (offset : Nat) (size32 : Bool)
    {requested : Tier} (hlimits : ∀ factory ∈ chain.factories, 2 ≤ factory.limit)
    (hanswers : ∃ factory ∈ chain.factories, factory.tier.isWithin requested = true) :
    (∃ groups stub, chain.Passes memory size32 requested offset groups stub) ∧
      ∀ groups stub, chain.Passes memory size32 requested offset groups stub →
        (wholeStream chain.mode (chain.mode.defaultSize32 size32) memory offset).IsTaken offset
            groups.flatten stub ∧
          ∀ (other : Chain) (tier : Tier) groups' stub', other.mode = chain.mode →
            (∀ factory ∈ other.factories, 2 ≤ factory.limit) →
            other.Passes memory size32 tier offset groups' stub' →
            groups'.flatten = groups.flatten ∧ stub' = stub := by
  refine ⟨exists_passes hlimits memory size32 hanswers offset, fun groups stub hpasses ↦ ?_⟩
  have htaken := hpasses.isTaken hlimits
  refine ⟨htaken, fun other tier groups' stub' hmode hothers hpasses' ↦ ?_⟩
  have htaken' := hpasses'.isTaken hothers
  rw [hmode] at htaken'
  exact htaken'.unique htaken

/-- A NOP and two instructions that hold off interrupts, of which the region cuts off the successor. -/
def heldOffCode : Memory := .rom #[0x90, 0x17, 0x17]

def popStackSegment (offset : Nat) : Instruction :=
  { nop false offset with opcode := 0x17, flow := .interruptShadow }

def shortBlocks : Chain := .ofFactories .real [⟨.baseline, 2⟩] none

theorem passes_take_wholeStream_heldOff :
    (∀ factory ∈ shortBlocks.factories, 2 ≤ factory.limit) ∧
      (∃ factory ∈ shortBlocks.factories, factory.tier.isWithin .baseline = true) ∧
      ∃ groups, shortBlocks.Passes heldOffCode false .baseline 0 groups (some 2) ∧
        groups.flatten = [nop false 0, popStackSegment 1] := by
  have hlimits : ∀ factory ∈ shortBlocks.factories, 2 ≤ factory.limit := by decide
  have hanswers : ∃ factory ∈ shortBlocks.factories, factory.tier.isWithin .baseline = true := by
    decide
  obtain ⟨⟨groups, stub, hpasses⟩, htakes⟩ :=
    passes_take_wholeStream shortBlocks heldOffCode 0 false hlimits hanswers
  have hstream : wholeStream .real false heldOffCode 0 =
      ⟨[nop false 0, popStackSegment 1] ++ [popStackSegment 2], true⟩ := by cbv
  have htaken : (wholeStream .real false heldOffCode 0).IsTaken 0
      [nop false 0, popStackSegment 1] (some 2) := by
    have hshadow : (popStackSegment 2).flow.isShadow = true := rfl
    rw [hstream]
    exact .heldOff rfl rfl hshadow
  obtain ⟨hflatten, rfl⟩ := (htakes groups stub hpasses).1.unique htaken
  exact ⟨hlimits, hanswers, groups, hpasses, hflatten⟩

end Chain

end GuestMachine

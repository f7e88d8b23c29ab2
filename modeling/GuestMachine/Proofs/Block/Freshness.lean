import GuestMachine.Proofs.Block.Building
import GuestMachine.Proofs.Block.Fusion
import GuestMachine.Proofs.Memory.Stores

/-!
# Fresh and stale code

The operations of a block match a region if decoding at their offsets gives what they were compiled
from. A block matches the region that it was built from, and goes on to match it for as long as no
byte is stored to one of its pages. Its version tells, so that stale code is rebuilt and never run.
-/

namespace GuestMachine

open Instruction

/-! ## Operations that match a region -/

namespace Instruction

variable {mode : Mode} {size32 : Bool} {memory : Memory} {offset : Nat}
  {instructions : List Instruction}

theorem IsStraight.of_suffix {earlier : List Instruction}
    (hstraight : IsStraight mode size32 memory offset (earlier ++ instructions)) :
    ∃ start, IsStraight mode size32 memory start instructions := by
  induction earlier generalizing offset with
  | nil => exact ⟨offset, hstraight⟩
  | cons instruction rest ih => exact ih hstraight.2.2

/-- Each of the instructions is found at its offset. -/
theorem IsStraight.ofMemory?_of_mem (hstraight : IsStraight mode size32 memory offset instructions)
    {instruction : Instruction} (hmem : instruction ∈ instructions) :
    ofMemory? mode size32 memory instruction.offset = some instruction := by
  obtain ⟨earlier, later, rfl⟩ := List.append_of_mem hmem
  obtain ⟨start, hat, -⟩ := hstraight.of_suffix
  rw [(ofMemory?_eq_some hat).1]
  exact hat

theorem IsStraight.le_next_getLast (hstraight : IsStraight mode size32 memory offset instructions) :
    offset ≤ instructions.getLast?.elim offset next := by
  induction instructions generalizing offset with
  | nil => exact le_rfl
  | cons instruction rest ih =>
    obtain ⟨hat, -, hrest⟩ := hstraight
    have hnext : offset ≤ instruction.next := by
      rw [next, (ofMemory?_eq_some hat).1]
      exact Nat.le_add_right _ _
    rw [List.getLast?_cons]
    calc
      offset ≤ instruction.next := hnext
      _ ≤ rest.getLast?.elim instruction.next next := ih hrest
      _ = _ := by cases rest.getLast? <;> rfl

/-- A region that is no smaller and holds the same bytes from the first instruction to the last has
the same instructions. -/
theorem IsStraight.of_agrees {other : Memory}
    (hstraight : IsStraight mode size32 memory offset instructions)
    (hsize : memory.size ≤ other.size)
    (hagrees : memory.Agrees other offset (instructions.getLast?.elim offset next)) :
    IsStraight mode size32 other offset instructions := by
  induction instructions generalizing offset with
  | nil => trivial
  | cons instruction rest ih =>
    obtain ⟨hat, hend, hrest⟩ := hstraight
    obtain ⟨hoffset, -, hwithin⟩ := ofMemory?_eq_some hat
    have hlast : (instruction :: rest).getLast?.elim offset next =
        rest.getLast?.elim instruction.next next := by
      rw [List.getLast?_cons]
      cases rest.getLast? <;> rfl
    have hnext : offset ≤ instruction.next := by
      rw [next, hoffset]
      exact Nat.le_add_right _ _
    rw [hlast] at hagrees
    refine ⟨?_, hend, ih hrest (hagrees.narrow hnext le_rfl)⟩
    exact ofMemory?_of_agrees hat (hwithin.trans hsize) (hagrees.narrow le_rfl hrest.le_next_getLast)

end Instruction

namespace Op

variable {mode : Mode} {size32 : Bool} {memory : Memory}

/-- Decoding at the offset of an operation gives what the operation was compiled from: the very
instruction, an instruction of the same length with the same fault, or the byte 90 all along. -/
def Matches (mode : Mode) (size32 : Bool) (memory : Memory) : Op → Prop
  | execute instruction => ofMemory? mode size32 memory instruction.offset = some instruction
  | nopRun offset length count => length = count ∧ ∀ index < count,
      ofMemory? mode size32 memory (offset + index) = some (nop size32 (offset + index)) ∧
        memory.getByte (UInt32.ofNat (offset + index)) = 0x90
  | raise offset length fault => ∃ instruction, ofMemory? mode size32 memory offset =
      some instruction ∧ instruction.length = length ∧ instruction.flow = .invalid fault

theorem Covers.matches {op : Op} {group : List Instruction} (hcovers : op.Covers group)
    {offset : Nat} (hstraight : IsStraight mode size32 memory offset group) :
    op.Matches mode size32 memory := by
  cases hcovers with
  | single instruction =>
    have hat := hstraight.ofMemory?_of_mem (List.mem_singleton_self instruction)
    unfold ofInstruction
    split
    · next fault hflow => exact ⟨instruction, hat, rfl, hflow⟩
    · exact hat
  | @run first second others length count hnops hlength hcount =>
    have hgroup := (IsStraight.eq_nops (by rwa [List.append_nil]) hnops).1
    obtain ⟨hfirst, -, -⟩ := ofMemory?_eq_some hstraight.1
    rw [← hcount] at hgroup
    refine ⟨by rw [hlength, hgroup, sum_length_nops], ?_⟩
    intro index hindex
    have hmem : nop size32 (offset + index) ∈ first :: second :: others := by
      rw [hgroup]
      exact List.mem_map.mpr ⟨offset + index, List.mem_range'_1.mpr (by omega), rfl⟩
    have hat : ofMemory? mode size32 memory (offset + index) = some (nop size32 (offset + index)) :=
      hstraight.ofMemory?_of_mem hmem
    rw [hfirst]
    exact ⟨hat, (ofMemory?_isNop hat (hnops _ hmem)).2⟩

theorem matches_of_covers {ops : List Op} {groups : List (List Instruction)}
    (hcovers : List.Forall₂ Covers ops groups) {offset : Nat}
    (hstraight : IsStraight mode size32 memory offset groups.flatten) :
    ∀ op ∈ ops, op.Matches mode size32 memory := by
  induction hcovers generalizing offset with
  | nil => simp
  | @cons op group ops groups hop hrest ih =>
    rw [List.flatten_cons] at hstraight
    obtain ⟨start, hlater⟩ := hstraight.of_suffix
    intro other hother
    rcases List.mem_cons.mp hother with rfl | hother
    · exact hop.matches hstraight.of_prefix
    · exact ih hlater other hother

end Op

/-- At both tiers the operations match every region in which the instructions stand. -/
theorem Tier.compile_matches (tier : Tier) {mode : Mode} {size32 : Bool} {memory : Memory}
    {offset : Nat} {instructions : List Instruction}
    (hstraight : IsStraight mode size32 memory offset instructions) :
    ∀ op ∈ tier.compile instructions, op.Matches mode size32 memory := by
  obtain ⟨groups, hcovers, rfl⟩ := tier.compile_covers instructions
  exact Op.matches_of_covers hcovers hstraight

/-! ## Blocks as they are built -/

namespace Chain

variable {chain : Chain} {memory : Memory} {offset : Nat} {size32 : Bool} {requested : Tier}
  {block : Block}

/-- A compiled block holds the instructions that stand at its start. -/
theorem exists_isStraight_of_build (hbuild : chain.build memory offset size32 requested = .ok block)
    {code : CompiledBlock} (hbody : block.body = .compiled code) :
    block.chain = chain ∧ block.size32 = size32 ∧ ∃ tier instructions, instructions ≠ [] ∧
      IsStraight chain.mode (chain.mode.defaultSize32 size32) memory offset instructions ∧
      code = .ofInstructions tier memory offset instructions := by
  rw [build_eq] at hbuild
  split at hbuild
  · next factory hfactory =>
    cases hbuild
    refine ⟨rfl, rfl, ?_⟩
    simp only [bodyOf] at hbody
    split at hbody
    · next instructions hblock =>
      cases hbody
      obtain ⟨hne, hstraight⟩ := isStraight_of_block? hblock
      exact ⟨factory.tier, instructions, hne, hstraight, rfl⟩
    · cases hbody
  · cases hbuild

/-- Only a chain without a baseline factory does not answer a request for a baseline block. -/
theorem build_baseline (chain : Chain) (memory : Memory) (offset : Nat) (size32 : Bool) :
    (∃ block, chain.build memory offset size32 .baseline = .ok block) ∨
      (∀ factory ∈ chain.factories, factory.tier ≠ .baseline) ∧
        chain.build memory offset size32 .baseline =
          .error (.internal (.noBlockProduced chain.mode)) := by
  rw [build_eq]
  cases hfind : chain.factories.find? (·.tier.isWithin .baseline) with
  | some factory => exact Or.inl ⟨_, rfl⟩
  | none =>
    refine Or.inr ⟨?_, rfl⟩
    intro factory hfactory hbaseline
    have hnot := List.find?_eq_none.mp hfind factory hfactory
    rw [hbaseline] at hnot
    exact hnot rfl

end Chain

namespace CompiledBlock

variable {mode : Mode} {size32 : Bool} {memory : Memory} {offset : Nat}
  {instructions : List Instruction}

theorem stop_ofInstructions (tier : Tier)
    (hstraight : IsStraight mode size32 memory offset instructions) :
    offset + (ofInstructions tier memory offset instructions).length =
      instructions.getLast?.elim offset next :=
  Nat.add_sub_cancel' hstraight.le_next_getLast

/-- The code of a block lies within the region. -/
theorem stop_le_size (tier : Tier)
    (hstraight : IsStraight mode size32 memory offset instructions) (hne : instructions ≠ []) :
    offset < memory.size ∧
      offset + (ofInstructions tier memory offset instructions).length ≤ memory.size := by
  rw [stop_ofInstructions tier hstraight]
  exact hstraight.within_size hne

end CompiledBlock

/-! ## Stores to the code -/

/-- A store wrote a byte of the region `id`, of the given size, on a page of the code. -/
def CompiledBlock.IsTouchedBy (code : CompiledBlock) (id : SpaceId) (size : Nat)
    (stores : List Store) : Prop :=
  ∃ store ∈ stores, ∃ byte ∈ store.written id size, ∃ position,
    code.start ≤ position ∧ position < code.start + code.length ∧ pageOf position = pageOf byte

section

variable {chain : Chain} {ram after : Ram} {offset : Nat} {size32 : Bool} {requested : Tier}
  {block : Block} {code : CompiledBlock} {id : SpaceId} {stores : List Store}

/-- The version of a block differs exactly if one of its pages was stored to. -/
theorem CompiledBlock.isModified_iff_isTouchedBy (hsize : ram.size ≤ 2 ^ 32)
    (hbuild : chain.build (.ram ram) offset size32 requested = .ok block)
    (hbody : block.body = .compiled code)
    (hstores : ram.Stores after (stores.flatMap (·.written id ram.size))
      (stores.flatMap (·.raised id ram.size)))
    (hraised : (stores.flatMap (·.raised id ram.size)).length < 2 ^ 64) :
    code.isModified (.ram after) = true ↔ code.IsTouchedBy id ram.size stores := by
  obtain ⟨-, -, tier, instructions, hne, hstraight, rfl⟩ :=
    Chain.exists_isStraight_of_build hbuild hbody
  have hstart : offset < 2 ^ 32 := Nat.lt_of_lt_of_le (stop_le_size tier hstraight hne).1 hsize
  have haddress : (UInt32.ofNat offset).toNat = offset := UInt32.toNat_ofNat_of_lt' hstart
  rw [isModified, bne_iff_ne]
  calc
    _ ↔ ∃ byte ∈ stores.flatMap (·.written id ram.size), pageOf byte ∈
        Ram.pagesOf (UInt32.ofNat offset).toNat
          (ofInstructions tier (.ram ram) offset instructions).length :=
      hstores.codeVersion_ne_iff hraised _ _
    _ ↔ _ := by
      simp only [haddress, Ram.mem_pagesOf_iff_exists, List.mem_range'_1, List.mem_flatMap,
        IsTouchedBy]
      constructor
      · rintro ⟨byte, ⟨store, hstore, hbyte⟩, position, hposition, hpage⟩
        exact ⟨store, hstore, byte, hbyte, position, hposition.1, hposition.2, hpage⟩
      · rintro ⟨store, hstore, byte, hbyte, position, hfirst, hlast, hpage⟩
        exact ⟨byte, ⟨store, hstore, hbyte⟩, position, ⟨hfirst, hlast⟩, hpage⟩

/-- Code whose pages were not stored to matches the region as it now is. -/
theorem CompiledBlock.matches_of_not_isTouchedBy (hsize : ram.size ≤ 2 ^ 32)
    (hbuild : chain.build (.ram ram) offset size32 requested = .ok block)
    (hbody : block.body = .compiled code)
    (hstores : ram.Stores after (stores.flatMap (·.written id ram.size))
      (stores.flatMap (·.raised id ram.size)))
    (huntouched : ¬ code.IsTouchedBy id ram.size stores) :
    ∀ op ∈ code.ops, op.Matches chain.mode (chain.mode.defaultSize32 size32) (.ram after) := by
  obtain ⟨-, -, tier, instructions, hne, hstraight, rfl⟩ :=
    Chain.exists_isStraight_of_build hbuild hbody
  have hstop : offset + (ofInstructions tier (.ram ram) offset instructions).length ≤ ram.size :=
    (stop_le_size tier hstraight hne).2
  have hsame : (Memory.ram after).size = (Memory.ram ram).size := hstores.size_eq
  apply Tier.compile_matches tier (hstraight.of_agrees hsame.ge _)
  rw [← stop_ofInstructions tier hstraight]
  intro position hfirst hlast
  have hposition : (UInt32.ofNat position).toNat = position :=
    UInt32.toNat_ofNat_of_lt' (Nat.lt_of_lt_of_le hlast (hstop.trans hsize))
  have hkept : position ∉ stores.flatMap (·.written id ram.size) := by
    intro hwritten
    obtain ⟨store, hstore, hbyte⟩ := List.mem_flatMap.mp hwritten
    exact huntouched ⟨store, hstore, position, hbyte, position, hfirst, hlast, rfl⟩
  simp only [Memory.getByte, Memory.bytes, hposition, Array.getD_eq_getD_getElem?,
    hstores.kept position hkept]

end

/-! ## Execution -/

namespace Block

variable {code : CompiledBlock} {memory : Memory}

theorem execute_of_isModified {σ : Type} (block : Block) (hbody : block.body = .compiled code)
    (hmodified : code.isModified memory = true) (executor : Executor σ) (state : σ) :
    block.execute memory executor state = ⟨block.rebuild memory .baseline, block, state⟩ := by
  rw [execute, hbody]
  exact if_pos hmodified

/-- Stale code is not run. Unless every operation of a block matches the region as it now is, the
block is replaced; or else the chain has no baseline factory to rebuild it with, and says so. A block
counts as modified exactly if one of its pages was stored to. -/
theorem execute_fresh (chain : Chain) {ram : Ram} (hsize : ram.size ≤ 2 ^ 32) {offset : Nat}
    {size32 : Bool} {requested : Tier} {block : Block}
    (hbuild : chain.build (.ram ram) offset size32 requested = .ok block)
    (hbody : block.body = .compiled code) (executions : UInt32) {spaces : Spaces} {id : SpaceId}
    (hget : spaces.get id = .ok (.ram ram)) (stores : List Store)
    (hraised : (stores.flatMap (·.raised id ram.size)).length < 2 ^ 64) :
    ∃ memory, (stores.foldl (Store.perform id) spaces).get id = .ok memory ∧
      let current : Block := { block with body := .compiled { code with executions } }
      (∀ (σ : Type) (executor : Executor σ) (state : σ),
        (∀ other, (current.execute memory executor state).result ≠ .ok (.replaced other)) →
          (∀ op ∈ code.ops, op.Matches chain.mode (chain.mode.defaultSize32 size32) memory) ∨
          (∀ factory ∈ chain.factories, factory.tier ≠ .baseline) ∧
            current.execute memory executor state =
              ⟨.error (.internal (.noBlockProduced chain.mode)), current, state⟩) ∧
      (code.isModified memory = true ↔ code.IsTouchedBy id ram.size stores) := by
  obtain ⟨after, hafter, hstores⟩ := Store.foldl_perform_stores hget stores
  have hmodified := CompiledBlock.isModified_iff_isTouchedBy hsize hbuild hbody hstores hraised
  refine ⟨.ram after, hafter, ?_, hmodified⟩
  intro σ executor state hresult
  by_cases htouched : code.IsTouchedBy id ram.size stores
  · obtain ⟨hchain, -, -⟩ := Chain.exists_isStraight_of_build hbuild hbody
    have hexecute := execute_of_isModified
      { block with body := .compiled { code with executions } } rfl (hmodified.mpr htouched)
      executor state
    rw [hexecute] at hresult ⊢
    rcases chain.build_baseline (.ram after) code.start block.size32 with
      ⟨rebuilt, hrebuilt⟩ | ⟨hnone, hrebuilt⟩
    · refine absurd ?_ (hresult rebuilt)
      simp only [rebuild, hchain, start, hrebuilt]
      rfl
    · refine Or.inr ⟨hnone, ?_⟩
      simp only [rebuild, hchain, start, hrebuilt]
      rfl
  · exact Or.inl (CompiledBlock.matches_of_not_isTouchedBy hsize hbuild hbody hstores htouched)

/-- Two one-byte instructions and a return. -/
def shortCode (first second : UInt8) : Ram := .ofBytes #[first, second, 0xC3]

def shortReturn : Instruction := { nop false 2 with opcode := 0xC3, flow := .ret }

def nopsAndReturn : CompiledBlock :=
  ⟨0, 3, 3, .optimised, [.nopRun 0 2 2, .execute shortReturn], 0, 0⟩

def bothTiers : Chain := .ofFactories .real [⟨.optimised, 100⟩, ⟨.baseline, 100⟩] (some 4)

theorem execute_fresh_nops :
    bothTiers.build (.ram (shortCode 0x90 0x90)) 0 false .optimised =
      .ok ⟨bothTiers, false, .compiled nopsAndReturn⟩ ∧
    ∃ memory, ([Store.direct 1 (.byte 0x40)].foldl (Store.perform 0)
        ⟨#[.ram (shortCode 0x90 0x90)]⟩).get 0 = .ok memory ∧
      nopsAndReturn.isModified memory = true := by
  have hbuild : bothTiers.build (.ram (shortCode 0x90 0x90)) 0 false .optimised =
      .ok ⟨bothTiers, false, .compiled nopsAndReturn⟩ := by decide +kernel
  have hget : Spaces.get ⟨#[.ram (shortCode 0x90 0x90)]⟩ 0 = .ok (.ram (shortCode 0x90 0x90)) := rfl
  obtain ⟨memory, hmemory, -, hmodified⟩ :=
    execute_fresh bothTiers (by decide) hbuild rfl 0 hget [.direct 1 (.byte 0x40)] (by decide)
  refine ⟨hbuild, memory, hmemory, hmodified.mpr ?_⟩
  exact ⟨_, List.mem_singleton_self _, 1, by decide, 1, by decide, by decide, rfl⟩

def optimisedOnly : Chain := .ofFactories .real [⟨.optimised, 10⟩] none

/-- Without a baseline factory stale code is not replaced: the chain cannot rebuild it. -/
theorem execute_stale_not_replaced :
    let block : Block := ⟨optimisedOnly, false, .compiled
      ⟨0, 3, 3, .optimised, [.nopRun 0 2 2, .execute shortReturn], 0, 0⟩⟩
    let after : Memory := .ram ((shortCode 0x90 0x90).setByte 0 0x48)
    optimisedOnly.build (.ram (shortCode 0x90 0x90)) 0 false .optimised = .ok block ∧
    ([Store.direct 0 (.byte 0x48)].foldl (Store.perform 0)
        ⟨#[.ram (shortCode 0x90 0x90)]⟩).get 0 = .ok after ∧
    (∀ (σ : Type) (executor : Executor σ) (state : σ) (other : Block),
      (block.execute after executor state).result ≠ .ok (.replaced other)) ∧
    ¬ (∀ op ∈ block.ops, op.Matches .real false after) := by
  intro block after
  have hmodified : nopsAndReturn.isModified after = true := rfl
  refine ⟨by decide +kernel, rfl, ?_, ?_⟩
  · intro σ executor state other
    have hrebuild : block.rebuild after .baseline =
        .error (.internal (.noBlockProduced .real)) := rfl
    rw [execute_of_isModified block rfl hmodified, hrebuild]
    exact fun hsame ↦ by cases hsame
  · intro hmatches
    have hrun := hmatches (.nopRun 0 2 2) List.mem_cons_self
    have hbyte := (hrun.2 0 (by decide)).2
    exact absurd hbyte (by decide)

end Block

end GuestMachine

import GuestMachine.Proofs.Machine.Course
import GuestMachine.Proofs.Machine.Promotion

/-!
# The blocks that a machine keeps

A machine keeps the blocks that it has built, and they differ from the blocks as they would be built
afresh in their tier and their execution counter only. Both follow from the number of times that
the block was dispatched.
-/

namespace GuestMachine

/-- The counter of a block that has been executed so many times. -/
def CompiledBlock.counter (executions : Nat) : UInt32 :=
  UInt32.ofNat (min executions (UInt32.size - 1))

namespace Machine

/-- What the runs of the machine depend on, as far as their course is concerned. -/
def guest (machine : Machine) : Guest where
  memory := machine.memory
  mode := machine.mode
  code32 := machine.code32
  blockLimit := machine.manager.blockLimit
  period := machine.period

/-- A block of the machine at a tier that has been executed so many times there. -/
def builtBlock (machine : Machine) (tier : Tier) (executions offset : Nat) : Block where
  chain := machine.manager.chain machine.mode
  size32 := machine.guest.size32
  body :=
    match machine.guest.block? offset with
    | some instructions =>
      .compiled { CompiledBlock.ofInstructions tier machine.memory offset instructions with
        executions := CompiledBlock.counter executions }
    | none => .spanning offset

/-- The block at an offset once it was dispatched `count` times. -/
def blockAfter (machine : Machine) (count offset : Nat) : Block :=
  machine.builtBlock (Promotion.tierAfter machine.manager.hotThreshold count)
    (Promotion.executionsAfter machine.manager.hotThreshold count) offset

end Machine

/-! ## Counters -/

namespace CompiledBlock

theorem toNat_counter (executions : Nat) :
    (counter executions).toNat = min executions (UInt32.size - 1) := by
  have hlt : min executions (UInt32.size - 1) < UInt32.size :=
    Nat.lt_of_le_of_lt (Nat.min_le_right _ _) (Nat.sub_one_lt (by decide))
  exact (UInt32.toNat_ofNat').trans (Nat.mod_eq_of_lt hlt)

theorem countExecution_counter (code : CompiledBlock) (executions : Nat) :
    countExecution { code with executions := counter executions } =
      { code with executions := counter (executions + 1) } := by
  have hsize : UInt32.size = 2 ^ 32 := rfl
  have hlast : counter executions = UInt32.ofNat (UInt32.size - 1) ↔
      UInt32.size - 1 ≤ executions := by
    rw [← UInt32.toNat_inj, toNat_counter, UInt32.toNat_ofNat', hsize]
    omega
  have hcount : (if counter executions = UInt32.ofNat (UInt32.size - 1) then counter executions
      else counter executions + 1) = counter (executions + 1) := by
    rw [← UInt32.toNat_inj]
    split
    · next hfull =>
      rw [hlast] at hfull
      rw [toNat_counter, toNat_counter]
      omega
    · next hroom =>
      rw [hlast] at hroom
      rw [UInt32.toNat_add, toNat_counter, toNat_counter, UInt32.toNat_one]
      omega
  rw [countExecution]
  dsimp only
  rw [hcount]

/-- No threshold lies beyond the range of the counter. -/
theorem le_counter_iff {threshold : UInt32} {executions : Nat} :
    threshold ≤ counter executions ↔ threshold.toNat ≤ executions := by
  have hlt : threshold.toNat < UInt32.size := threshold.toNat_lt
  rw [UInt32.le_iff_toNat_le, toNat_counter]
  omega

end CompiledBlock

namespace Machine

variable {machine : Machine} {offset executions count : Nat} {tier : Tier}
  {instructions : List Instruction}

/-! ## Building -/

theorem block?_manager :
    machine.manager.block? machine.mode machine.guest.size32 machine.memory offset =
      machine.guest.block? offset := by
  have hsize := Mode.defaultSize32_idem machine.mode machine.code32
  rw [Manager.block?, Guest.block?]
  simp only [guest, Guest.size32, hsize]

theorem builtBlock_of_block? (tier : Tier) (executions : Nat)
    (hblock : machine.guest.block? offset = some instructions) :
    machine.builtBlock tier executions offset =
      ⟨machine.manager.chain machine.mode, machine.guest.size32,
        .compiled { CompiledBlock.ofInstructions tier machine.memory offset instructions with
          executions := CompiledBlock.counter executions }⟩ := by
  rw [builtBlock, hblock]

theorem builtBlock_of_cutOff (tier : Tier) (executions : Nat)
    (hblock : machine.guest.block? offset = none) :
    machine.builtBlock tier executions offset =
      ⟨machine.manager.chain machine.mode, machine.guest.size32, .spanning offset⟩ := by
  rw [builtBlock, hblock]

theorem start_builtBlock : (machine.builtBlock tier executions offset).start = offset := by
  cases hblock : machine.guest.block? offset with
  | some instructions => rw [builtBlock_of_block? _ _ hblock]; rfl
  | none => rw [builtBlock_of_cutOff _ _ hblock]; rfl

/-- The chain of the machine builds blocks that have not been executed. -/
theorem build_eq_builtBlock (machine : Machine) (offset : Nat) (requested : Tier) :
    (machine.manager.chain machine.mode).build machine.memory offset machine.guest.size32 requested =
      .ok (machine.builtBlock (machine.manager.builtTier requested) 0 offset) := by
  rw [Manager.build_chain, Manager.bodyAt, block?_manager, builtBlock]
  cases machine.guest.block? offset <;> rfl

theorem blockAfter_zero : machine.blockAfter 0 offset = machine.builtBlock .baseline 0 offset := by
  rw [blockAfter, Promotion.tierAfter_zero machine.manager.hotThreshold_ne_zero,
    Promotion.executionsAfter_zero machine.manager.hotThreshold_ne_zero]

theorem manager_blockAt :
    machine.manager.blockAt machine.mode machine.memory offset machine.code32 =
      .ok (machine.blockAfter 0 offset) := by
  have hbaseline : machine.manager.builtTier .baseline = .baseline := by
    unfold Manager.builtTier
    split <;> rfl
  have hbuild := build_eq_builtBlock machine offset .baseline
  rw [hbaseline, ← blockAfter_zero] at hbuild
  exact hbuild

/-! ## Executing -/

section

variable {σ : Type} (executor : Executor σ) (state : σ)

theorem execute_of_cutOff (hblock : machine.guest.block? offset = none) :
    (machine.builtBlock tier executions offset).execute machine.memory executor state =
      ⟨.error (.exception .protection0), machine.builtBlock tier executions offset, state⟩ := by
  have hbuild := build_eq_builtBlock machine offset .baseline
  rw [builtBlock_of_cutOff _ _ hblock] at hbuild ⊢
  rw [Block.execute]
  dsimp only
  rw [hbuild]
  rfl

/-- The code of the machine stays as it was decoded. -/
theorem isModified_ofInstructions (executions : UInt32) :
    CompiledBlock.isModified
      { CompiledBlock.ofInstructions tier machine.memory offset instructions with executions }
      machine.memory = false :=
  bne_self_eq_false _

theorem isHot_iff (machine : Machine) (tier : Tier) (executions offset : Nat)
    (instructions : List Instruction) :
    CompiledBlock.isHot
        { CompiledBlock.ofInstructions tier machine.memory offset instructions with
          executions := CompiledBlock.counter executions }
        (machine.manager.chain machine.mode) = true ↔
      ∃ threshold, machine.manager.hotThreshold = some threshold ∧ tier = .baseline ∧
        threshold.toNat ≤ executions := by
  rw [CompiledBlock.isHot, Manager.hotThreshold_chain]
  cases machine.manager.hotThreshold with
  | none => simp
  | some threshold =>
    simp [CompiledBlock.ofInstructions, CompiledBlock.le_counter_iff]

/-- A baseline block whose executions reach the threshold is replaced by one at the optimised
tier. -/
theorem execute_of_hot {threshold : UInt32}
    (hblock : machine.guest.block? offset = some instructions)
    (hthreshold : machine.manager.hotThreshold = some threshold)
    (hreached : threshold.toNat ≤ executions + 1) :
    (machine.builtBlock .baseline executions offset).execute machine.memory executor state =
      ⟨.ok (.replaced (machine.builtBlock .optimised 0 offset)),
        machine.builtBlock .baseline (executions + 1) offset, state⟩ := by
  have hoptimised : machine.manager.builtTier .optimised = .optimised := by
    rw [Manager.builtTier, hthreshold]
    rfl
  have hbuild := build_eq_builtBlock machine offset .optimised
  rw [hoptimised] at hbuild
  have hhot := (isHot_iff machine .baseline (executions + 1) offset instructions).mpr
    ⟨threshold, hthreshold, rfl, hreached⟩
  rw [builtBlock_of_block? .baseline executions hblock,
    builtBlock_of_block? .baseline (executions + 1) hblock, Block.execute]
  dsimp only
  rw [isModified_ofInstructions, if_neg Bool.false_ne_true, CompiledBlock.countExecution_counter,
    if_pos hhot]
  have hrebuild : Block.rebuild
      ⟨machine.manager.chain machine.mode, machine.guest.size32,
        .compiled { CompiledBlock.ofInstructions .baseline machine.memory offset instructions with
          executions := CompiledBlock.counter (executions + 1) }⟩
      machine.memory .optimised = .ok (.replaced (machine.builtBlock .optimised 0 offset)) := by
    rw [Block.rebuild]
    exact congrArg (Outcome.replaced <$> ·) hbuild
  rw [hrebuild]

/-- Any other block runs its operations. -/
theorem execute_of_cold (hblock : machine.guest.block? offset = some instructions)
    (hcold : ∀ threshold, machine.manager.hotThreshold = some threshold → tier = .baseline →
      executions + 1 < threshold.toNat) :
    (machine.builtBlock tier executions offset).execute machine.memory executor state =
      ⟨.executed <$> (runOps executor (tier.compile instructions) 0 state).1,
        machine.builtBlock tier (executions + 1) offset,
        (runOps executor (tier.compile instructions) 0 state).2⟩ := by
  have hnot : ¬ ∃ threshold, machine.manager.hotThreshold = some threshold ∧ tier = .baseline ∧
      threshold.toNat ≤ executions + 1 := by
    rintro ⟨threshold, hthreshold, htier, hreached⟩
    exact Nat.not_le_of_lt (hcold threshold hthreshold htier) hreached
  rw [← isHot_iff machine tier (executions + 1) offset instructions] at hnot
  rw [builtBlock_of_block? tier executions hblock,
    builtBlock_of_block? tier (executions + 1) hblock, Block.execute]
  dsimp only
  rw [isModified_ofInstructions, if_neg Bool.false_ne_true, CompiledBlock.countExecution_counter,
    if_neg hnot]
  rfl

end

/-! ## Legs -/

end Machine

/-- The block takes the walker through its leg, after which it is kept as another one. -/
structure Block.Walks (guest : Guest) (walker : Walker) (block kept : Block) : Prop where
  start : block.start = walker.ip
  execute : block.execute guest.memory Walker.executor walker =
    ⟨.executed <$> (guest.leg walker).result 0, kept, (guest.leg walker).walker⟩
  carriedOut : (block.execute guest.memory (Walker.recorder guest.size32) (walker, [])).state.2 =
    (guest.leg walker).carriedOut

namespace Machine

open Promotion

variable {machine : Machine} {walker : Walker} {offset executions count : Nat} {tier : Tier}
  {instructions : List Instruction}

theorem walks_of_cutOff (tier : Tier) (executions : Nat)
    (hblock : machine.guest.block? walker.ip = none) :
    (machine.builtBlock tier executions walker.ip).Walks machine.guest walker
      (machine.builtBlock tier executions walker.ip) where
  start := start_builtBlock
  execute := by
    rw [Guest.leg_of_cutOff hblock]
    exact execute_of_cutOff Walker.executor walker hblock
  carriedOut := by
    rw [Guest.leg_of_cutOff hblock]
    exact congrArg (·.state.2) (execute_of_cutOff (Walker.recorder _) (walker, []) hblock)

theorem walks_of_cold (hblock : machine.guest.block? walker.ip = some instructions)
    (hcold : ∀ threshold, machine.manager.hotThreshold = some threshold → tier = .baseline →
      executions + 1 < threshold.toNat) :
    (machine.builtBlock tier executions walker.ip).Walks machine.guest walker
      (machine.builtBlock tier (executions + 1) walker.ip) := by
  have hisBlock := Instruction.isBlock_of_block? machine.manager.minBlockLimit_le hblock
  obtain ⟨hrecorder, hexecutor⟩ := Walker.runOps_compile tier walker hisBlock.straight
  refine ⟨start_builtBlock, ?_, ?_⟩
  · have hexecute := execute_of_cold Walker.executor walker hblock hcold
    rw [hexecutor] at hexecute
    rw [Guest.leg_of_block? hblock]
    exact hexecute
  · have hexecute := execute_of_cold (Walker.recorder machine.guest.size32) (walker, []) hblock hcold
    rw [hrecorder] at hexecute
    rw [Guest.leg_of_block? hblock]
    exact congrArg (·.state.2) hexecute

/-- A block that is not due for promotion takes the walker through its leg. -/
theorem blockAfter_walks
    (hnot : machine.guest.block? walker.ip ≠ none → ¬ IsDue machine.manager.hotThreshold count) :
    (machine.blockAfter count walker.ip).Walks machine.guest walker
      (machine.blockAfter (count + 1) walker.ip) := by
  cases hblock : machine.guest.block? walker.ip with
  | none =>
    have hwalks := walks_of_cutOff .baseline 0 hblock
    simp only [blockAfter, builtBlock_of_cutOff _ _ hblock] at hwalks ⊢
    exact hwalks
  | some instructions =>
    have hdue := hnot (by rw [hblock]; exact Option.some_ne_none _)
    rw [blockAfter, blockAfter, tierAfter_succ hdue, executionsAfter_succ hdue]
    exact walks_of_cold hblock fun threshold hsome htier ↦ executionsAfter_lt hdue hsome htier

/-- A block that is due for promotion is replaced, and the block in its place takes the walker
through the leg. -/
theorem blockAfter_promoted (hblock : machine.guest.block? walker.ip = some instructions)
    (hdue : IsDue machine.manager.hotThreshold count) :
    (∀ {σ : Type} (executor : Executor σ) (state : σ),
      (machine.blockAfter count walker.ip).execute machine.memory executor state =
        ⟨.ok (.replaced (machine.builtBlock .optimised 0 walker.ip)),
          machine.builtBlock .baseline (count + 1) walker.ip, state⟩) ∧
      (machine.builtBlock .optimised 0 walker.ip).Walks machine.guest walker
        (machine.blockAfter (count + 1) walker.ip) := by
  constructor
  · intro σ executor state
    cases hthreshold : machine.manager.hotThreshold with
    | none =>
      rw [hthreshold] at hdue
      cases hdue
    | some threshold =>
      rw [blockAfter, hdue.before.1, hdue.before.2]
      rw [hthreshold, isDue_some] at hdue
      exact execute_of_hot executor state hblock hthreshold (Nat.le_of_eq hdue)
  · rw [blockAfter, hdue.after.1, hdue.after.2]
    exact walks_of_cold hblock fun _ _ htier ↦ nomatch htier

/-! ## Records -/

theorem ofBlock_builtBlock (hblock : machine.guest.block? offset = some instructions) :
    ∃ length size, machine.guest.record offset = .block machine.mode offset length size .baseline ∧
      ∀ tier executions, TraceRecord.ofBlock (machine.builtBlock tier executions offset) =
        .block machine.mode offset length size tier := by
  refine ⟨_, _, by rw [Guest.record, hblock]; rfl, fun tier executions ↦ ?_⟩
  rw [builtBlock_of_block? tier executions hblock]
  rfl

theorem ofBlock_of_cutOff (hblock : machine.guest.block? offset = none) :
    machine.guest.record offset = .spanning machine.mode offset ∧
      TraceRecord.ofBlock (machine.builtBlock tier executions offset) =
        .spanning machine.mode offset := by
  rw [Guest.record, builtBlock_of_cutOff tier executions hblock, hblock]
  exact ⟨rfl, rfl⟩

section

variable {records : List TraceRecord}

theorem start?_record :
    (machine.guest.record offset).start? =
      if machine.guest.block? offset = none then none else some offset := by
  rw [Guest.record]
  cases machine.guest.block? offset <;> rfl

/-- A dispatch that promotes is told twice: of the block and of the one in its place. -/
theorem told_append_of_promoted
    (hblock : machine.guest.block? offset = some instructions)
    (hdue : IsDue machine.manager.hotThreshold (dispatches records offset)) :
    told machine.manager.hotThreshold (records ++ [machine.guest.record offset]) =
      told machine.manager.hotThreshold records ++
        [.ofBlock (machine.blockAfter (dispatches records offset) offset)] ++
        [.ofBlock (machine.builtBlock .optimised 0 offset)] := by
  obtain ⟨length, size, hrecord, hofBlock⟩ := ofBlock_builtBlock hblock
  rw [hrecord, told_append_of_isDue hdue, blockAfter, hofBlock, hofBlock, hdue.before.1,
    List.append_assoc]
  rfl

/-- Any other dispatch is told once. -/
theorem told_append_of_walks
    (hnot : machine.guest.block? offset ≠ none →
      ¬ IsDue machine.manager.hotThreshold (dispatches records offset)) :
    told machine.manager.hotThreshold (records ++ [machine.guest.record offset]) =
      told machine.manager.hotThreshold records ++
        [.ofBlock (machine.blockAfter (dispatches records offset) offset)] := by
  cases hblock : machine.guest.block? offset with
  | none =>
    obtain ⟨hrecord, hofBlock⟩ := ofBlock_of_cutOff hblock
    rw [blockAfter, hrecord, hofBlock]
    exact told_append_of_start?_eq_none _ (List.forall_mem_singleton.mpr rfl)
  | some instructions =>
    have hdue := hnot (by rw [hblock]; exact Option.some_ne_none _)
    obtain ⟨length, size, hrecord, hofBlock⟩ := ofBlock_builtBlock hblock
    rw [hrecord, told_append_of_not_isDue hdue, blockAfter, hofBlock]

theorem promotions_append_of_promoted
    (hblock : machine.guest.block? offset = some instructions)
    (hdue : IsDue machine.manager.hotThreshold (dispatches records offset)) :
    promotions machine.manager.hotThreshold (records ++ [machine.guest.record offset]) =
      promotions machine.manager.hotThreshold records + 1 := by
  have hstart : (machine.guest.record offset).start? = some offset := by
    rw [start?_record, hblock, if_neg (Option.some_ne_none _)]
  rw [promotions_append_singleton machine.manager.hotThreshold_ne_zero hstart, if_pos hdue]

theorem promotions_append_of_walks
    (hnot : machine.guest.block? offset ≠ none →
      ¬ IsDue machine.manager.hotThreshold (dispatches records offset)) :
    promotions machine.manager.hotThreshold (records ++ [machine.guest.record offset]) =
      promotions machine.manager.hotThreshold records := by
  by_cases hblock : machine.guest.block? offset = none
  · have hsilent : (machine.guest.record offset).start? = none := by
      rw [start?_record, if_pos hblock]
    exact promotions_append_of_start?_eq_none _ machine.manager.hotThreshold_ne_zero
      (List.forall_mem_singleton.mpr hsilent)
  · have hstart : (machine.guest.record offset).start? = some offset := by
      rw [start?_record, if_neg hblock]
    rw [promotions_append_singleton machine.manager.hotThreshold_ne_zero hstart,
      if_neg (hnot hblock)]
    rfl

end

/-! ## Keeping -/

/-- The block at the offset, kept or built afresh, stands as it does after the dispatches that were
recorded. -/
def KeepsAt (machine : Machine) (blocks : Std.TreeMap Nat Block) (records : List TraceRecord)
    (offset : Nat) : Prop :=
  blocks[offset]?.getD (machine.blockAfter 0 offset) =
    machine.blockAfter (dispatches records offset) offset

def Keeps (machine : Machine) (blocks : Std.TreeMap Nat Block) (records : List TraceRecord) : Prop :=
  ∀ offset, machine.KeepsAt blocks records offset

variable {blocks : Std.TreeMap Nat Block} {records later : List TraceRecord}

theorem getElem?_insert (block : Block) (other : Nat) :
    (blocks.insert offset block)[other]? = if offset = other then some block else blocks[other]? := by
  simp only [Std.TreeMap.getElem?_insert, Nat.compare_eq_eq]

/-- What holds of all blocks that are kept also holds once another such block is kept. -/
theorem forall_insert {P : Nat → Block → Prop} {block : Block}
    (hkept : ∀ other kept, blocks[other]? = some kept → P other kept) (hblock : P offset block) :
    ∀ other kept, (blocks.insert offset block)[other]? = some kept → P other kept := by
  intro other kept hother
  rw [getElem?_insert] at hother
  split at hother
  · next hsame =>
    cases hother
    exact hsame ▸ hblock
  · exact hkept other kept hother

theorem keeps_empty : machine.Keeps ∅ [] := fun _ ↦ rfl

theorem KeepsAt.insert {block : Block} {other : Nat} (hkeeps : machine.KeepsAt blocks records other)
    (hother : other ≠ offset) : machine.KeepsAt (blocks.insert offset block) records other := by
  rw [KeepsAt, getElem?_insert, if_neg hother.symm]
  exact hkeeps

/-- After a leg the machine keeps the block as it stands then. -/
theorem keeps_insert (hkeeps : ∀ other, other ≠ offset → machine.KeepsAt blocks records other)
    (hlater : ∀ record ∈ later, record.start? = none) :
    machine.Keeps
      (blocks.insert offset (machine.blockAfter (dispatches records offset + 1) offset))
      (records ++ [machine.guest.record offset] ++ later) := by
  intro other
  rw [KeepsAt, dispatches_append_of_start?_eq_none hlater, dispatches_append_singleton,
    start?_record, getElem?_insert]
  by_cases hother : offset = other
  · subst hother
    rw [if_pos rfl, Option.getD_some]
    cases hblock : machine.guest.block? offset with
    | none => rw [blockAfter, blockAfter, builtBlock_of_cutOff _ _ hblock,
        builtBlock_of_cutOff _ _ hblock]
    | some instructions => rw [if_neg (Option.some_ne_none _), if_pos rfl]
  · have hsame : (if machine.guest.block? offset = none then none else some offset) ≠ some other := by
      split
      · exact nofun
      · exact fun hstart ↦ hother (Option.some.inj hstart)
    rw [if_neg hother, if_neg hsame]
    exact hkeeps other (Ne.symm hother)

/-- The machine finds or builds the block as it stands after the dispatches so far. -/
theorem Keeps.blockAt (hkeeps : machine.Keeps blocks records) (clock : Clock) (trace : Trace)
    (offset : Nat) :
    ∃ found, machine.Keeps found records ∧
      Machine.blockAt { machine with blocks, clock, trace } offset =
        .ok (machine.blockAfter (dispatches records offset) offset,
          { machine with blocks := found, clock, trace }) := by
  have hat := hkeeps offset
  rw [KeepsAt] at hat
  cases hfound : blocks[offset]? with
  | some block =>
    rw [hfound, Option.getD_some] at hat
    refine ⟨blocks, hkeeps, ?_⟩
    rw [Machine.blockAt]
    dsimp only
    rw [hfound, hat]
  | none =>
    rw [hfound, Option.getD_none] at hat
    refine ⟨blocks.insert offset (machine.blockAfter 0 offset), fun other ↦ ?_, ?_⟩
    · by_cases hother : other = offset
      · subst hother
        rw [KeepsAt, getElem?_insert, if_pos rfl, Option.getD_some, hat]
      · exact (hkeeps other).insert hother
    · rw [Machine.blockAt]
      dsimp only
      rw [hfound, ← hat, manager_blockAt]
      rfl

end Machine

end GuestMachine

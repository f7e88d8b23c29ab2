import GuestMachine.Proofs.Block.Execution

/-!
# Which factory answers

A chain keeps its threshold if any of its factories is optimising, but a request for an optimised
block is met by whichever factory comes first, as no tier is above the requested one. So a kept
threshold promotes only behind an optimising factory. Behind a baseline factory a hot block makes
way for a baseline block at the same offset, which counts from the start again.
-/

namespace GuestMachine

theorem Tier.isWithin_optimised (tier : Tier) : tier.isWithin .optimised = true := by
  cases tier <;> rfl

theorem Tier.isWithin_refl (tier : Tier) : tier.isWithin tier = true := by
  cases tier <;> rfl

namespace Block

/-- The block is a stub, or it was compiled at the tier. -/
def IsAtTier (block : Block) (tier : Tier) : Prop :=
  block.isSpanning = true ∨ block.tier? = some tier

end Block

namespace Chain

variable {chain : Chain} {mode : Mode} {factories others : List Factory} {first : Factory}
  {hotThreshold : Option UInt32} {threshold : UInt32} {memory : Memory} {offset : Nat}
  {size32 : Bool} {requested : Tier}

/-- A threshold is kept for the sake of any optimising factory. -/
theorem hotThreshold_ofFactories :
    (ofFactories mode factories hotThreshold).hotThreshold = some threshold ↔
      hotThreshold = some threshold ∧ ∃ factory ∈ factories, factory.tier = .optimised := by
  have hany : factories.any (·.tier == .optimised) = true ↔
      ∃ factory ∈ factories, factory.tier = .optimised := by
    simp only [List.any_eq_true, beq_iff_eq]
  rw [← hany, ofFactories]
  cases factories.any (·.tier == .optimised) with
  | true => exact ⟨fun h ↦ ⟨h, rfl⟩, And.left⟩
  | false => exact ⟨nofun, fun h ↦ nomatch h.2⟩

theorem isAtTier_bodyOf (chain : Chain) (size32 : Bool) (factory : Factory) (memory : Memory)
    (offset : Nat) : Block.IsAtTier
      ⟨chain, size32, bodyOf factory chain.mode size32 memory offset⟩ factory.tier := by
  rw [bodyOf]
  cases factory.block? chain.mode size32 memory offset with
  | some instructions => exact Or.inr rfl
  | none => exact Or.inl rfl

/-- A request that is not below the tier of the first factory is met by that factory. -/
theorem build_of_isWithin (hfactories : chain.factories = first :: others)
    (hwithin : first.tier.isWithin requested = true) (memory : Memory) (offset : Nat)
    (size32 : Bool) :
    chain.build memory offset size32 requested =
      .ok ⟨chain, size32, bodyOf first chain.mode size32 memory offset⟩ := by
  rw [build_eq, hfactories, List.find?_cons, hwithin]

/-- Wherever a chain is asked for an optimised block, it builds one or leaves a stub. -/
def Promotes (chain : Chain) : Prop :=
  ∀ memory offset size32, ∃ block, chain.build memory offset size32 .optimised = .ok block ∧
    block.IsAtTier .optimised

/-- A region of a single instruction, which is a block of its own in every mode and at any limit. -/
theorem block?_halt (factory : Factory) (mode : Mode) (size32 : Bool) :
    ∃ instructions, factory.block? mode size32 (.rom #[0xF4]) 0 = some instructions := by
  obtain ⟨room, hroom⟩ := Nat.exists_eq_add_of_le' (Nat.le_max_right factory.limit 1)
  let halt : Instruction :=
    { Instruction.nop (mode.defaultSize32 size32) 0 with opcode := 0xF4, flow := .halt }
  have hhalt : Instruction.ofMemory? mode (mode.defaultSize32 size32) (.rom #[0xF4]) 0 =
      some halt := by
    cases mode <;> cases size32 <;> decide +kernel
  refine ⟨[halt], ?_⟩
  rw [Factory.block?, hroom, Instruction.stream, hhalt]
  rfl

/-- Whether a chain promotes is up to its first factory. -/
theorem promotes_iff (hfactories : chain.factories = first :: others) :
    chain.Promotes ↔ first.tier = .optimised := by
  have hbuild := build_of_isWithin hfactories first.tier.isWithin_optimised
  constructor
  · intro hpromotes
    obtain ⟨block, hblock, htier⟩ := hpromotes (.rom #[0xF4]) 0 false
    obtain ⟨instructions, hinstructions⟩ := block?_halt first chain.mode false
    rw [hbuild, bodyOf, hinstructions] at hblock
    cases hblock
    exact Option.some_inj.mp (htier.resolve_left Bool.false_ne_true)
  · intro htier memory offset size32
    exact ⟨_, hbuild memory offset size32, htier ▸ chain.isAtTier_bodyOf size32 first memory offset⟩

end Chain

namespace Block

variable {block : Block} {chain : Chain} {first : Factory} {others : List Factory} {memory : Memory}
  {σ : Type} (executor : Executor σ) (state : σ)

/-- A hot block is replaced by what the first factory builds. -/
theorem execute_hot (hfactories : block.chain.factories = first :: others)
    (hrequest : block.request? memory = some .optimised) :
    (block.execute memory executor state).result = .ok (.replaced ⟨block.chain, block.size32,
      Chain.bodyOf first block.chain.mode block.size32 memory block.start⟩) := by
  have hbuild := Chain.build_of_isWithin hfactories first.tier.isWithin_optimised memory
    block.start block.size32
  rw [execute_of_request _ _ _ _ hrequest]
  cases hbody : block.body with
  | spanning start =>
    rw [request?, hbody] at hrequest
    cases hrequest
  | compiled code =>
    rw [exchange_of_compiled block memory hbody, rebuild, hbuild]
    rfl

/-- At a threshold of one execution a baseline block is hot as soon as it is built. -/
theorem request?_bodyOf {factory : Factory} (hbaseline : factory.tier = .baseline) {size32 : Bool}
    {offset : Nat} {instructions : List Instruction}
    (hblock : factory.block? chain.mode size32 memory offset = some instructions)
    {threshold : UInt32} (hthreshold : chain.hotThreshold = some threshold) (hone : threshold ≤ 1) :
    request? ⟨chain, size32, Chain.bodyOf factory chain.mode size32 memory offset⟩ memory =
      some .optimised := by
  have hfresh : (CompiledBlock.ofInstructions factory.tier memory offset instructions).isModified
      memory = false := bne_self_eq_false _
  have hhot : (CompiledBlock.ofInstructions factory.tier memory offset
      instructions).countExecution.isHot chain = true := by
    rw [CompiledBlock.isHot, hthreshold, Bool.and_eq_true, decide_eq_true_eq]
    exact ⟨by rw [hbaseline]; rfl, hone⟩
  simp only [request?, Chain.bodyOf, hblock, hfresh, hhot, Bool.false_eq_true, if_false, if_true]

theorem replaced_by_itself (hfactories : chain.factories = first :: others)
    (hbaseline : first.tier = .baseline) {threshold : UInt32}
    (hthreshold : chain.hotThreshold = some threshold) (hone : threshold ≤ 1) {offset : Nat}
    {size32 : Bool} (hbuild : chain.build memory offset size32 .baseline = .ok block)
    (hspanning : block.isSpanning = false) :
    (block.execute memory executor state).result = .ok (.replaced block) := by
  have hwithin : first.tier.isWithin .baseline = true := by rw [hbaseline, Tier.isWithin_refl]
  obtain ⟨-, -, hstart⟩ := Chain.frame_of_build hbuild
  rw [Chain.build_of_isWithin hfactories hwithin] at hbuild
  cases hbuild
  cases hblock : first.block? chain.mode size32 memory offset with
  | none =>
    rw [isSpanning, Chain.bodyOf, hblock] at hspanning
    cases hspanning
  | some instructions =>
    have hrequest := request?_bodyOf hbaseline hblock hthreshold hone
    have hreplaced := execute_hot executor state hfactories hrequest
    rw [hstart] at hreplaced
    exact hreplaced

end Block

namespace Chain

/-- A chain that keeps its threshold promotes if and only if its first factory is optimising. A hot
block is replaced by what that factory builds. Behind a baseline factory this is a baseline block
again, and at a threshold of one execution it is the very block that was to be promoted. -/
theorem promotes_iff_first {mode : Mode} {factories : List Factory} {hotThreshold : Option UInt32}
    {chain : Chain} (hchain : chain = ofFactories mode factories hotThreshold) {threshold : UInt32}
    (hkept : chain.hotThreshold = some threshold) :
    ∃ first others, factories = first :: others ∧
      (chain.Promotes ↔ first.tier = .optimised) ∧
      (∀ memory offset size32, ∃ block,
        chain.build memory offset size32 .optimised = .ok block ∧ block.IsAtTier first.tier) ∧
      (∀ (block : Block) (memory : Memory), block.chain = chain →
        block.request? memory = some .optimised → ∀ {σ : Type} (executor : Executor σ) (state : σ),
          ∃ other, (block.execute memory executor state).result = .ok (.replaced other) ∧
            other.IsAtTier first.tier ∧
            chain.build memory block.start block.size32 first.tier = .ok other) ∧
      (first.tier = .baseline → threshold ≤ 1 → ∀ memory offset size32 block,
        chain.build memory offset size32 .baseline = .ok block → block.isSpanning = false →
          ∀ {σ : Type} (executor : Executor σ) (state : σ),
            (block.execute memory executor state).result = .ok (.replaced block)) := by
  obtain ⟨-, factory, hfactory, -⟩ := hotThreshold_ofFactories.mp (hchain ▸ hkept)
  obtain ⟨first, others, rfl⟩ := List.exists_cons_of_ne_nil (List.ne_nil_of_mem hfactory)
  have hfactories : chain.factories = first :: others := hchain ▸ rfl
  refine ⟨first, others, rfl, promotes_iff hfactories, ?_, ?_, ?_⟩
  · intro memory offset size32
    exact ⟨_, build_of_isWithin hfactories first.tier.isWithin_optimised memory offset size32,
      chain.isAtTier_bodyOf size32 first memory offset⟩
  · rintro block memory rfl hrequest σ executor state
    exact ⟨_, Block.execute_hot executor state hfactories hrequest,
      block.chain.isAtTier_bodyOf block.size32 first memory block.start,
      build_of_isWithin hfactories first.tier.isWithin_refl memory block.start block.size32⟩
  · intro hbaseline hone memory offset size32 block hbuild hspanning σ executor state
    exact Block.replaced_by_itself executor state hfactories hbaseline hkept hone hbuild hspanning

def twoTiers (first second : Tier) (hotThreshold : UInt32) : Chain :=
  .ofFactories .real [⟨first, 2⟩, ⟨second, 2⟩] (some hotThreshold)

/-- In either order the threshold is kept, but in one only is anything promoted. -/
theorem promotes_iff_first_orders :
    ((twoTiers .baseline .optimised 4).hotThreshold = some 4 ∧
        ¬ (twoTiers .baseline .optimised 4).Promotes) ∧
      (twoTiers .optimised .baseline 4).hotThreshold = some 4 ∧
      (twoTiers .optimised .baseline 4).Promotes := by
  have hiff (first second : Tier) (hkept : (twoTiers first second 4).hotThreshold = some 4) :
      (twoTiers first second 4).Promotes ↔ first = .optimised := by
    obtain ⟨factory, others, hfactories, hpromotes, -⟩ := promotes_iff_first rfl hkept
    cases hfactories
    exact hpromotes
  refine ⟨⟨rfl, ?_⟩, rfl, ?_⟩
  · rw [hiff .baseline .optimised rfl]
    decide
  · rw [hiff .optimised .baseline rfl]

def baselineHalt : Block where
  chain := twoTiers .baseline .optimised 1
  size32 := false
  body := .compiled (.ofInstructions .baseline (.rom #[0xF4]) 0
    [{ Instruction.nop false 0 with opcode := 0xF4, flow := .halt }])

/-- The threshold is kept, and yet a request for an optimised block is met with a baseline block.
This is the block that was to be promoted, and whatever executes it gets it back in place of
itself. -/
theorem hot_replaced_by_baseline :
    (twoTiers .baseline .optimised 1).hotThreshold = some 1 ∧
      (twoTiers .baseline .optimised 1).build (.rom #[0xF4]) 0 false .baseline =
        .ok baselineHalt ∧
      (twoTiers .baseline .optimised 1).build (.rom #[0xF4]) 0 false .optimised =
        .ok baselineHalt ∧
      baselineHalt.isSpanning = false ∧ baselineHalt.tier? = some .baseline ∧
      ∀ (σ : Type) (executor : Executor σ) (state : σ),
        (baselineHalt.execute (.rom #[0xF4]) executor state).result =
          .ok (.replaced baselineHalt) := by
  have hbuild : (twoTiers .baseline .optimised 1).build (.rom #[0xF4]) 0 false .baseline =
      .ok baselineHalt := by decide +kernel
  refine ⟨rfl, hbuild, by decide +kernel, rfl, rfl, ?_⟩
  intro σ executor state
  exact Block.replaced_by_itself executor state rfl rfl rfl (by decide) hbuild rfl

end Chain

end GuestMachine

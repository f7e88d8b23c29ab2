import GuestMachine.Proofs.Block.Execution

/-!
# Settling

A block that a manager yields is exchanged at most twice before it runs, however it came to be stale
or hot: a block that is built afresh is not modified, so that it can only be hot at once, and what it
is then promoted to is not hot.
-/

namespace GuestMachine

/-! ## The blocks of a manager -/

/-- The blocks that a manager yields: built by one of its chains, executed by whatever executor
against whatever the region held at the time, or handed back in place of another. -/
inductive Manager.Yields (manager : Manager) : Block → Prop
  | built {mode : Mode} {memory : Memory} {offset : Nat} {size32 : Bool} {requested : Tier}
      {block : Block}
      (hbuild : (manager.chain mode).build memory offset size32 requested = .ok block) :
      manager.Yields block
  | executed {block : Block} {σ : Type} (memory : Memory) (executor : Executor σ) (state : σ)
      (hyields : manager.Yields block) : manager.Yields (block.execute memory executor state).block
  | replaced {block other : Block} {σ : Type} {memory : Memory} {executor : Executor σ} {state : σ}
      (hyields : manager.Yields block)
      (hreplaced : (block.execute memory executor state).result = .ok (.replaced other)) :
      manager.Yields other

namespace Block

variable {block other : Block} {memory : Memory} {σ : Type} {executor : Executor σ} {state : σ}

/-- A replacement has the chain, and so the mode, the size flag and the start of what it replaces. -/
theorem frame_of_replaced
    (hreplaced : (block.execute memory executor state).result = .ok (.replaced other)) :
    other.chain = block.chain ∧ other.size32 = block.size32 ∧ other.start = block.start := by
  obtain ⟨requested, -, hexchange⟩ := request_of_replaced hreplaced
  exact Chain.frame_of_build (build_of_exchange hexchange).1

/-- Whether a block is replaced, and by which, is the same for every executor, and none is called. -/
theorem execute_of_replaced
    (hreplaced : (block.execute memory executor state).result = .ok (.replaced other)) {τ : Type}
    (observer : Executor τ) (observed : τ) :
    block.execute memory observer observed =
      ⟨.ok (.replaced other), block.counted memory, observed⟩ := by
  obtain ⟨requested, hrequest, hexchange⟩ := request_of_replaced hreplaced
  rw [execute_of_request _ _ _ _ hrequest, hexchange]

end Block

namespace Manager

variable {manager : Manager} {mode : Mode} {size32 : Bool} {memory : Memory} {requested : Tier}
  {tier : Tier} {offset : Nat} {block other : Block} {σ : Type} {executor : Executor σ} {state : σ}

theorem Yields.exists_chain (hyields : manager.Yields block) :
    ∃ mode, block.chain = manager.chain mode := by
  induction hyields with
  | @built mode _ _ _ _ _ hbuild => exact ⟨mode, (Chain.frame_of_build hbuild).1⟩
  | executed memory executor state _ ih =>
    rw [Block.block_execute, Block.chain_counted]
    exact ih
  | replaced _ hreplaced ih =>
    rw [(Block.frame_of_replaced hreplaced).1]
    exact ih

/-! ## Blocks built afresh -/

/-- The block that the chain of a mode builds at an offset. -/
def built (manager : Manager) (mode : Mode) (size32 : Bool) (memory : Memory) (requested : Tier)
    (offset : Nat) : Block where
  chain := manager.chain mode
  size32
  body := manager.bodyAt mode size32 memory requested offset

theorem build_built : (manager.chain mode).build memory offset size32 requested =
    .ok (manager.built mode size32 memory requested offset) :=
  manager.build_chain mode size32 memory offset requested

theorem start_built : (manager.built mode size32 memory requested offset).start = offset :=
  (Chain.frame_of_build build_built).2.2

theorem isSpanning_built : (manager.built mode size32 memory requested offset).isSpanning =
    (manager.block? mode size32 memory offset).isNone := by
  rw [Block.isSpanning, built, bodyAt]
  cases manager.block? mode size32 memory offset <;> rfl

/-- What replaces a block of the manager is built afresh. -/
theorem eq_built_of_exchange (hchain : block.chain = manager.chain mode)
    (hexchange : block.exchange memory requested = .ok (.replaced other)) :
    other = manager.built mode block.size32 memory requested block.start := by
  obtain ⟨hbuild, -⟩ := Block.build_of_exchange hexchange
  rw [hchain, build_chain] at hbuild
  cases hbuild
  rfl

/-- A block built afresh is not modified, and only a baseline block can be hot. -/
theorem eq_optimised_of_request {instructions : List Instruction}
    (hblock : manager.block? mode size32 memory offset = some instructions)
    (hrequest : (manager.built mode size32 memory requested offset).request? memory = some tier) :
    tier = .optimised ∧ manager.builtTier requested = .baseline ∧
      manager.hotThreshold.isSome = true := by
  have hbody : (manager.built mode size32 memory requested offset).body = .compiled
      (.ofInstructions (manager.builtTier requested) memory offset instructions) := by
    rw [built, bodyAt, hblock]
  rw [Block.request?, hbody] at hrequest
  have hfresh : (CompiledBlock.ofInstructions (manager.builtTier requested) memory offset
      instructions).isModified memory = false := bne_self_eq_false _
  have hthreshold : (manager.built mode size32 memory requested offset).chain.hotThreshold =
      manager.hotThreshold := hotThreshold_chain manager mode
  simp only [hfresh, Bool.false_eq_true, if_false, CompiledBlock.isHot, hthreshold] at hrequest
  cases hsome : manager.hotThreshold with
  | none =>
    rw [hsome] at hrequest
    cases hrequest
  | some threshold =>
    simp only [hsome, Bool.and_eq_true, beq_iff_eq] at hrequest
    split at hrequest
    · next hhot =>
      cases hrequest
      exact ⟨rfl, hhot.1, rfl⟩
    · cases hrequest

/-- A block built afresh is only replaced by being promoted at once. -/
theorem promoted_of_replaced (hreplaced :
    ((manager.built mode size32 memory requested offset).execute memory executor state).result =
      .ok (.replaced other)) :
    manager.builtTier requested = .baseline ∧ manager.hotThreshold.isSome = true ∧
      other = manager.built mode size32 memory .optimised offset := by
  obtain ⟨tier, hrequest, hexchange⟩ := Block.request_of_replaced hreplaced
  have hother : other = manager.built mode size32 memory tier offset := by
    rw [eq_built_of_exchange rfl hexchange, start_built]
    rfl
  cases hblock : manager.block? mode size32 memory offset with
  | none =>
    -- The chain answers a stub with a stub, which is not handed back.
    obtain ⟨-, hstubs⟩ := Block.build_of_exchange hexchange
    rw [hother, isSpanning_built, isSpanning_built, hblock] at hstubs
    cases hstubs
  | some instructions =>
    obtain ⟨rfl, hbaseline, hthreshold⟩ := eq_optimised_of_request hblock hrequest
    exact ⟨hbaseline, hthreshold, hother⟩

end Manager

/-! ## Swapping -/

namespace Block

/-- What comes of executing a block and swapping in its replacements. -/
structure Settlement (σ : Type) where
  replacements : List Block
  /-- The number of instructions that the last of them handed over. -/
  result : Except Error Nat
  state : σ

variable {σ : Type} (memory : Memory) (executor : Executor σ)

/-- Executes a block, and its replacements in its place, until one of them runs or fails. There is no
result if that takes more than `swaps` replacements. -/
def settle : (swaps : Nat) → Block → σ → Option (Settlement σ)
  | swaps, block, state =>
    let execution := block.execute memory executor state
    match execution.result with
    | .error reason => some ⟨[], .error reason, execution.state⟩
    | .ok (.executed instructions) => some ⟨[], .ok instructions, execution.state⟩
    | .ok (.replaced other) =>
      match swaps with
      | 0 => none
      | swaps + 1 => do
        let later ← settle swaps other execution.state
        return { later with replacements := other :: later.replacements }

variable {memory} {executor} {state : σ} {block : Block} {swaps : Nat}

/-- A block settles if each that may replace it does. -/
theorem isSome_settle (hothers : ∀ other,
      (block.execute memory executor state).result = .ok (.replaced other) →
        ∃ fewer, swaps = fewer + 1 ∧
          (settle memory executor fewer other (block.execute memory executor state).state).isSome) :
    (settle memory executor swaps block state).isSome := by
  rw [settle]
  split
  · rfl
  · rfl
  · next other hreplaced =>
    obtain ⟨fewer, rfl, hsettles⟩ := hothers other hreplaced
    obtain ⟨settlement, hsettlement⟩ := Option.isSome_iff_exists.mp hsettles
    simp only [hsettlement]
    rfl

theorem length_replacements_le {settlement : Settlement σ}
    (hsettle : settle memory executor swaps block state = some settlement) :
    settlement.replacements.length ≤ swaps := by
  induction swaps generalizing block state settlement with
  | zero =>
    rw [settle] at hsettle
    split at hsettle <;> cases hsettle <;> exact le_rfl
  | succ swaps ih =>
    rw [settle] at hsettle
    split at hsettle
    · cases hsettle
      exact Nat.zero_le _
    · cases hsettle
      exact Nat.zero_le _
    · next other _ =>
      obtain ⟨later, hlater, heq⟩ := Option.bind_eq_some_iff.mp hsettle
      cases heq
      exact Nat.succ_le_succ (ih hlater)

variable {manager : Manager} {mode : Mode}

/-- A block built afresh is exchanged once at most. -/
theorem isSome_settle_built (manager : Manager) (mode : Mode) (size32 : Bool) (requested : Tier)
    (offset swaps : Nat) (state : σ) :
    (settle memory executor (swaps + 1) (manager.built mode size32 memory requested offset)
      state).isSome := by
  apply isSome_settle
  intro promoted hpromoted
  obtain ⟨-, hthreshold, rfl⟩ := Manager.promoted_of_replaced hpromoted
  refine ⟨swaps, rfl, isSome_settle fun other hother ↦ ?_⟩
  -- What a block is promoted to is not at the baseline tier, and not promoted again.
  obtain ⟨hbaseline, -, -⟩ := Manager.promoted_of_replaced hother
  rw [Manager.builtTier, if_pos hthreshold] at hbaseline
  cases hbaseline

/-- Every block of the manager is exchanged twice at most. -/
theorem isSome_settle_of_chain (hchain : block.chain = manager.chain mode) (swaps : Nat)
    (state : σ) : (settle memory executor (swaps + 2) block state).isSome := by
  apply isSome_settle
  intro other hreplaced
  obtain ⟨requested, -, hexchange⟩ := request_of_replaced hreplaced
  rw [Manager.eq_built_of_exchange hchain hexchange]
  exact ⟨swaps + 1, rfl, isSome_settle_built manager mode _ requested _ swaps _⟩

/-- Swapping in replacements settles. Whatever became of a block of the manager and of the region, at
most two replacements are met until a block runs or fails. A block that is replaced is so for every
executor and leaves the executor as it was; and what replaces it has its start, its mode and its size
flag. -/
theorem settles_within_two {manager : Manager} {block : Block} (hyields : manager.Yields block)
    (memory : Memory) {σ : Type} (executor : Executor σ) (state : σ) :
    (∃ settlement, settle memory executor 2 block state = some settlement ∧
      settlement.replacements.length ≤ 2) ∧
    ∀ other, (block.execute memory executor state).result = .ok (.replaced other) →
      (manager.Yields other ∧ other.start = block.start ∧ other.mode = block.mode ∧
        other.size32 = block.size32) ∧
      ∀ {τ : Type} (observer : Executor τ) (observed : τ), block.execute memory observer observed =
        ⟨.ok (.replaced other), block.counted memory, observed⟩ := by
  obtain ⟨mode, hchain⟩ := hyields.exists_chain
  constructor
  · obtain ⟨settlement, hsettle⟩ :=
      Option.isSome_iff_exists.mp (isSome_settle_of_chain hchain 0 state)
    exact ⟨settlement, hsettle, length_replacements_le hsettle⟩
  · intro other hreplaced
    obtain ⟨hsame, hsize, hstart⟩ := frame_of_replaced hreplaced
    refine ⟨⟨hyields.replaced hreplaced, hstart, congrArg Chain.mode hsame, hsize⟩, ?_⟩
    exact execute_of_replaced hreplaced

/-- A manager that promotes a block when it is first executed. -/
def eagerManager : Manager where
  blockLimit := 2
  hotThreshold := some 1
  minBlockLimit_le := le_rfl
  hotThreshold_ne_zero := by decide

def haltCode : Ram := .ofBytes #[0xF4]

def haltBlock : Block where
  chain := eagerManager.chain .real
  size32 := false
  body := eagerManager.bodyAt .real false (.ram haltCode) .baseline 0

/-- An executor that counts the calls. -/
def callCounter : Executor Nat where
  execute _ calls := (.ok .proceed, calls + 1)
  skip _ _ calls := calls + 1

/-- A store makes the code stale. It is built afresh, promoted at once and then run. -/
theorem settles_within_two_stale :
    eagerManager.Yields haltBlock ∧
      ∃ settlement, settle (.ram (haltCode.setByte 0 0xF4)) callCounter 2 haltBlock 0 =
          some settlement ∧ settlement.replacements.length ≤ 2 ∧
        settlement.replacements.map tier? = [some .baseline, some .optimised] := by
  have hyields : eagerManager.Yields haltBlock :=
    .built (eagerManager.build_chain .real false (.ram haltCode) 0 .baseline)
  obtain ⟨⟨settlement, hsettle, hlength⟩, -⟩ :=
    settles_within_two hyields (.ram (haltCode.setByte 0 0xF4)) callCounter 0
  have htiers : (settle (.ram (haltCode.setByte 0 0xF4)) callCounter 2 haltBlock 0).map
      (·.replacements.map tier?) = some [some .baseline, some .optimised] := by decide +kernel
  rw [hsettle, Option.map_some, Option.some_inj] at htiers
  exact ⟨hyields, settlement, hsettle, hlength, htiers⟩

end Block

end GuestMachine

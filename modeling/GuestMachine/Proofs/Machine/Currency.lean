import GuestMachine.Proofs.Block.Settling
import GuestMachine.Proofs.Machine.Boot

/-!
# Kept blocks stay current

A machine keeps the blocks that it has built from one run to the next. Whenever a run is about to
dispatch a block, the walker stands at its start, and it is the one that is kept for that place. All
blocks that are kept are what the manager would build there of the present memory, at their tier and
up to their counter, so that none of them is found modified.
-/

namespace GuestMachine

/-! ## Blocks -/

namespace Block

/-- The block as it was before it was executed. -/
def afresh (block : Block) : Block :=
  match block.body with
  | .compiled code => { block with body := .compiled { code with executions := 0 } }
  | .spanning _ => block

variable (block : Block)

theorem afresh_counted (memory : Memory) : (block.counted memory).afresh = block.afresh := by
  obtain ⟨chain, size32, body⟩ := block
  cases body with
  | spanning start => rfl
  | compiled code =>
    rw [counted]
    dsimp only
    split <;> rfl

/-- Only the counter is forgotten. -/
theorem frame_afresh : block.afresh.chain = block.chain ∧ block.afresh.size32 = block.size32 ∧
    block.afresh.start = block.start := by
  obtain ⟨chain, size32, body⟩ := block
  cases body <;> exact ⟨rfl, rfl, rfl⟩

theorem content_afresh : block.afresh.isSpanning = block.isSpanning ∧
    block.afresh.tier? = block.tier? ∧ block.afresh.ops = block.ops := by
  obtain ⟨chain, size32, body⟩ := block
  cases body <;> exact ⟨rfl, rfl, rfl⟩

theorem afresh_of_compiled {code : CompiledBlock} (hbody : block.body = .compiled code) :
    block.afresh.body = .compiled { code with executions := 0 } := by
  rw [afresh, hbody]

end Block

namespace Manager

variable {manager : Manager} {mode : Mode} {size32 : Bool} {memory : Memory} {requested : Tier}
  {tier : Tier} {offset : Nat} {block : Block}

theorem builtTier_builtTier (requested : Tier) :
    manager.builtTier (manager.builtTier requested) = manager.builtTier requested := by
  unfold builtTier
  split <;> rfl

/-- The chain builds blocks that have not been executed. -/
theorem afresh_built : (manager.built mode size32 memory requested offset).afresh =
    manager.built mode size32 memory requested offset := by
  rw [Block.afresh, built, bodyAt]
  cases manager.block? mode size32 memory offset <;> rfl

/-- A block that was built at a tier would be built so on request for that tier. -/
theorem built_of_tier? (htier : (manager.built mode size32 memory requested offset).tier? = some tier) :
    manager.built mode size32 memory tier offset =
      manager.built mode size32 memory requested offset := by
  rw [built, bodyAt] at htier
  cases hblock : manager.block? mode size32 memory offset with
  | none =>
    rw [hblock] at htier
    cases htier
  | some instructions =>
    rw [hblock] at htier
    obtain rfl : manager.builtTier requested = tier := Option.some.inj htier
    simp only [built, bodyAt, hblock, builtTier_builtTier]

theorem isModified_built {code : CompiledBlock}
    (hbody : (manager.built mode size32 memory requested offset).body = .compiled code) :
    code.isModified memory = false := by
  rw [built, bodyAt] at hbody
  dsimp only at hbody
  split at hbody
  · cases hbody
    exact bne_self_eq_false _
  · cases hbody

/-- The block stands at the offset and belongs to the mode. It is a stub where the manager leaves
one; otherwise its operations are those that the chain compiles at its tier, and it is not found
modified. -/
structure Matches (manager : Manager) (mode : Mode) (code32 : Bool) (memory : Memory) (offset : Nat)
    (block : Block) : Prop where
  start : block.start = offset
  sameMode : block.mode = mode
  stub : ∃ built, manager.blockAt mode memory offset code32 = .ok built ∧
    block.isSpanning = built.isSpanning
  ops : ∀ tier, block.tier? = some tier → ∃ built,
    (manager.chain mode).build memory offset (mode.defaultSize32 code32) tier = .ok built ∧
      built.tier? = some tier ∧ built.ops = block.ops
  unmodified : ∀ code, block.body = .compiled code → code.isModified memory = false

end Manager

namespace Machine

/-- The machine builds the block at the offset, on some request, up to its counter. -/
def IsCurrent (machine : Machine) (offset : Nat) (block : Block) : Prop :=
  ∃ requested, (machine.manager.chain machine.mode).build machine.memory offset
    (machine.mode.defaultSize32 machine.code32) requested = .ok block.afresh

variable {machine later found : Machine} {offset : Nat} {block : Block}

theorem IsCurrent.matches (hcurrent : machine.IsCurrent offset block) :
    machine.manager.Matches machine.mode machine.code32 machine.memory offset block := by
  obtain ⟨requested, hbuild⟩ := hcurrent
  obtain ⟨hchain, -, hstart⟩ := Chain.frame_of_build hbuild
  obtain ⟨hchain', -, hstart'⟩ := block.frame_afresh
  obtain ⟨hspanning, htier, hops⟩ := block.content_afresh
  have hbuilt := Except.ok.inj (hbuild.symm.trans Manager.build_built)
  refine ⟨hstart'.symm.trans hstart, ?_, ?_, ?_, ?_⟩
  · exact congrArg Chain.mode (hchain'.symm.trans hchain)
  · refine ⟨_, Manager.build_built, ?_⟩
    rw [← hspanning, hbuilt, Manager.isSpanning_built, Manager.isSpanning_built]
  · intro tier hat
    rw [← htier] at hat
    refine ⟨block.afresh, ?_, hat, hops⟩
    rw [Manager.build_built, Manager.built_of_tier? (hbuilt ▸ hat), hbuilt]
  · intro code hbody
    have hcode := block.afresh_of_compiled hbody
    rw [hbuilt] at hcode
    exact (Manager.isModified_built hcode :)

theorem IsCurrent.start (hcurrent : machine.IsCurrent offset block) : block.start = offset :=
  hcurrent.matches.start

theorem IsCurrent.counted (hcurrent : machine.IsCurrent offset block) (memory : Memory) :
    machine.IsCurrent offset (block.counted memory) := by
  rwa [IsCurrent, Block.afresh_counted]

theorem isCurrent_built (requested : Tier) :
    machine.IsCurrent offset (machine.manager.built machine.mode
      (machine.mode.defaultSize32 machine.code32) machine.memory requested offset) :=
  ⟨requested, by rw [Manager.afresh_built]; exact Manager.build_built⟩

/-- What replaces a current block is current. -/
theorem IsCurrent.replaced (hcurrent : machine.IsCurrent offset block) {other : Block} {σ : Type}
    {executor : Executor σ} {state : σ}
    (hreplaced : (block.execute machine.memory executor state).result = .ok (.replaced other)) :
    machine.IsCurrent offset other := by
  obtain ⟨requested, hbuild⟩ := hcurrent
  obtain ⟨hchain, hsize, -⟩ := Chain.frame_of_build hbuild
  obtain ⟨hchain', hsize', -⟩ := block.frame_afresh
  -- Why it was asked for does not matter: it is built afresh of the same memory.
  obtain ⟨tier, -, hexchange⟩ := Block.request_of_replaced hreplaced
  have hother := Manager.eq_built_of_exchange (hchain'.symm.trans hchain) hexchange
  rw [hother, IsCurrent.start ⟨requested, hbuild⟩, ← hsize', hsize]
  exact isCurrent_built tier

/-! ## What a machine may become -/

/-- The machine may have other blocks, all of them current, another clock and another trace. -/
structure MayBecome (machine later : Machine) : Prop where
  parts : ∃ blocks clock trace, later = { machine with blocks, clock, trace }
  current : ∀ offset block, later.blocks[offset]? = some block → machine.IsCurrent offset block

theorem MayBecome.fixed (hlater : machine.MayBecome later) : later.memory = machine.memory ∧
    later.manager = machine.manager ∧ later.entry = machine.entry := by
  obtain ⟨⟨_, _, _, rfl⟩, -⟩ := hlater
  exact ⟨rfl, rfl, rfl⟩

theorem MayBecome.goOn (hlater : machine.MayBecome later) (clock : Clock) (trace : Trace) :
    machine.MayBecome { later with clock, trace } := by
  obtain ⟨⟨_, _, _, rfl⟩, hcurrent⟩ := hlater
  exact ⟨⟨_, _, _, rfl⟩, hcurrent⟩

theorem MayBecome.insert (hlater : machine.MayBecome later)
    (hcurrent : machine.IsCurrent offset block) :
    machine.MayBecome { later with blocks := later.blocks.insert offset block } := by
  obtain ⟨⟨_, _, _, rfl⟩, hkept⟩ := hlater
  exact ⟨⟨_, _, _, rfl⟩, forall_insert hkept hcurrent⟩

/-- A block that is asked for is kept from then on. -/
theorem MayBecome.blockAt (hlater : machine.MayBecome later)
    (hblockAt : later.blockAt offset = .ok (block, found)) :
    machine.MayBecome found ∧ found.blocks[offset]? = some block := by
  rw [Machine.blockAt] at hblockAt
  split at hblockAt
  · next kept hkept =>
    cases hblockAt
    exact ⟨hlater, hkept⟩
  · have hbuilt : machine.manager.blockAt machine.mode machine.memory offset machine.code32 =
        .ok (machine.manager.built machine.mode (machine.mode.defaultSize32 machine.code32)
          machine.memory .baseline offset) := Manager.build_built
    obtain ⟨blocks, clock, trace, hparts⟩ := hlater.parts
    rw [hparts] at hblockAt
    rw [hbuilt, ← hparts] at hblockAt
    cases hblockAt
    refine ⟨hlater.insert (isCurrent_built .baseline), ?_⟩
    rw [getElem?_insert, if_pos rfl]

/-! ## Turns -/

theorem tick_parts {now : Nat} {result : Except Error Nat}
    (htick : machine.tick now = some (result, later)) :
    ∃ clock trace, later = { machine with clock, trace } := by
  rw [tick] at htick
  split at htick
  · cases htick
    exact ⟨_, _, rfl⟩
  · obtain ⟨⟨_, ⟨trace, _⟩, clock⟩, -, hticked⟩ := Option.bind_eq_some_iff.mp htick
    cases hticked
    exact ⟨clock, trace, rfl⟩

/-- The block at hand is the one that is kept where the walker stands. -/
structure Session.IsPlaced (machine : Machine) (session : Session) : Prop where
  mayBecome : machine.MayBecome session.machine
  kept : session.machine.blocks[session.walker.ip]? = some session.block

/-- The turn leads to a machine that the machine may become, and to the next block if it goes on. -/
def Turn.Stays (machine : Machine) : Turn → Prop
  | next session => session.IsPlaced machine
  | stop later _ | fail later _ => machine.MayBecome later

variable {session : Session} {outcome : Turn}

theorem MayBecome.afterBlock (hlater : machine.MayBecome session.machine) {instructions : Nat}
    (hafter : session.afterBlock instructions = some outcome) : outcome.Stays machine := by
  obtain ⟨⟨result, ticked⟩, htick, hresult⟩ := Option.bind_eq_some_iff.mp hafter
  obtain ⟨clock, trace, hparts⟩ := tick_parts htick
  have hticked : machine.MayBecome ticked := hparts ▸ hlater.goOn clock trace
  cases result with
  | error reason =>
    cases hresult
    exact hticked
  | ok ticks =>
    dsimp only at hresult
    split at hresult
    · cases hresult
      exact hticked
    · split at hresult
      · cases hresult
        exact hticked
      · next hblockAt =>
        cases hresult
        obtain ⟨hfound, hkept⟩ := hticked.blockAt hblockAt
        exact ⟨hfound, hkept⟩

/-- After every turn all blocks that are kept are current, and the walker stands at the next one. The
block at hand goes back with its counter raised, and if it is replaced the walker has not moved. -/
theorem Session.IsPlaced.turn (hplaced : session.IsPlaced machine)
    (hturn : session.turn = some outcome) : outcome.Stays machine := by
  have hcurrent := hplaced.mayBecome.current _ _ hplaced.kept
  obtain ⟨hmemory, -, -⟩ := hplaced.mayBecome.fixed
  have hcounted := (hplaced.mayBecome.insert (hcurrent.counted session.machine.memory)).goOn
    session.machine.clock (session.machine.trace.pushBlock session.block)
  rw [Session.turn] at hturn
  simp only [Block.block_execute, hcurrent.start] at hturn
  split at hturn
  · exact MayBecome.afterBlock hcounted hturn
  · next other hreplaced =>
    have hother := hcurrent.replaced (hmemory ▸ hreplaced)
    rw [Block.execute_of_replaced hreplaced Walker.executor session.walker] at hturn
    cases hturn
    rw [hother.start]
    exact ⟨hcounted.insert hother, by rw [getElem?_insert, if_pos rfl]⟩
  · next fault _ =>
    cases hturn
    exact hcounted.goOn session.machine.clock _
  · cases hturn
    exact hcounted

/-! ## Runs -/

/-- A run of the machine comes to the head of its loop with the session. -/
inductive AtHead (machine : Machine) : Session → Prop
  | first {found : Machine} {block : Block}
      (hblockAt : machine.blockAt machine.entry = .ok (block, found)) :
      machine.AtHead { machine := found, walker := { ip := found.entry }, block, summary := {} }
  | next {session later : Session} (hhead : machine.AtHead session)
      (hbudget : session.summary.blocks < session.machine.maxBlocks)
      (hturn : session.turn = some (.next later)) : machine.AtHead later

/-- A run that is at the head of its loop ends there or in the turn that follows. -/
inductive Session.Ends (session : Session) : Machine → Prop
  | spent (hspent : ¬ session.summary.blocks < session.machine.maxBlocks) :
      session.Ends session.machine
  | stopped {later : Machine} {summary : RunSummary}
      (hturn : session.turn = some (.stop later summary)) : session.Ends later
  | failed {later : Machine} {reason : Error}
      (hturn : session.turn = some (.fail later reason)) : session.Ends later

/-- A machine as any number of runs leaves it. -/
inductive Leaves (machine : Machine) : Machine → Prop
  | unused : machine.Leaves machine
  | used {earlier later : Machine} {session : Session} (hleaves : machine.Leaves earlier)
      (hhead : earlier.AtHead session) (hends : session.Ends later) : machine.Leaves later

variable {ran : Machine} {result : Except Error RunSummary}

theorem AtHead.exists_ends {bound : Nat} (hhead : machine.AtHead session)
    (hfinish : session.finish bound = some (result, later)) :
    ∃ last, machine.AtHead last ∧ last.Ends later := by
  induction bound generalizing session with
  | zero =>
    -- Even without turns left a run can end, if its budget is used up.
    rw [Session.finish] at hfinish
    split at hfinish
    · cases hfinish
    · next hspent =>
      cases hfinish
      exact ⟨session, hhead, .spent hspent⟩
  | succ bound ih =>
    rw [Session.finish] at hfinish
    split at hfinish
    · next hbudget =>
      obtain ⟨turn, hturn, hgoesOn⟩ := Option.bind_eq_some_iff.mp hfinish
      cases turn with
      | next other => exact ih (hhead.next hbudget hturn) hgoesOn
      | stop machine summary =>
        cases hgoesOn
        exact ⟨session, hhead, .stopped hturn⟩
      | fail machine reason =>
        cases hgoesOn
        exact ⟨session, hhead, .failed hturn⟩
    · next hspent =>
      cases hfinish
      exact ⟨session, hhead, .spent hspent⟩

/-- The heads are those of the loop, so that whatever a run returns is left by it. -/
theorem Leaves.run (hleaves : machine.Leaves ran) (hrun : ran.run = some (result, later)) :
    machine.Leaves later := by
  rw [Machine.run] at hrun
  split at hrun
  · cases hrun
    exact hleaves
  · next hblockAt =>
    obtain ⟨last, hlast, hends⟩ := (AtHead.first hblockAt).exists_ends hrun
    exact hleaves.used hlast hends

theorem MayBecome.atHead (hran : machine.MayBecome ran) (hhead : ran.AtHead session) :
    session.IsPlaced machine := by
  induction hhead with
  | first hblockAt =>
    obtain ⟨hfound, hkept⟩ := hran.blockAt hblockAt
    rw [hran.fixed.2.2, ← hfound.fixed.2.2] at hkept
    exact ⟨hfound, hkept⟩
  | next _ _ hturn ih => exact ih.turn hturn

theorem Session.IsPlaced.ends (hplaced : session.IsPlaced machine) (hends : session.Ends later) :
    machine.MayBecome later := by
  cases hends with
  | spent _ => exact hplaced.mayBecome
  | stopped hturn => exact hplaced.turn hturn
  | failed hturn => exact hplaced.turn hturn

theorem MayBecome.of_leaves (hunused : machine.MayBecome machine) (hleaves : machine.Leaves ran) :
    machine.MayBecome ran := by
  induction hleaves with
  | unused => exact hunused
  | used _ hhead hends ih => exact (ih.atHead hhead).ends hends

/-- Under a threshold of one, the first turn promotes the block at the entry. -/
theorem IsFresh.exists_atHead_promoted (hfresh : machine.IsFresh) {instructions : List Instruction}
    (hblock : machine.guest.block? machine.entry = some instructions)
    (hthreshold : machine.manager.hotThreshold = some 1) (hbudget : 0 < machine.maxBlocks) :
    ∃ session, machine.AtHead session ∧ session.summary.replacements = 1 ∧
      session.block.tier? = some .optimised := by
  obtain ⟨found, -, hblockAt⟩ :=
    machine.keeps_empty.blockAt machine.clock machine.trace machine.entry
  rw [← hfresh.blocks, Promotion.dispatches, List.countP_nil, blockAfter_zero] at hblockAt
  let first : Session := {
    machine := { machine with blocks := found }
    walker := { ip := machine.entry }
    block := machine.builtBlock .baseline 0 machine.entry
    summary := {} }
  have hpromoted := execute_of_hot Walker.executor first.walker hblock hthreshold (Nat.le_refl 1)
  have hturn := turn_of_replaced first hpromoted start_builtBlock start_builtBlock
  refine ⟨_, (AtHead.first hblockAt).next hbudget hturn, rfl, ?_⟩
  rw [builtBlock_of_block? .optimised 0 hblock]
  rfl

variable {configuration : Configuration} {image : Array UInt8} {trace : Trace}

/-- However often a booted machine has been run: at every head of the loop the walker stands at the
start of the block that is about to be dispatched, and every block that is kept stands where it is
kept and is what the manager makes of the memory as it is then. -/
theorem atHead_matches (hboot : boot configuration image trace = .ok machine)
    (hleaves : machine.Leaves ran) (hhead : ran.AtHead session) :
    session.walker.ip = session.block.start ∧
      session.machine.blocks[session.walker.ip]? = some session.block ∧
      session.machine.memory = machine.memory ∧ session.machine.manager = machine.manager ∧
      ∀ offset block, session.machine.blocks[offset]? = some block →
        session.machine.manager.Matches configuration.machine.mode configuration.machine.code32
          session.machine.memory offset block := by
  have hbooted := isBooted_of_boot hboot
  have hunused : machine.MayBecome machine := by
    refine ⟨⟨_, _, _, rfl⟩, fun offset block hkept ↦ ?_⟩
    rw [hbooted.blocks] at hkept
    cases hkept
  obtain ⟨hmayBecome, hkept⟩ := (hunused.of_leaves hleaves).atHead hhead
  have hstart := (hmayBecome.current _ _ hkept).start
  obtain ⟨hmemory, hmanager, -⟩ := hmayBecome.fixed
  refine ⟨hstart.symm, hkept, hmemory, hmanager, fun offset block hblock ↦ ?_⟩
  rw [hmemory, hmanager, ← hbooted.mode, ← hbooted.code32]
  exact (hmayBecome.current offset block hblock).matches

/-- A machine that promotes a block when it is first executed. -/
def eagerly : Configuration where
  machine := { memorySize := 16 }
  core := { hotThreshold := some 1 }

/-- Two NOPs and a jump back to them: the head that the promotion of the loop leads to. -/
theorem atHead_matches_promoted :
    ∃ machine session, boot eagerly #[0x90, 0x90, 0xEB, 0xFC] .buffer = .ok machine ∧
      machine.AtHead session ∧ session.summary.replacements = 1 ∧
      session.block.tier? = some .optimised ∧ session.block.start = session.walker.ip ∧
      session.machine.manager.Matches .real false session.machine.memory session.walker.ip
        session.block := by
  have hlimit : minBlockLimit ≤ eagerly.core.blockLimit := by decide
  have hthreshold : eagerly.core.hotThreshold ≠ some 0 := by decide
  obtain ⟨machine, hboot⟩ := exists_boot eagerly #[0x90, 0x90, 0xEB, 0xFC] rfl hlimit hthreshold
    nofun .buffer
  have hbooted := isBooted_of_boot hboot
  have hpromotes : machine.manager.hotThreshold = some 1 := (Manager.build_eq_ok hbooted.manager).2
  have hbudget : 0 < machine.maxBlocks := by
    rw [hbooted.maxBlocks]
    decide
  have hloop : (boot eagerly #[0x90, 0x90, 0xEB, 0xFC] .buffer).toOption.map
      (fun machine ↦ (machine.guest.block? machine.entry).isSome) = some true := by cbv
  obtain ⟨instructions, hblock⟩ := Option.isSome_iff_exists.mp (eq_of_map_boot hboot hloop)
  obtain ⟨session, hhead, hreplacements, htier⟩ :=
    hbooted.isFresh.exists_atHead_promoted hblock hpromotes hbudget
  obtain ⟨hip, hkept, -, -, hmatches⟩ := atHead_matches hboot .unused hhead
  exact ⟨machine, session, hboot, hhead, hreplacements, htier, hip.symm, hmatches _ _ hkept⟩

end Machine

end GuestMachine

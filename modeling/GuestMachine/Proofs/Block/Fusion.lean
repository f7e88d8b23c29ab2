import GuestMachine.Block.Execute
import GuestMachine.Proofs.Instruction.Stream
import Mathlib.Algebra.Ring.Nat
import Mathlib.Data.List.Forall2

/-!
# Fusing NOPs

Each operation of a block stands for a group of neighbouring instructions, at both tiers: one
instruction, or the NOPs of a run. Running the operations of either tier therefore has the same
effect, for every executor that steps over a run of NOPs as it carries them out one by one. The
equality is shown for code that stands one after another in memory, and for executors whose skip may
depend on standing at the start of the run.
-/

namespace GuestMachine

namespace Op

open Instruction

/-- The operation stands for these instructions. It takes two NOPs to make a run. -/
inductive Covers : Op → List Instruction → Prop
  | single (instruction : Instruction) : Covers (ofInstruction instruction) [instruction]
  | run {first second : Instruction} {others : List Instruction} {length count : Nat}
      (nops : ∀ instruction ∈ first :: second :: others, instruction.isNop = true)
      (length_eq : length = ((first :: second :: others).map Instruction.length).sum)
      (count_eq : count = (first :: second :: others).length) :
      Covers (nopRun first.offset length count) (first :: second :: others)

theorem Covers.snoc {offset length count : Nat} {group : List Instruction}
    (h : Covers (nopRun offset length count) group) {instruction : Instruction}
    (hnop : instruction.isNop = true) :
    Covers (nopRun offset (length + instruction.length) (count + 1)) (group ++ [instruction]) := by
  generalize hop : nopRun offset length count = op at h
  cases h with
  | single only =>
    unfold ofInstruction at hop
    split at hop <;> cases hop
  | @run first second others _ _ hnops hlength hcount =>
    cases hop
    refine .run ?_ ?_ ?_
    · intro other hother
      have hother : other ∈ (first :: second :: others) ++ [instruction] := hother
      rw [List.mem_append, List.mem_singleton] at hother
      rcases hother with hother | rfl
      · exact hnops other hother
      · exact hnop
    · rw [hlength]
      simp [Nat.add_assoc]
    · rw [hcount]
      simp

theorem Covers.of_execute {previous : Instruction} {group : List Instruction}
    (h : Covers (.execute previous) group) : group = [previous] := by
  generalize hop : Op.execute previous = op at h
  cases h with
  | single only =>
    unfold ofInstruction at hop
    split at hop
    · cases hop
    · cases hop
      rfl
  | run => cases hop

/-- Adding an instruction adds it to the latest group or starts a new one. -/
theorem exists_covers_fuse {ops : List Op} {groups : List (List Instruction)}
    (h : List.Forall₂ Covers ops groups) (instruction : Instruction) :
    ∃ groups', List.Forall₂ Covers (fuse ops instruction) groups' ∧
      groups'.reverse.flatten = groups.reverse.flatten ++ [instruction] := by
  have hnew : ∃ groups', List.Forall₂ Covers (ofInstruction instruction :: ops) groups' ∧
      groups'.reverse.flatten = groups.reverse.flatten ++ [instruction] :=
    ⟨[instruction] :: groups, .cons (.single instruction) h, by simp⟩
  unfold fuse
  split
  · next offset length count earlier hnop =>
    cases h with
    | cons hlatest hearlier =>
      exact ⟨_, .cons (hlatest.snoc hnop) hearlier, by simp⟩
  · next previous earlier hnop =>
    split
    · next hprevious =>
      cases h with
      | cons hlatest hearlier =>
        obtain rfl := hlatest.of_execute
        refine ⟨[previous, instruction] :: _, .cons (.run ?_ ?_ rfl) hearlier, by simp⟩
        · intro other hother
          simp only [List.mem_cons, List.not_mem_nil, or_false] at hother
          rcases hother with rfl | rfl
          · exact hprevious
          · exact hnop
        · simp
    · exact hnew
  · exact hnew

theorem exists_covers_foldl (instructions : List Instruction) {ops : List Op}
    {groups : List (List Instruction)} (h : List.Forall₂ Covers ops groups) :
    ∃ groups', List.Forall₂ Covers (instructions.foldl fuse ops) groups' ∧
      groups'.reverse.flatten = groups.reverse.flatten ++ instructions := by
  induction instructions generalizing ops groups with
  | nil => exact ⟨groups, h, (List.append_nil _).symm⟩
  | cons instruction rest ih =>
    obtain ⟨groups₁, hfuse, hflatten₁⟩ := exists_covers_fuse h instruction
    obtain ⟨groups₂, hrest, hflatten₂⟩ := ih hfuse
    exact ⟨groups₂, hrest, by simp [hflatten₂, hflatten₁]⟩

theorem ofInstruction_of_valid {instruction : Instruction}
    (hvalid : ∀ fault, instruction.flow ≠ .invalid fault) :
    ofInstruction instruction = execute instruction := by
  unfold ofInstruction
  split
  · next fault hflow => exact absurd hflow (hvalid fault)
  · rfl

theorem forall₂_covers_map (instructions : List Instruction) :
    List.Forall₂ Covers (instructions.map ofInstruction) (instructions.map ([·])) := by
  induction instructions with
  | nil => exact .nil
  | cons instruction rest ih => exact .cons (.single instruction) ih

end Op

/-- At both tiers the operations of a block stand for its instructions, group by group. -/
theorem Tier.compile_covers (tier : Tier) (instructions : List Instruction) :
    ∃ groups, List.Forall₂ Op.Covers (tier.compile instructions) groups ∧
      groups.flatten = instructions := by
  cases tier with
  | baseline => exact ⟨instructions.map ([·]), Op.forall₂_covers_map instructions,
      by rw [← List.flatMap_def, List.flatMap_singleton']⟩
  | optimised =>
    obtain ⟨groups, hcovers, hflatten⟩ := Op.exists_covers_foldl instructions .nil
    exact ⟨groups.reverse, List.forall₂_reverse_iff.mpr hcovers, by simpa using hflatten⟩

/-! ## Running either tier -/

/-- The one-byte NOPs of a run. -/
def Instruction.nops (size32 : Bool) (offset count : Nat) : List Instruction :=
  (List.range' offset count).map (nop size32)

theorem Instruction.nops_succ (size32 : Bool) (offset count : Nat) :
    nops size32 offset (count + 1) = nop size32 offset :: nops size32 (offset + 1) count := by
  rw [nops, List.range'_succ]
  rfl

namespace Executor

open Instruction

variable {σ : Type} {executor : Executor σ}

/-- The executor carries out all of the instructions without leaving between or after them. -/
def CarriesOut (executor : Executor σ) : List Instruction → σ → σ → Prop
  | [], state, state' => state' = state
  | instruction :: rest, state, state' =>
    ∃ middle, executor.execute instruction state = (.ok .proceed, middle) ∧
      executor.CarriesOut rest middle state'

/-- Where the executor stands at an offset, as `stands` says, it may step over a run of NOPs there
instead of carrying them out; and after an instruction it stands at the next. There are at least two
NOPs in a run. -/
structure SkipsNops (executor : Executor σ) (size32 : Bool) (stands : Nat → σ → Prop) : Prop where
  skip {offset count : Nat} {state : σ} : 2 ≤ count → stands offset state →
    executor.CarriesOut (nops size32 offset count) state (executor.skip count count state)
  proceeds {instruction : Instruction} {state state' : σ} : stands instruction.offset state →
    executor.execute instruction state = (.ok .proceed, state') → stands instruction.next state'

theorem SkipsNops.lands {size32 : Bool} {stands : Nat → σ → Prop}
    (h : executor.SkipsNops size32 stands) {offset count : Nat} {state state' : σ}
    (hstands : stands offset state)
    (hcarries : executor.CarriesOut (nops size32 offset count) state state') :
    stands (offset + count) state' := by
  induction count generalizing offset state with
  | zero =>
    cases hcarries
    exact hstands
  | succ count ih =>
    obtain ⟨middle, hfirst, hrest⟩ := hcarries
    have hnext : stands (nop size32 offset).next middle := h.proceeds hstands hfirst
    rw [Nat.add_comm count 1, ← Nat.add_assoc]
    exact ih hnext hrest

theorem runOps_of_carriesOut {instructions : List Instruction} {state state' : σ}
    (h : executor.CarriesOut instructions state state') (rest : List Op) (done : Nat) :
    runOps executor (instructions.map .execute ++ rest) done state =
      runOps executor rest (done + instructions.length) state' := by
  induction instructions generalizing state done with
  | nil =>
    cases h
    rfl
  | cons instruction others ih =>
    obtain ⟨middle, hfirst, hothers⟩ := h
    rw [List.map_cons, List.cons_append, runOps, hfirst]
    dsimp only
    rw [ih hothers, List.length_cons, Nat.add_assoc, Nat.add_comm 1]

end Executor

namespace Instruction

variable {mode : Mode} {size32 : Bool} {memory : Memory}

/-- NOPs that stand one after another are the NOPs of a run. -/
theorem IsStraight.eq_nops {offset : Nat} {instructions rest : List Instruction}
    (h : IsStraight mode size32 memory offset (instructions ++ rest))
    (hnops : ∀ instruction ∈ instructions, instruction.isNop = true) :
    instructions = nops size32 offset instructions.length ∧
      IsStraight mode size32 memory (offset + instructions.length) rest := by
  induction instructions generalizing offset with
  | nil => exact ⟨rfl, h⟩
  | cons instruction others ih =>
    obtain ⟨hat, -, hothers⟩ := h
    obtain ⟨rfl, -⟩ := ofMemory?_isNop hat (hnops instruction List.mem_cons_self)
    obtain ⟨heq, hrest⟩ := ih hothers fun other hother ↦ hnops other (List.mem_cons_of_mem _ hother)
    refine ⟨congrArg (nop size32 offset :: ·) heq, ?_⟩
    rw [List.length_cons, Nat.add_comm others.length 1, ← Nat.add_assoc]
    exact hrest

theorem sum_length_nops (offset count : Nat) :
    ((nops size32 offset count).map length).sum = count := by
  induction count generalizing offset with
  | zero => rfl
  | succ count ih =>
    rw [nops_succ, List.map_cons, List.sum_cons, ih]
    exact Nat.add_comm 1 count

end Instruction

open Instruction Executor in
/-- Running operations has the effect of carrying out the instructions that they stand for. -/
theorem runOps_covers {σ : Type} {executor : Executor σ} {mode : Mode} {size32 : Bool}
    {memory : Memory} {stands : Nat → σ → Prop} (hskips : executor.SkipsNops size32 stands)
    {ops : List Op} {groups : List (List Instruction)}
    (hcovers : List.Forall₂ Op.Covers ops groups) {offset : Nat} {state : σ}
    (hstraight : IsStraight mode size32 memory offset groups.flatten)
    (hstands : stands offset state) (done : Nat) :
    runOps executor ops done state =
      runOps executor (groups.flatten.map Op.ofInstruction) done state := by
  induction hcovers generalizing offset state done with
  | nil => rfl
  | @cons op group ops groups hop hrest ih =>
    rw [List.flatten_cons] at hstraight ⊢
    cases hop with
    | single instruction =>
      obtain ⟨hat, -, hstraight⟩ := hstraight
      obtain ⟨hoffset, -, -⟩ := ofMemory?_eq_some hat
      rw [List.singleton_append, List.map_cons]
      unfold Op.ofInstruction
      split
      · rfl
      · rw [runOps, runOps]
        cases hresult : executor.execute instruction state with
        | mk progress state' =>
          rcases progress with reason | progress
          · rfl
          · cases progress with
            | proceed =>
              have hnext := hskips.proceeds (hoffset ▸ hstands) hresult
              exact ih hstraight hnext (done + 1)
            | leave => rfl
    | @run first second others length count hnops hlength hcount =>
      have htwo : 2 ≤ count := hcount ▸ Nat.le_add_left 2 others.length
      obtain ⟨hgroup, hstraight'⟩ := hstraight.eq_nops hnops
      rw [← hcount] at hgroup hstraight'
      have hlength : length = count := by rw [hlength, hgroup, sum_length_nops]
      have hcarries := hskips.skip htwo hstands
      have hops : (first :: second :: others).map Op.ofInstruction =
          (nops size32 offset count).map Op.execute := by
        rw [hgroup]
        simp only [nops, List.map_map]
        rfl
      rw [List.map_append, hops, runOps_of_carriesOut hcarries, runOps, hlength]
      have hcount' : (nops size32 offset count).length = count := by simp [nops]
      rw [hcount']
      exact ih hstraight' (hskips.lands hstands hcarries) (done + count)

open Instruction Executor in
/-- A block runs alike at both tiers: as its instructions would one by one. -/
theorem runOps_compile {σ : Type} {executor : Executor σ} {mode : Mode} {size32 : Bool}
    {memory : Memory} {stands : Nat → σ → Prop} (hskips : executor.SkipsNops size32 stands)
    {offset : Nat} {instructions : List Instruction} {state : σ}
    (hstraight : IsStraight mode size32 memory offset instructions)
    (hstands : stands offset state) (tier : Tier) :
    runOps executor (tier.compile instructions) 0 state =
      runOps executor (instructions.map Op.ofInstruction) 0 state := by
  obtain ⟨groups, hcovers, rfl⟩ := tier.compile_covers instructions
  exact runOps_covers hskips hcovers hstraight hstands 0

end GuestMachine

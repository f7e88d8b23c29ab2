import GuestMachine.Proofs.Block.Fitting
import Mathlib.Data.List.Chain

/-!
# Fused operations

Taking every run of NOPs apart gives back the operations of the baseline, so that fusing loses and
adds nothing. At both tiers the operations lie one behind the other over the bytes of the block.
Fusing leaves no two neighbours that stand for NOPs: a NOP either joins the operation before it,
whose length and count then grow by one, or that operation does not stand for NOPs.
-/

namespace GuestMachine

open Instruction

namespace Instruction

variable {mode : Mode} {size32 : Bool} {limit : Nat} {cursor final : Cursor}
  {instructions : List Instruction}

theorem block?_of_decodeBlock
    (hdecode : decodeBlock mode size32 limit cursor = .ok instructions final) :
    (stream mode size32 cursor.memory (max limit 1) cursor.offset).block? = some instructions := by
  have hread := decodeBlock_eq mode size32 limit cursor
  cases hblock : (stream mode size32 cursor.memory (max limit 1) cursor.offset).block? with
  | none =>
    rw [hblock, hdecode] at hread
    cases hread
  | some found =>
    rw [hblock, hdecode] at hread
    obtain ⟨_, hread⟩ := hread
    cases hread
    rfl

/-- What is decoded as a block stands one after another from the cursor, and is not empty. -/
theorem isStraight_of_decodeBlock
    (hdecode : decodeBlock mode size32 limit cursor = .ok instructions final) :
    instructions ≠ [] ∧ IsStraight mode size32 cursor.memory cursor.offset instructions :=
  isStraight_of_block? (block?_of_decodeBlock hdecode)

end Instruction

namespace Op

/-- The operations that the baseline has instead. -/
def unfused (size32 : Bool) : Op → List Op
  | nopRun offset _ count => (nops size32 offset count).map execute
  | op => [op]

/-- The operation stands for NOPs, or for a single one. -/
def isNops : Op → Bool
  | execute instruction => instruction.isNop
  | nopRun _ _ _ => true
  | raise _ _ _ => false

/-- The operations lie one behind the other from `start` up to `stop`, and none is empty. -/
def Tile : Nat → List Op → Nat → Prop
  | start, [], stop => start = stop
  | start, op :: rest, stop =>
    op.offset = start ∧ 0 < op.length ∧ Tile (start + op.length) rest stop

section

variable (instruction : Instruction)

@[simp]
theorem offset_ofInstruction : (ofInstruction instruction).offset = instruction.offset := by
  unfold ofInstruction
  split <;> rfl

@[simp]
theorem length_ofInstruction : (ofInstruction instruction).length = instruction.length := by
  unfold ofInstruction
  split <;> rfl

@[simp]
theorem unfused_ofInstruction (size32 : Bool) :
    (ofInstruction instruction).unfused size32 = [ofInstruction instruction] := by
  unfold ofInstruction
  split <;> rfl

end

/-! ## Bytes -/

section

variable {op : Op} {group rest : List Instruction} {ops : List Op}
  {groups : List (List Instruction)} {mode : Mode} {size32 : Bool} {memory : Memory} {offset : Nat}

/-- An operation lies where its instructions stand, over as many bytes, and the baseline has their
operations instead of it. -/
theorem Covers.of_isStraight (hcovers : op.Covers group)
    (hstraight : IsStraight mode size32 memory offset (group ++ rest)) :
    op.offset = offset ∧ 0 < op.length ∧ op.unfused size32 = group.map ofInstruction ∧
      IsStraight mode size32 memory (offset + op.length) rest := by
  cases hcovers with
  | single instruction =>
    obtain ⟨hat, -, hrest⟩ := hstraight
    obtain ⟨rfl, hlength, -⟩ := ofMemory?_eq_some hat
    simp only [offset_ofInstruction, length_ofInstruction, unfused_ofInstruction]
    exact ⟨trivial, hlength, rfl, hrest⟩
  | @run first second others length count hnops hlength hcount =>
    obtain ⟨hgroup, hrest⟩ := hstraight.eq_nops hnops
    obtain ⟨hoffset, -, -⟩ := ofMemory?_eq_some hstraight.1
    rw [← hcount] at hgroup hrest
    obtain rfl : length = count := by rw [hlength, hgroup, sum_length_nops]
    have hpos : 0 < length := hcount ▸ Nat.succ_pos _
    refine ⟨hoffset, hpos, ?_, hrest⟩
    rw [unfused, hoffset, hgroup]
    simp only [nops, List.map_map]
    rfl

theorem tile_of_covers (hcovers : List.Forall₂ Covers ops groups)
    (hstraight : IsStraight mode size32 memory offset groups.flatten) :
    Tile offset ops (offset + (ops.map length).sum) := by
  induction hcovers generalizing offset with
  | nil => rfl
  | cons hfirst _ ih =>
    obtain ⟨hoffset, hlength, -, hrest⟩ := hfirst.of_isStraight hstraight
    rw [List.map_cons, List.sum_cons, ← Nat.add_assoc]
    exact ⟨hoffset, hlength, ih hrest⟩

theorem flatMap_unfused_of_covers (hcovers : List.Forall₂ Covers ops groups)
    (hstraight : IsStraight mode size32 memory offset groups.flatten) :
    ops.flatMap (unfused size32) = groups.flatten.map ofInstruction := by
  induction hcovers generalizing offset with
  | nil => rfl
  | cons hfirst _ ih =>
    obtain ⟨-, -, hunfused, hrest⟩ := hfirst.of_isStraight hstraight
    rw [List.flatMap_cons, hunfused, ih hrest, List.flatten_cons, List.map_append]

end

/-! ## Neighbours -/

/-- What holds of fused operations, which are given latest first. The single NOPs are part of it, as
the next instruction may turn the latest of them into a run. -/
structure IsFused (ops : List Op) : Prop where
  runs (offset length count : Nat) : nopRun offset length count ∈ ops → length = count ∧ 2 ≤ count
  singles (instruction : Instruction) :
    execute instruction ∈ ops → instruction.isNop = true → instruction.length = 1
  apart : ops.IsChain fun later earlier ↦ ¬ (later.isNops = true ∧ earlier.isNops = true)

theorem isFused_nil : IsFused [] where
  runs _ _ _ h := nomatch h
  singles _ h := nomatch h
  apart := .nil

variable {ops earlier : List Op} {instruction : Instruction}

/-- The latest operation may become a run, if it stands for NOPs already. -/
theorem IsFused.grow {latest : Op} (h : IsFused (latest :: earlier))
    (hlatest : latest.isNops = true) (offset : Nat) {count : Nat} (hcount : 2 ≤ count) :
    IsFused (nopRun offset count count :: earlier) where
  runs _ _ _ hmem := by
    rcases List.mem_cons.mp hmem with hnew | hold
    · cases hnew
      exact ⟨rfl, hcount⟩
    · exact h.runs _ _ _ (List.mem_cons_of_mem _ hold)
  singles other hmem := by
    rcases List.mem_cons.mp hmem with hnew | hold
    · cases hnew
    · exact h.singles other (List.mem_cons_of_mem _ hold)
  apart := by
    have hapart := h.apart
    rw [List.isChain_cons, hlatest] at hapart
    rw [List.isChain_cons]
    exact hapart

/-- An instruction becomes an operation of its own, if it is no NOP or the latest operation does not
stand for NOPs. -/
theorem IsFused.push (h : IsFused ops)
    (hlength : instruction.isNop = true → instruction.length = 1)
    (hlatest : instruction.isNop = true → ∀ latest ∈ ops.head?, latest.isNops = false) :
    IsFused (ofInstruction instruction :: ops) where
  runs _ _ _ hmem := by
    rcases List.mem_cons.mp hmem with hnew | hold
    · unfold ofInstruction at hnew
      split at hnew <;> cases hnew
    · exact h.runs _ _ _ hold
  singles other hmem := by
    rcases List.mem_cons.mp hmem with hnew | hold
    · unfold ofInstruction at hnew
      split at hnew
      · cases hnew
      · cases hnew
        exact hlength
    · exact h.singles other hold
  apart := by
    rw [List.isChain_cons]
    refine ⟨fun latest hmem ⟨hnew, hold⟩ ↦ ?_, h.apart⟩
    have hnop : instruction.isNop = true := by
      unfold ofInstruction at hnew
      split at hnew
      · cases hnew
      · exact hnew
    rw [hlatest hnop latest hmem] at hold
    cases hold

/-- Fusing one more instruction keeps the operations fused: a NOP grows the latest operation if that
stands for NOPs, and all else becomes an operation of its own. -/
theorem IsFused.fuse (h : IsFused ops)
    (hlength : instruction.isNop = true → instruction.length = 1) :
    IsFused (fuse ops instruction) := by
  fun_cases Op.fuse ops instruction with
  | case1 offset length count earlier hnop =>
    obtain ⟨rfl, hcount⟩ := h.runs offset length count List.mem_cons_self
    rw [hlength hnop]
    exact h.grow rfl offset (Nat.le_succ_of_le hcount)
  | case2 previous earlier hnop hprevious =>
    rw [hlength hnop, h.singles previous List.mem_cons_self hprevious]
    exact h.grow hprevious previous.offset le_rfl
  | case3 previous earlier hnop hprevious =>
    refine h.push hlength fun _ latest hlatest ↦ ?_
    cases hlatest
    exact Bool.eq_false_iff.mpr hprevious
  | case4 _ hrun hexecute =>
    refine h.push hlength fun hnop latest hlatest ↦ ?_
    have hops := List.cons_head?_tail hlatest
    cases latest with
    | execute previous => exact (hexecute previous _ hnop hops.symm).elim
    | nopRun offset length count => exact (hrun offset length count _ hnop hops.symm).elim
    | raise => rfl

theorem IsFused.foldl {instructions : List Instruction} (h : IsFused ops)
    (hlength : ∀ instruction ∈ instructions, instruction.isNop = true → instruction.length = 1) :
    IsFused (instructions.foldl Op.fuse ops) := by
  induction instructions generalizing ops with
  | nil => exact h
  | cons instruction rest ih =>
    refine ih (h.fuse (hlength instruction List.mem_cons_self)) fun other hother ↦ ?_
    exact hlength other (List.mem_cons_of_mem _ hother)

end Op

namespace Tier

variable {mode : Mode} {size32 : Bool} {limit : Nat} {cursor final : Cursor}
  {instructions : List Instruction}

/-- The latest operation comes first while instructions are fused, and last once they are. -/
theorem isFused_compile
    (hstraight : IsStraight mode size32 cursor.memory cursor.offset instructions) :
    Op.IsFused (optimised.compile instructions).reverse := by
  rw [compile, List.reverse_reverse]
  refine Op.isFused_nil.foldl fun instruction hmem hnop ↦ ?_
  rw [(ofMemory?_isNop (hstraight.ofMemory?_of_mem hmem) hnop).1]
  rfl

/-- The operations of a block lie over its bytes, at both tiers. -/
theorem tile_compile (tier : Tier)
    (hstraight : IsStraight mode size32 cursor.memory cursor.offset instructions) :
    Op.Tile cursor.offset (tier.compile instructions) (stopOf cursor.offset instructions) := by
  rw [hstraight.stopOf_eq, ← tier.sum_length_compile]
  obtain ⟨groups, hcovers, rfl⟩ := tier.compile_covers instructions
  exact Op.tile_of_covers hcovers hstraight

theorem flatMap_unfused_compile
    (hstraight : IsStraight mode size32 cursor.memory cursor.offset instructions) :
    (optimised.compile instructions).flatMap (Op.unfused size32) =
      baseline.compile instructions := by
  obtain ⟨groups, hcovers, rfl⟩ := optimised.compile_covers instructions
  exact Op.flatMap_unfused_of_covers hcovers hstraight

/-- Fusing is exact and leaves nothing to fuse, whatever is decoded as a block. -/
theorem compile_fuses (hdecode : decodeBlock mode size32 limit cursor = .ok instructions final) :
    (optimised.compile instructions).flatMap (Op.unfused size32) = baseline.compile instructions ∧
      (∃ first last, instructions.head? = some first ∧ instructions.getLast? = some last ∧
        ∀ tier : Tier, Op.Tile first.offset (tier.compile instructions) last.next ∧
          ((tier.compile instructions).map Op.count).sum = instructions.length) ∧
      (∀ offset length count, .nopRun offset length count ∈ optimised.compile instructions →
        length = count ∧ 2 ≤ count) ∧
      (optimised.compile instructions).IsChain fun earlier later ↦
        ¬ (earlier.isNops = true ∧ later.isNops = true) := by
  obtain ⟨hne, hstraight⟩ := isStraight_of_decodeBlock hdecode
  have hfused := isFused_compile hstraight
  refine ⟨flatMap_unfused_compile hstraight, ?_, fun offset length count hmem ↦ ?_, ?_⟩
  · have hlast := List.getLast?_eq_some_getLast hne
    obtain ⟨first, rest, rfl⟩ := List.exists_cons_of_ne_nil hne
    refine ⟨first, _, rfl, hlast, fun tier ↦ ⟨?_, tier.sum_count_compile _⟩⟩
    have htile := tier.tile_compile hstraight
    rw [stopOf, hlast] at htile
    rw [(ofMemory?_eq_some hstraight.1).1]
    exact htile
  · exact hfused.runs offset length count (List.mem_reverse.mpr hmem)
  · exact (List.isChain_reverse.mp hfused.apart).imp fun _ _ hapart h ↦ hapart h.symm

/-- Three NOPs, then one that stands alone and one with a prefix. -/
def nopCode : Cursor := .start (.rom #[0x90, 0x90, 0x90, 0x40, 0x90, 0x66, 0x90, 0xC3]) 0

theorem compile_fuses_nopCode : ∃ instructions final,
    decodeBlock .real false 100 nopCode = .ok instructions final ∧
      (optimised.compile instructions).map (fun op ↦ (op.offset, op.length, op.count)) =
        [(0, 3, 3), (3, 1, 1), (4, 1, 1), (5, 2, 1), (7, 1, 1)] ∧
      (optimised.compile instructions).map Op.isNops = [true, false, true, false, false] ∧
      (optimised.compile instructions).flatMap (Op.unfused false) =
        baseline.compile instructions := by
  have hread : match decodeBlock .real false 100 nopCode with
      | .ok instructions _ =>
        (optimised.compile instructions).map (fun op ↦ (op.offset, op.length, op.count)) =
            [(0, 3, 3), (3, 1, 1), (4, 1, 1), (5, 2, 1), (7, 1, 1)] ∧
          (optimised.compile instructions).map Op.isNops = [true, false, true, false, false]
      | .error _ _ => False := by
    cbv
  cases hdecode : decodeBlock .real false 100 nopCode with
  | ok instructions final =>
    rw [hdecode] at hread
    exact ⟨instructions, final, rfl, hread.1, hread.2, (compile_fuses hdecode).1⟩
  | error reason final =>
    rw [hdecode] at hread
    exact hread.elim

end Tier

end GuestMachine

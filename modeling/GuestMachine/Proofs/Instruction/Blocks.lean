import GuestMachine.Proofs.Instruction.WholeStream
import Mathlib.Data.List.DropRight

/-!
# Blocks of a stream

What is decoded as a block is settled by the stream of instructions and the limit. As many
instructions are taken as the limit allows, at least one, and those at the end that hold off
interrupts are left out, the first excepted. No block is decoded where the region holds no whole
instruction, and where there is only one, which holds off interrupts, is followed by the end of the
region and would not have been the last for the limit's sake.
-/

namespace GuestMachine

namespace Instruction

/-! ## Shadows at the end -/

/-- Leaves out the instructions at the end that hold off interrupts, but never the first. -/
def withoutShadows : List Instruction → List Instruction
  | [] => []
  | first :: rest => first :: rest.rdropWhile (·.flow.isShadow)

theorem withoutShadows_isPrefix (instructions : List Instruction) :
    withoutShadows instructions <+: instructions := by
  cases instructions with
  | nil => exact List.prefix_rfl
  | cons first rest => exact List.cons_prefix_cons.mpr ⟨rfl, List.rdropWhile_prefix _ _⟩

theorem withoutShadows_ne_nil {instructions : List Instruction} (hne : instructions ≠ []) :
    withoutShadows instructions ≠ [] := by
  cases instructions with
  | nil => exact absurd rfl hne
  | cons first rest => exact List.cons_ne_nil _ _

/-- One that holds off interrupts is left at the end only where all of them do. -/
theorem withoutShadows_eq_singleton {instructions : List Instruction} {last : Instruction}
    (hlast : last ∈ (withoutShadows instructions).getLast?) (hshadow : last.flow.isShadow = true) :
    withoutShadows instructions = [last] ∧
      ∃ rest, instructions = last :: rest ∧ ∀ other ∈ rest, other.flow.isShadow = true := by
  cases instructions with
  | nil => cases hlast
  | cons first rest =>
    rw [withoutShadows] at hlast ⊢
    by_cases hdrop : rest.rdropWhile (·.flow.isShadow) = []
    · rw [hdrop] at hlast ⊢
      obtain rfl : first = last := Option.some.inj hlast
      exact ⟨rfl, rest, rfl, List.rdropWhile_eq_nil_iff.mp hdrop⟩
    · have hkept := List.rdropWhile_last_not (·.flow.isShadow) rest hdrop
      rw [List.getLast?_cons, List.getLast?_eq_some_getLast hdrop] at hlast
      obtain rfl : (rest.rdropWhile (·.flow.isShadow)).getLast hdrop = last :=
        Option.some.inj hlast
      exact absurd hshadow hkept

/-- After the first instruction, dropping from the latest on is dropping from the end. -/
theorem dropShadows_concat (latestFirst : List Instruction) (first : Instruction) :
    dropShadows (latestFirst ++ [first]) =
      latestFirst.dropWhile (·.flow.isShadow) ++ [first] := by
  induction latestFirst with
  | nil => rfl
  | cons last earlier ih =>
    have hearlier : earlier ++ [first] ≠ [] := List.append_ne_nil_of_right_ne_nil _ (by simp)
    rw [List.cons_append, List.dropWhile_cons]
    cases hshadow : last.flow.isShadow with
    | true => rw [dropShadows_cons hshadow hearlier, ih, if_pos rfl]
    | false =>
      obtain ⟨previous, others, hsplit⟩ := List.exists_cons_of_ne_nil hearlier
      rw [if_neg Bool.false_ne_true, hsplit, dropShadows, hshadow, if_neg Bool.false_ne_true,
        List.cons_append, hsplit]

theorem reverse_dropShadows_reverse {instructions : List Instruction} (hne : instructions ≠ []) :
    (dropShadows instructions.reverse).reverse = withoutShadows instructions := by
  cases instructions with
  | nil => exact absurd rfl hne
  | cons first rest =>
    rw [List.reverse_cons, dropShadows_concat, List.reverse_append, withoutShadows,
      List.rdropWhile]
    rfl

/-! ## Streams with less room -/

/-- The stream as far as there is room for it. -/
def Stream.within (stream : Stream) (room : Nat) : Stream where
  instructions := stream.instructions.take room
  isCut := stream.isCut && decide (stream.instructions.length < room)

variable {mode : Mode} {size32 : Bool} {memory : Memory}

theorem stream_eq_within (mode : Mode) (size32 : Bool) (memory : Memory) (room offset : Nat) :
    stream mode size32 memory room offset =
      (wholeStream mode size32 memory offset).within room := by
  induction room generalizing offset with
  | zero => simp [stream, Stream.within]
  | succ room ih =>
    rw [stream, wholeStream_eq]
    cases ofMemory? mode size32 memory offset with
    | none => simp [Stream.within]
    | some instruction =>
      dsimp only
      split
      · simp [Stream.within]
      · simp [ih, Stream.within, Stream.behind]

theorem ofMemory?_of_isCut {room offset : Nat}
    (hcut : (stream mode size32 memory room offset).isCut = true) :
    ofMemory? mode size32 memory
      (stopOf offset (stream mode size32 memory room offset).instructions) = none := by
  induction room generalizing offset with
  | zero => cases hcut
  | succ room ih =>
    unfold stream at hcut ⊢
    cases hat : ofMemory? mode size32 memory offset with
    | none => exact hat
    | some instruction =>
      rw [hat] at hcut
      by_cases hend : instruction.flow.isTerminator = true
      · simp only [hend, if_true] at hcut
        cases hcut
      · simp only [hend, if_false, Bool.false_eq_true, stopOf_cons] at hcut ⊢
        exact ih hcut

/-- The cursor behind the stream that starts at it. -/
def behindStream (mode : Mode) (size32 : Bool) (cursor : Cursor) : Cursor :=
  let whole := wholeStream mode size32 cursor.memory cursor.offset
  { cursor with offset := stopOf cursor.offset whole.instructions }

/-- The error that cuts a stream off is the one that a scan from its start runs into. -/
theorem decode_behindStream {cursor : Cursor}
    (hcut : (wholeStream mode size32 cursor.memory cursor.offset).isCut = true) :
    decode mode size32 (behindStream mode size32 cursor) =
      .error cursor.endError cursor.atEnd := by
  have hnone := ofMemory?_of_isCut hcut
  have hstraight := wholeStream_isStraight mode size32 cursor.memory cursor.offset
  rw [← wholeStream] at hnone
  have hreach : max (behindStream mode size32 cursor).offset cursor.memory.size =
      max cursor.offset cursor.memory.size := by
    rw [behindStream]
    by_cases hnil : (wholeStream mode size32 cursor.memory cursor.offset).instructions = []
    · rw [hnil]
      rfl
    · obtain ⟨hfirst, hlast⟩ := hstraight.within_size hnil
      rw [Nat.max_eq_right (Nat.le_of_lt hfirst)]
      exact Nat.max_eq_right hlast
  have hmemory : (behindStream mode size32 cursor).memory = cursor.memory := rfl
  rw [decode_eq, hmemory, behindStream, hnone, ← behindStream, Cursor.endError, Cursor.atEnd,
    hmemory, hreach]
  rfl

/-! ## Blocks -/

/-- A limit takes no block of the stream: there is no instruction, or the only one holds off
interrupts, the region cuts off its successor, and the limit would allow for that. -/
def Stream.Lacks (stream : Stream) (limit : Nat) : Prop :=
  stream.instructions = [] ∨
    2 ≤ limit ∧ stream.isCut = true ∧
      ∃ shadow : Instruction, stream.instructions = [shadow] ∧ shadow.flow.isShadow = true

theorem Stream.block?_within_of_lacks {stream : Stream} {limit : Nat}
    (hlacks : stream.Lacks limit) : (stream.within (max limit 1)).block? = none := by
  rcases hlacks with hnil | ⟨hlimit, hcut, shadow, honly, hshadow⟩
  · rw [block?, within, hnil, List.take_nil]
  · have hroom : 1 < max limit 1 := Nat.lt_of_lt_of_le hlimit (Nat.le_max_left _ _)
    have htake : [shadow].take (max limit 1) = [shadow] :=
      List.take_of_length_le (Nat.le_of_lt hroom)
    simp only [block?, within, honly, htake, hcut, hshadow, List.length_singleton, hroom,
      decide_true, Bool.and_self, if_true]

theorem Stream.block?_within_of_not_lacks {stream : Stream} {limit : Nat}
    (hlacks : ¬ stream.Lacks limit) : (stream.within (max limit 1)).block? =
      some (withoutShadows (stream.instructions.take (max limit 1))) := by
  rw [Lacks, not_or] at hlacks
  obtain ⟨hne, hlone⟩ := hlacks
  match htake : stream.instructions.take (max limit 1) with
  | [] =>
    rcases List.take_eq_nil_iff.mp htake with hzero | hnil
    · omega
    · exact absurd hnil hne
  | [only] =>
    -- Either the limit is what makes the instruction the last, or the stream has no other.
    have hkept : ¬ (stream.isCut && decide (stream.instructions.length < max limit 1) &&
        only.flow.isShadow) = true := by
      simp only [Bool.and_eq_true, decide_eq_true_eq]
      rintro ⟨⟨hcut, hroom⟩, hshadow⟩
      rw [List.take_of_length_le (Nat.le_of_lt hroom)] at htake
      rw [htake, List.length_singleton] at hroom
      exact hlone ⟨by omega, hcut, only, htake, hshadow⟩
    simp only [block?, within, htake, if_neg hkept]
    rfl
  | first :: second :: others =>
    simp only [block?, within, htake]
    rw [reverse_dropShadows_reverse (List.cons_ne_nil _ _)]

/-- What is known of the instructions of a block: their number, that they stand one after another,
of which only the last may end a block, and that with room for a second one a last one that holds off
interrupts stands alone and has a whole successor, which holds them off too. -/
structure IsTakenWithin (mode : Mode) (size32 : Bool) (memory : Memory) (limit offset : Nat)
    (block : List Instruction) : Prop where
  length_pos : 1 ≤ block.length
  length_le : block.length ≤ max limit 1
  straight : IsStraight mode size32 memory offset block
  not_terminator : ∀ instruction ∈ block.dropLast, instruction.flow.isTerminator = false
  followed : 2 ≤ limit → ∀ last ∈ block.getLast?, last.flow.isShadow = true →
    block = [last] ∧ ∃ successor ∈ ofMemory? mode size32 memory last.next,
      successor.flow.isShadow = true

/-- With room for a second instruction, one that holds off interrupts and is the whole of a stream is
followed by the end of the region. -/
theorem isCut_of_take_eq_singleton {limit offset : Nat} {shadow : Instruction} (hlimit : 2 ≤ limit)
    (htake : (wholeStream mode size32 memory offset).instructions.take limit = [shadow])
    (hshadow : shadow.flow.isShadow = true) :
    (wholeStream mode size32 memory offset).isCut = true ∧
      (wholeStream mode size32 memory offset).instructions = [shadow] := by
  obtain ⟨room, rfl⟩ := Nat.exists_eq_add_of_le' hlimit
  have hwithin := stream_eq_within mode size32 memory (room + 2) offset
  have honly : (stream mode size32 memory (room + 2) offset).instructions = [shadow] := by
    rw [hwithin]
    exact htake
  obtain ⟨hcut, -, -⟩ := stream_eq_singleton honly hshadow
  rw [hwithin, Stream.within, Bool.and_eq_true, decide_eq_true_eq] at hcut
  rw [List.take_of_length_le (Nat.le_of_lt hcut.2)] at htake
  exact ⟨hcut.1, htake⟩

theorem isTakenWithin_withoutShadows {limit offset : Nat}
    (hlacks : ¬ (wholeStream mode size32 memory offset).Lacks limit) :
    IsTakenWithin mode size32 memory limit offset
      (withoutShadows ((wholeStream mode size32 memory offset).instructions.take (max limit 1))) := by
  have hne : (wholeStream mode size32 memory offset).instructions.take (max limit 1) ≠ [] := by
    intro hnil
    rcases List.take_eq_nil_iff.mp hnil with hzero | hnil
    · omega
    · exact hlacks (.inl hnil)
  have htaken : IsStraight mode size32 memory offset
      ((wholeStream mode size32 memory offset).instructions.take (max limit 1)) := by
    have hwhole := wholeStream_isStraight mode size32 memory offset
    rw [← List.take_append_drop (max limit 1)
      (wholeStream mode size32 memory offset).instructions] at hwhole
    exact hwhole.of_prefix
  have hstraight : IsStraight mode size32 memory offset
      (withoutShadows ((wholeStream mode size32 memory offset).instructions.take (max limit 1))) := by
    obtain ⟨dropped, hsplit⟩ := withoutShadows_isPrefix
      ((wholeStream mode size32 memory offset).instructions.take (max limit 1))
    rw [← hsplit] at htaken
    exact htaken.of_prefix
  refine ⟨List.length_pos_iff.mpr (withoutShadows_ne_nil hne), ?_, hstraight,
    hstraight.isTerminator_of_mem_dropLast, fun hlimit last hlast hshadow ↦ ?_⟩
  · exact (withoutShadows_isPrefix _).length_le.trans (List.length_take_le _ _)
  · obtain ⟨halone, rest, htake, hrest⟩ := withoutShadows_eq_singleton hlast hshadow
    refine ⟨halone, ?_⟩
    rw [htake] at htaken
    cases rest with
    | nil =>
      rw [Nat.max_eq_left (Nat.le_of_succ_le hlimit)] at htake
      obtain ⟨hcut, honly⟩ := isCut_of_take_eq_singleton hlimit htake hshadow
      exact absurd (.inr ⟨hlimit, hcut, last, honly, hshadow⟩) hlacks
    | cons second others =>
      obtain ⟨-, -, hsecond, -, -⟩ := htaken
      exact ⟨second, hsecond, hrest second List.mem_cons_self⟩

/-- Decoding a block comes to what the stream and the limit say. Where they say that there is none, it
fails with the error that cuts the stream off. -/
theorem decodeBlock_eq_wholeStream (mode : Mode) (size32 : Bool) (limit : Nat) (cursor : Cursor) :
    let whole := wholeStream mode size32 cursor.memory cursor.offset
    (whole.Lacks limit → ∃ reason final,
      decode mode size32 (behindStream mode size32 cursor) = .error reason final ∧
      decodeBlock mode size32 limit cursor = .error reason final) ∧
    (¬ whole.Lacks limit → ∃ final,
      decodeBlock mode size32 limit cursor =
        .ok (withoutShadows (whole.instructions.take (max limit 1))) final) ∧
    ∀ block final, decodeBlock mode size32 limit cursor = .ok block final →
      IsTakenWithin mode size32 cursor.memory limit cursor.offset block := by
  intro whole
  have hread := decodeBlock_eq mode size32 limit cursor
  rw [stream_eq_within] at hread
  have hfails (hlacks : whole.Lacks limit) :
      decodeBlock mode size32 limit cursor = .error cursor.endError cursor.atEnd := by
    rw [Stream.block?_within_of_lacks hlacks] at hread
    exact hread
  have hreads (hlacks : ¬ whole.Lacks limit) : ∃ final, decodeBlock mode size32 limit cursor =
      .ok (withoutShadows (whole.instructions.take (max limit 1))) final := by
    rw [Stream.block?_within_of_not_lacks hlacks] at hread
    exact hread
  refine ⟨fun hlacks ↦ ⟨_, _, decode_behindStream ?_, hfails hlacks⟩, hreads,
    fun block final hblock ↦ ?_⟩
  · rcases hlacks with hnil | ⟨-, hcut, -⟩
    · exact stream_eq_nil mode size32 hnil
    · exact hcut
  · by_cases hlacks : whole.Lacks limit
    · rw [hfails hlacks] at hblock
      cases hblock
    · obtain ⟨final', hreads⟩ := hreads hlacks
      rw [hreads] at hblock
      cases hblock
      exact isTakenWithin_withoutShadows hlacks

/-- Two instructions that hold off interrupts, and nothing behind them. -/
def shadowCode : Memory := .rom #[0x17, 0x17]

def shadowAt (offset : Nat) : Instruction :=
  { nop false offset with opcode := 0x17, flow := .interruptShadow }

/-- The first is a block, as its successor is whole. The second is one only for a limit that has no
room for a successor. -/
theorem decodeBlock_eq_wholeStream_shadows :
    (∃ final, decodeBlock .real false 2 (Cursor.start shadowCode 0) = .ok [shadowAt 0] final) ∧
      (∃ final, decodeBlock .real false 1 (Cursor.start shadowCode 1) = .ok [shadowAt 1] final) ∧
      ∃ reason final, decode .real false ⟨shadowCode, 1, 2⟩ = .error reason final ∧
        decodeBlock .real false 2 (Cursor.start shadowCode 1) = .error reason final := by
  have hfirst : wholeStream .real false shadowCode 0 = ⟨[shadowAt 0, shadowAt 1], true⟩ := by cbv
  have hsecond : wholeStream .real false shadowCode 1 = ⟨[shadowAt 1], true⟩ := by cbv
  have hlone (limit : Nat) : (wholeStream .real false shadowCode 1).Lacks limit ↔ 2 ≤ limit := by
    rw [hsecond]
    exact ⟨fun hlacks ↦ (hlacks.resolve_left (List.cons_ne_nil _ _)).1,
      fun hlimit ↦ .inr ⟨hlimit, rfl, _, rfl, rfl⟩⟩
  have hbehind : behindStream .real false (Cursor.start shadowCode 1) = ⟨shadowCode, 1, 2⟩ := by
    simp only [behindStream, Cursor.start, hsecond]
    rfl
  refine ⟨?_, ?_, ?_⟩
  · have hreads := (decodeBlock_eq_wholeStream .real false 2 (Cursor.start shadowCode 0)).2.1
    simp only [Cursor.start, hfirst] at hreads
    exact hreads fun hlacks ↦ by simp [Stream.Lacks] at hlacks
  · have hreads := (decodeBlock_eq_wholeStream .real false 1 (Cursor.start shadowCode 1)).2.1
      fun hlacks ↦ absurd ((hlone 1).mp hlacks) (by decide)
    simp only [Cursor.start, hsecond] at hreads
    exact hreads
  · have hfails := (decodeBlock_eq_wholeStream .real false 2 (Cursor.start shadowCode 1)).1
      ((hlone 2).mpr le_rfl)
    rw [hbehind] at hfails
    exact hfails

end Instruction

end GuestMachine

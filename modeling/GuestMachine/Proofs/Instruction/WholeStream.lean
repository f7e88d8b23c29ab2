import GuestMachine.Proofs.Instruction.Stream

/-!
# Whole streams

Every instruction takes up a byte, so that a region holds no more of them than it has bytes. The
stream from an offset therefore ends of itself: with the first instruction that ends a block, or where
the region cuts one off. It goes on after instructions that stand one after another as it does from
the offset after them.
-/

namespace GuestMachine

namespace Instruction

/-- The stream from an offset, with room for as many instructions as there can be. -/
def wholeStream (mode : Mode) (size32 : Bool) (memory : Memory) (offset : Nat) : Stream :=
  stream mode size32 memory (memory.size - offset + 1) offset

/-- The stream with instructions before it. -/
def Stream.behind (earlier : List Instruction) (stream : Stream) : Stream :=
  { stream with instructions := earlier ++ stream.instructions }

variable {mode : Mode} {size32 : Bool} {memory : Memory} {offset : Nat} {instruction : Instruction}
  {instructions : List Instruction}

theorem wholeStream_isStraight (mode : Mode) (size32 : Bool) (memory : Memory) (offset : Nat) :
    IsStraight mode size32 memory offset (wholeStream mode size32 memory offset).instructions :=
  stream_isStraight mode size32 memory _ offset

/-- After an instruction fewer bytes are left. -/
theorem left_lt_left (hat : ofMemory? mode size32 memory offset = some instruction) :
    memory.size - instruction.next < memory.size - offset := by
  obtain ⟨hoffset, hlength, hwithin⟩ := ofMemory?_eq_some hat
  rw [next] at hwithin ⊢
  omega

/-- Room for more instructions than there are bytes makes no difference. -/
theorem stream_eq_of_lt {room other : Nat} (hroom : memory.size - offset < room)
    (hother : memory.size - offset < other) :
    stream mode size32 memory room offset = stream mode size32 memory other offset := by
  induction room generalizing other offset with
  | zero => exact absurd hroom (Nat.not_lt_zero _)
  | succ room ih =>
    obtain ⟨other, rfl⟩ := Nat.exists_eq_add_one_of_ne_zero (Nat.ne_zero_of_lt hother)
    rw [stream, stream]
    cases hat : ofMemory? mode size32 memory offset with
    | none => rfl
    | some instruction =>
      have hleft := left_lt_left hat
      have hrest : stream mode size32 memory room instruction.next =
          stream mode size32 memory other instruction.next := ih (by omega) (by omega)
      simp only [hrest]

/-- The whole stream, one instruction at a time. -/
theorem wholeStream_eq (mode : Mode) (size32 : Bool) (memory : Memory) (offset : Nat) :
    wholeStream mode size32 memory offset =
      match ofMemory? mode size32 memory offset with
      | none => ⟨[], true⟩
      | some instruction =>
        if instruction.flow.isTerminator then ⟨[instruction], false⟩
        else (wholeStream mode size32 memory instruction.next).behind [instruction] := by
  rw [wholeStream, stream]
  cases hat : ofMemory? mode size32 memory offset with
  | none => rfl
  | some instruction =>
    have hrest : stream mode size32 memory (memory.size - offset) instruction.next =
        wholeStream mode size32 memory instruction.next :=
      stream_eq_of_lt (left_lt_left hat) (Nat.lt_succ_self _)
    simp only [hrest]
    rfl

theorem wholeStream_of_sequential (hat : ofMemory? mode size32 memory offset = some instruction)
    (hend : instruction.flow.isTerminator = false) :
    wholeStream mode size32 memory offset =
      (wholeStream mode size32 memory instruction.next).behind [instruction] := by
  rw [wholeStream_eq, hat]
  simp only [hend, Bool.false_eq_true, if_false]

/-- Where the region holds a whole instruction, the stream begins with it. -/
theorem wholeStream_ne_nil (hat : (ofMemory? mode size32 memory offset).isSome = true) :
    (wholeStream mode size32 memory offset).instructions ≠ [] := by
  obtain ⟨instruction, hat⟩ := Option.isSome_iff_exists.mp hat
  rw [wholeStream_eq, hat]
  dsimp only
  split <;> exact List.cons_ne_nil _ _

/-! ## Instructions at the start of a stream -/

/-- The last of the instructions ends a block. -/
def endsBlock (instructions : List Instruction) : Bool :=
  instructions.getLast?.any (·.flow.isTerminator)

/-- The offset after the instructions, which stand at `offset`. -/
def stopOf (offset : Nat) (instructions : List Instruction) : Nat :=
  instructions.getLast?.elim offset next

theorem endsBlock_cons_cons (first second : Instruction) (rest : List Instruction) :
    endsBlock (first :: second :: rest) = endsBlock (second :: rest) := by
  rw [endsBlock, List.getLast?_cons_cons, endsBlock]

theorem stopOf_cons (offset : Nat) (first : Instruction) (rest : List Instruction) :
    stopOf offset (first :: rest) = stopOf first.next rest := by
  rw [stopOf, List.getLast?_cons, stopOf]
  cases rest.getLast? <;> rfl

theorem stopOf_append (offset : Nat) (first second : List Instruction) :
    stopOf offset (first ++ second) = stopOf (stopOf offset first) second := by
  induction first generalizing offset with
  | nil => rfl
  | cons instruction first ih => rw [List.cons_append, stopOf_cons, ih, stopOf_cons]

/-- After instructions that stand one after another fewer bytes are left. -/
theorem IsStraight.left_stopOf_lt (hstraight : IsStraight mode size32 memory offset instructions)
    (hne : instructions ≠ []) : memory.size - stopOf offset instructions < memory.size - offset := by
  induction instructions generalizing offset with
  | nil => exact absurd rfl hne
  | cons first rest ih =>
    obtain ⟨hat, -, hrest⟩ := hstraight
    rw [stopOf_cons]
    cases rest with
    | nil => exact left_lt_left hat
    | cons second rest => exact (ih hrest (List.cons_ne_nil _ _)).trans (left_lt_left hat)

/-- Instructions of which the last ends a block are the whole stream. -/
theorem IsStraight.wholeStream_of_endsBlock
    (hstraight : IsStraight mode size32 memory offset instructions)
    (hends : endsBlock instructions = true) :
    wholeStream mode size32 memory offset = ⟨instructions, false⟩ := by
  induction instructions generalizing offset with
  | nil => exact absurd hends Bool.false_ne_true
  | cons first rest ih =>
    obtain ⟨hat, hend, hrest⟩ := hstraight
    cases rest with
    | nil =>
      have hterminator : first.flow.isTerminator = true := hends
      rw [wholeStream_eq, hat]
      simp only [hterminator, if_true]
    | cons second rest =>
      rw [endsBlock_cons_cons] at hends
      rw [wholeStream_of_sequential hat (hend (List.cons_ne_nil _ _)), ih hrest hends]
      rfl

/-- After instructions of which the last does not end a block the stream goes on. -/
theorem IsStraight.wholeStream_of_not_endsBlock
    (hstraight : IsStraight mode size32 memory offset instructions)
    (hends : endsBlock instructions = false) :
    wholeStream mode size32 memory offset =
      (wholeStream mode size32 memory (stopOf offset instructions)).behind instructions := by
  induction instructions generalizing offset with
  | nil => rfl
  | cons first rest ih =>
    obtain ⟨hat, hend, hrest⟩ := hstraight
    have hsequential : first.flow.isTerminator = false := by
      cases rest with
      | nil => exact hends
      | cons second rest => exact hend (List.cons_ne_nil _ _)
    have hlater : endsBlock rest = false := by
      cases rest with
      | nil => rfl
      | cons second rest => rwa [endsBlock_cons_cons] at hends
    rw [wholeStream_of_sequential hat hsequential, ih hrest hlater, stopOf_cons]
    rfl

/-- Where no block starts, the region cuts the stream off at once, or after an instruction that holds
off interrupts. -/
theorem wholeStream_of_isCutOff (hcut : IsCutOff mode size32 memory offset) :
    wholeStream mode size32 memory offset = ⟨[], true⟩ ∨
      ∃ shadow : Instruction, shadow.flow.isShadow = true ∧ shadow.offset = offset ∧
        wholeStream mode size32 memory offset = ⟨[shadow], true⟩ := by
  cases hat : ofMemory? mode size32 memory offset with
  | none =>
    left
    rw [wholeStream_eq, hat]
  | some shadow =>
    right
    obtain ⟨hshadow, hnext⟩ := hcut shadow hat
    refine ⟨shadow, hshadow, (ofMemory?_eq_some hat).1, ?_⟩
    rw [wholeStream_of_sequential hat (isTerminator_of_isShadow hshadow), wholeStream_eq, hnext]
    rfl

end Instruction

end GuestMachine

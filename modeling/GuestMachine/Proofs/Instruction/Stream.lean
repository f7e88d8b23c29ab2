import GuestMachine.Instruction.Sequence
import GuestMachine.Proofs.Instruction.Decoding

/-!
# Streams of instructions

Decoding one instruction after another, up to the first that ends a block, gives a stream. The
instructions of a block are read off the stream: those at the end that hold off interrupts are left
to the next block, unless only one is left. What is stated of a block is that its instructions stand
one after another, and that one which holds off interrupts has a whole successor.
-/

namespace GuestMachine

namespace Instruction

/-- The instructions decoded from an offset, and whether the end of the region cut them off. -/
structure Stream where
  instructions : List Instruction
  isCut : Bool

/-- Decodes at most `room` instructions one after another, up to the first that ends a block. -/
def stream (mode : Mode) (size32 : Bool) (memory : Memory) : (room offset : Nat) → Stream
  | 0, _ => ⟨[], false⟩
  | room + 1, offset =>
    match ofMemory? mode size32 memory offset with
    | none => ⟨[], true⟩
    | some instruction =>
      if instruction.flow.isTerminator then
        ⟨[instruction], false⟩
      else
        let rest := stream mode size32 memory room instruction.next
        ⟨instruction :: rest.instructions, rest.isCut⟩

/-- The instructions of the block at the start of a stream, if there is one. -/
def Stream.block? (stream : Stream) : Option (List Instruction) :=
  match stream.instructions with
  | [] => none
  | [only] => if stream.isCut && only.flow.isShadow then none else some [only]
  | several => some (dropShadows several.reverse).reverse

/-! ## Decoding a block -/

section

variable (mode : Mode) (size32 : Bool)

theorem stream_eq_nil {memory : Memory} {room offset : Nat}
    (h : (stream mode size32 memory (room + 1) offset).instructions = []) :
    (stream mode size32 memory (room + 1) offset).isCut = true := by
  unfold stream at h ⊢
  split at h
  · rfl
  · split at h <;> cases h

theorem dropShadows_cons {last : Instruction} {earlier : List Instruction}
    (hshadow : last.flow.isShadow = true) (hearlier : earlier ≠ []) :
    dropShadows (last :: earlier) = dropShadows earlier := by
  cases earlier with
  | nil => exact absurd rfl hearlier
  | cons previous earlier => rw [dropShadows, if_pos hshadow]

/-- How a run from a cursor ends, given the stream there and what was taken before: it has decoded
the stream, but may leave out a last instruction that holds off interrupts. -/
structure Run.Follows (result : Run) (stream : Stream) (taken : List Instruction)
    (cursor : Cursor) : Prop where
  cut : result.cut = if stream.isCut then some cursor.endError else none
  stops : stream.isCut = true → result.cursor = cursor.atEnd
  latestFirst : result.latestFirst = stream.instructions.reverse ++ taken ∨
    result.latestFirst ≠ [] ∧ stream.isCut = false ∧
      ∃ shadow : Instruction, shadow.flow.isShadow = true ∧
        shadow :: result.latestFirst = stream.instructions.reverse ++ taken

theorem Run.Follows.cons {result : Run} {rest : Stream} {taken : List Instruction}
    {cursor middle : Cursor} {instruction : Instruction}
    (h : result.Follows rest (instruction :: taken) middle)
    (hmemory : middle.memory = cursor.memory) (horigin : middle.origin = cursor.origin)
    (hreach : middle.reach = cursor.reach) :
    result.Follows ⟨instruction :: rest.instructions, rest.isCut⟩ taken cursor where
  cut := by
    simp only [Cursor.reach] at hreach
    rw [h.cut, Cursor.endError, Cursor.endError, hreach, hmemory]
  stops hcut := by
    simp only [Cursor.reach] at hreach
    rw [h.stops hcut, Cursor.atEnd, Cursor.atEnd, hreach, hmemory, horigin]
  latestFirst := by
    simpa only [List.reverse_cons, List.append_assoc, List.singleton_append] using h.latestFirst

theorem run_follows_stream (room : Nat) (taken : List Instruction) (cursor : Cursor) :
    (run mode size32 room taken cursor).Follows
      (stream mode size32 cursor.memory room cursor.offset) taken cursor := by
  induction room generalizing taken cursor with
  | zero => exact ⟨rfl, fun h ↦ (Bool.false_ne_true h).elim, .inl rfl⟩
  | succ room ih =>
    unfold stream run
    rw [decode_eq]
    cases hat : ofMemory? mode size32 cursor.memory cursor.offset with
    | none => exact ⟨rfl, fun _ ↦ rfl, .inl rfl⟩
    | some instruction =>
      have hdecode := decode_eq mode size32 cursor
      rw [hat] at hdecode
      have hreach := (isForward_decode mode size32).reach_eq hdecode
      dsimp only
      split
      · -- The run has no room for a successor and leaves this instruction to the next block.
        next hleft =>
          simp only [Bool.and_eq_true, beq_iff_eq, Bool.not_eq_true', List.isEmpty_eq_false_iff]
            at hleft
          obtain ⟨⟨hshadow, rfl⟩, htaken⟩ := hleft
          have hend : instruction.flow.isTerminator = false := by
            cases hflow : instruction.flow <;> simp_all [Flow.isTerminator, Flow.isShadow]
          rw [hend]
          exact ⟨rfl, fun h ↦ (Bool.false_ne_true h).elim,
            .inr ⟨htaken, rfl, instruction, hshadow, rfl⟩⟩
      · split
        · exact ⟨rfl, fun h ↦ (Bool.false_ne_true h).elim, .inl rfl⟩
        · exact (ih (instruction :: taken)
            { cursor with offset := instruction.next }).cons rfl rfl hreach

/-- Where the region does not cut the stream off, the block is what is left of it. -/
theorem Stream.block?_of_not_cut {stream : Stream} (hcut : stream.isCut = false)
    (hnil : stream.instructions ≠ []) :
    stream.block? = some (dropShadows stream.instructions.reverse).reverse := by
  obtain ⟨instructions, isCut⟩ := stream
  cases hcut
  match instructions with
  | [] => exact absurd rfl hnil
  | [only] => rfl
  | _ :: _ :: _ => rfl

/-- A block is read off the stream at its start; without one, the region has ended too early. -/
theorem decodeBlock_eq (limit : Nat) (cursor : Cursor) :
    match (stream mode size32 cursor.memory (max limit 1) cursor.offset).block? with
    | some instructions => ∃ final, decodeBlock mode size32 limit cursor = .ok instructions final
    | none => decodeBlock mode size32 limit cursor = .error cursor.endError cursor.atEnd := by
  have hfollows := run_follows_stream mode size32 (max limit 1) [] cursor
  have hnil : (stream mode size32 cursor.memory (max limit 1) cursor.offset).instructions = [] →
      (stream mode size32 cursor.memory (max limit 1) cursor.offset).isCut = true := by
    rw [← Nat.sub_add_cancel (Nat.le_max_right limit 1)]
    exact stream_eq_nil mode size32
  generalize stream mode size32 cursor.memory (max limit 1) cursor.offset = found at *
  obtain ⟨hcut, hstops, hlatest⟩ := hfollows
  unfold decodeBlock
  generalize run mode size32 (max limit 1) [] cursor = result at *
  obtain ⟨latestFirst, cut, last⟩ := result
  simp only [List.append_nil] at hcut hstops hlatest
  cases hisCut : found.isCut with
  | true =>
    rw [hisCut] at hcut hstops
    obtain rfl : cut = some cursor.endError := hcut
    obtain rfl := hstops rfl
    obtain rfl : latestFirst = found.instructions.reverse := by
      rcases hlatest with hlatest | ⟨-, hnot, -⟩
      · exact hlatest
      · rw [hisCut] at hnot
        cases hnot
    match hinstructions : found.instructions with
    | [] => simp [Stream.block?, hinstructions]
    | [only] =>
      simp only [Stream.block?, hinstructions, hisCut, List.reverse_singleton, Bool.true_and]
      cases only.flow.isShadow
      · exact ⟨_, rfl⟩
      · rfl
    | first :: second :: rest =>
      simp only [Stream.block?, hinstructions]
      have hlength : 2 ≤ (first :: second :: rest).reverse.length := by simp
      match (first :: second :: rest).reverse, hlength with
      | _ :: _ :: _, _ => exact ⟨_, rfl⟩
  | false =>
    rw [hisCut] at hcut
    obtain rfl : cut = none := hcut
    have hinstructions : found.instructions ≠ [] := fun h ↦ by
      rw [hnil h] at hisCut
      cases hisCut
    rw [Stream.block?_of_not_cut hisCut hinstructions]
    refine ⟨last, ?_⟩
    have hdrop : dropShadows latestFirst = dropShadows found.instructions.reverse := by
      rcases hlatest with rfl | ⟨htaken, -, shadow, hshadow, hlatest⟩
      · rfl
      · rw [← hlatest, dropShadows_cons hshadow htaken]
    rw [← hdrop]
    match latestFirst with
    | [] => rfl
    | [_] => rfl
    | _ :: _ :: _ => rfl

end

/-! ## Blocks -/

variable {mode : Mode} {size32 : Bool} {memory : Memory}

/-- The instructions stand one after another from an offset, and only the last may end a block. -/
def IsStraight (mode : Mode) (size32 : Bool) (memory : Memory) : Nat → List Instruction → Prop
  | _, [] => True
  | offset, instruction :: rest =>
    ofMemory? mode size32 memory offset = some instruction ∧
      (rest ≠ [] → instruction.flow.isTerminator = false) ∧
      IsStraight mode size32 memory instruction.next rest

theorem stream_isStraight (mode : Mode) (size32 : Bool) (memory : Memory) (room offset : Nat) :
    IsStraight mode size32 memory offset (stream mode size32 memory room offset).instructions := by
  induction room generalizing offset with
  | zero => trivial
  | succ room ih =>
    unfold stream
    cases hat : ofMemory? mode size32 memory offset with
    | none => trivial
    | some instruction =>
      dsimp only
      split
      · exact ⟨hat, fun h ↦ absurd rfl h, trivial⟩
      · next hend => exact ⟨hat, fun _ ↦ Bool.eq_false_iff.mpr hend, ih instruction.next⟩

theorem IsStraight.of_prefix {offset : Nat} {instructions rest : List Instruction}
    (h : IsStraight mode size32 memory offset (instructions ++ rest)) :
    IsStraight mode size32 memory offset instructions := by
  induction instructions generalizing offset with
  | nil => trivial
  | cons instruction instructions ih =>
    obtain ⟨hat, hend, hrest⟩ := h
    exact ⟨hat, fun hne ↦ hend (by simp [hne]), ih hrest⟩

/-- An instruction that is not the last has a whole successor. -/
theorem IsStraight.followed {offset : Nat} {instructions : List Instruction}
    (h : IsStraight mode size32 memory offset instructions) :
    ∀ instruction ∈ instructions.dropLast,
      (ofMemory? mode size32 memory instruction.next).isSome = true := by
  induction instructions generalizing offset with
  | nil => simp
  | cons instruction instructions ih =>
    cases instructions with
    | nil => simp
    | cons second rest =>
      obtain ⟨-, -, hrest⟩ := h
      rw [List.dropLast_cons_of_ne_nil (List.cons_ne_nil _ _)]
      rintro other (_ | ⟨_, hother⟩)
      · rw [hrest.1]
        rfl
      · exact ih hrest other hother

/-- Instructions that stand one after another lie within the region. -/
theorem IsStraight.within_size {offset : Nat} {instructions : List Instruction}
    (h : IsStraight mode size32 memory offset instructions) (hne : instructions ≠ []) :
    offset < memory.size ∧ instructions.getLast?.elim offset next ≤ memory.size := by
  induction instructions generalizing offset with
  | nil => exact absurd rfl hne
  | cons first rest ih =>
    obtain ⟨hat, -, hrest⟩ := h
    obtain ⟨hoffset, hlength, hwithin⟩ := ofMemory?_eq_some hat
    have hfirst : offset < memory.size := by
      rw [next, hoffset] at hwithin
      omega
    cases rest with
    | nil => exact ⟨hfirst, hwithin⟩
    | cons second others => exact ⟨hfirst, (ih hrest (List.cons_ne_nil _ _)).2⟩

/-- Only the last instruction ends the block. -/
theorem IsStraight.isTerminator_of_mem_dropLast {offset : Nat} {instructions : List Instruction}
    (h : IsStraight mode size32 memory offset instructions) :
    ∀ instruction ∈ instructions.dropLast, instruction.flow.isTerminator = false := by
  induction instructions generalizing offset with
  | nil => exact fun _ hmem ↦ nomatch hmem
  | cons instruction rest ih =>
    obtain ⟨-, hend, hrest⟩ := h
    cases rest with
    | nil => exact fun _ hmem ↦ nomatch hmem
    | cons second others =>
      rw [List.dropLast_cons_of_ne_nil (List.cons_ne_nil _ _), List.forall_mem_cons]
      exact ⟨hend (List.cons_ne_nil _ _), ih hrest⟩

theorem dropShadows_spec {latestFirst : List Instruction} (h : latestFirst ≠ []) :
    ∃ last earlier dropped, dropShadows latestFirst = last :: earlier ∧
      latestFirst = dropped ++ last :: earlier ∧
      (last.flow.isShadow = false ∨ earlier = []) := by
  fun_induction dropShadows latestFirst with
  | case1 last previous earlier hshadow ih =>
    obtain ⟨kept, rest, dropped, hdrop, hsplit, hkept⟩ := ih (List.cons_ne_nil _ _)
    exact ⟨kept, rest, last :: dropped, hdrop, congrArg (last :: ·) hsplit, hkept⟩
  | case2 last previous earlier hshadow =>
    exact ⟨last, previous :: earlier, [], rfl, rfl, .inl (Bool.eq_false_iff.mpr hshadow)⟩
  | case3 short hshort =>
    match short, h with
    | [only], _ => exact ⟨only, [], [], rfl, rfl, .inr rfl⟩
    | last :: previous :: earlier, _ => exact absurd rfl (hshort last previous earlier)

/-- A block is the start of its stream. Its last instruction holds off interrupts only if it is the
only one and its successor is whole or out of the stream's room. -/
theorem Stream.block?_eq_some {stream : Stream} {instructions : List Instruction}
    (h : stream.block? = some instructions) :
    ∃ earlier last rest, instructions = earlier ++ [last] ∧
      stream.instructions = instructions ++ rest ∧
      (last.flow.isShadow = true → earlier = [] ∧ (rest = [] → stream.isCut = false)) := by
  obtain ⟨found, isCut⟩ := stream
  match found with
  | [] => cases h
  | [only] =>
    simp only [block?] at h
    split at h
    · cases h
    · next hnot =>
      cases h
      refine ⟨[], only, [], rfl, rfl, fun hshadow ↦ ⟨rfl, fun _ ↦ ?_⟩⟩
      simpa [hshadow] using hnot
  | first :: second :: others =>
    cases h
    have hreverse : (first :: second :: others).reverse ≠ [] := by simp
    obtain ⟨last, earlier, dropped, hdrop, hsplit, hkept⟩ := dropShadows_spec hreverse
    rw [hdrop]
    have hsplit' : first :: second :: others = (last :: earlier).reverse ++ dropped.reverse := by
      rw [← List.reverse_append, ← hsplit, List.reverse_reverse]
    refine ⟨earlier.reverse, last, dropped.reverse, List.reverse_cons, hsplit', fun hshadow ↦ ?_⟩
    obtain hlast | rfl := hkept
    · rw [hshadow] at hlast
      cases hlast
    · refine ⟨rfl, fun hnil ↦ ?_⟩
      rw [hnil] at hsplit'
      cases hsplit'

theorem Stream.block?_eq_none {stream : Stream} (h : stream.block? = none) :
    stream.instructions = [] ∨
      ∃ only, stream.instructions = [only] ∧ stream.isCut = true ∧ only.flow.isShadow = true := by
  obtain ⟨found, isCut⟩ := stream
  match found with
  | [] => exact .inl rfl
  | [only] =>
    simp only [block?] at h
    split at h
    · next hcut => exact .inr ⟨only, rfl, (Bool.and_eq_true _ _).mp hcut⟩
    · cases h
  | _ :: _ :: _ => cases h

/-- The instructions of a block: at least one, one after another, and one that holds off interrupts
has a whole successor. -/
structure IsBlock (mode : Mode) (size32 : Bool) (memory : Memory) (offset : Nat)
    (instructions : List Instruction) : Prop where
  ne_nil : instructions ≠ []
  straight : IsStraight mode size32 memory offset instructions
  followed : ∀ instruction ∈ instructions, instruction.flow.isShadow = true →
    (ofMemory? mode size32 memory instruction.next).isSome = true

/-- No block starts here: the instruction is cut off, or it holds off interrupts and its successor
is cut off. -/
def IsCutOff (mode : Mode) (size32 : Bool) (memory : Memory) (offset : Nat) : Prop :=
  ∀ instruction ∈ ofMemory? mode size32 memory offset,
    instruction.flow.isShadow = true ∧ ofMemory? mode size32 memory instruction.next = none

theorem isTerminator_of_isShadow {flow : Flow} (h : flow.isShadow = true) :
    flow.isTerminator = false := by
  cases flow <;> simp_all [Flow.isTerminator, Flow.isShadow]

/-- With room for a second instruction, a stream that ends with its first was cut off or ended. -/
theorem stream_eq_singleton {room offset : Nat} {only : Instruction}
    (h : (stream mode size32 memory (room + 2) offset).instructions = [only])
    (hshadow : only.flow.isShadow = true) :
    (stream mode size32 memory (room + 2) offset).isCut = true ∧
      ofMemory? mode size32 memory offset = some only ∧
      ofMemory? mode size32 memory only.next = none := by
  unfold stream at h ⊢
  cases hat : ofMemory? mode size32 memory offset with
  | none =>
    rw [hat] at h
    cases h
  | some instruction =>
    rw [hat] at h
    by_cases hend : instruction.flow.isTerminator = true
    · simp only [hend, if_true] at h
      cases h
      rw [isTerminator_of_isShadow hshadow] at hend
      cases hend
    · simp only [hend] at h ⊢
      simp only [Bool.false_eq_true, if_false, List.cons.injEq] at h ⊢
      obtain ⟨rfl, hrest⟩ := h
      refine ⟨stream_eq_nil mode size32 hrest, rfl, ?_⟩
      unfold stream at hrest
      split at hrest
      · assumption
      · split at hrest <;> cases hrest

/-- A block is not empty, and its instructions stand one after another from its start. -/
theorem isStraight_of_block? {limit offset : Nat} {instructions : List Instruction}
    (h : (stream mode size32 memory limit offset).block? = some instructions) :
    instructions ≠ [] ∧ IsStraight mode size32 memory offset instructions := by
  obtain ⟨earlier, last, rest, hlast, hsplit, -⟩ := Stream.block?_eq_some h
  have hstraight := stream_isStraight mode size32 memory limit offset
  rw [hsplit] at hstraight
  exact ⟨by simp [hlast], hstraight.of_prefix⟩

theorem isBlock_of_block? {limit offset : Nat} {instructions : List Instruction}
    (hlimit : 2 ≤ limit)
    (h : (stream mode size32 memory limit offset).block? = some instructions) :
    IsBlock mode size32 memory offset instructions := by
  obtain ⟨earlier, last, rest, hlast, hsplit, hshadow⟩ := Stream.block?_eq_some h
  have hstraight := stream_isStraight mode size32 memory limit offset
  rw [hsplit] at hstraight
  refine ⟨by simp [hlast], hstraight.of_prefix, fun instruction hmem hheld ↦ ?_⟩
  obtain ⟨room, rfl⟩ := Nat.exists_eq_add_of_le' hlimit
  rw [hlast, List.mem_append, List.mem_singleton] at hmem
  -- An earlier instruction is followed within the block, the last one by what was left out.
  obtain hmem | rfl := hmem
  · refine hstraight.of_prefix.followed instruction ?_
    rwa [hlast, List.dropLast_concat]
  · obtain ⟨rfl, hcut⟩ := hshadow hheld
    obtain rfl : instructions = [instruction] := hlast
    cases rest with
    | nil =>
      obtain ⟨hisCut, -, -⟩ := stream_eq_singleton hsplit hheld
      rw [hcut rfl] at hisCut
      cases hisCut
    | cons second others => exact hstraight.followed instruction (by simp)

theorem isCutOff_of_block? {limit offset : Nat} (hlimit : 2 ≤ limit)
    (h : (stream mode size32 memory limit offset).block? = none) :
    IsCutOff mode size32 memory offset := by
  obtain ⟨room, rfl⟩ := Nat.exists_eq_add_of_le' hlimit
  intro instruction hat
  obtain hnil | ⟨only, honly, -, hshadow⟩ := Stream.block?_eq_none h
  · unfold stream at hnil
    rw [Option.mem_def.mp hat] at hnil
    dsimp only at hnil
    split at hnil <;> cases hnil
  · obtain ⟨-, hat', hnext⟩ := stream_eq_singleton honly hshadow
    rw [Option.mem_def, hat', Option.some.injEq] at hat
    subst hat
    exact ⟨hshadow, hnext⟩

end Instruction

end GuestMachine

import GuestMachine.Proofs.Instruction.Locality

/-!
# The instruction at an offset

Decoding is a function of the region and the offset: either there is a whole instruction, and the
cursor moves to its end, or the region cuts it off, and the cursor stops at the end of the region.
An instruction that counts as a NOP is the one byte 90 and nothing else, so that its offset
determines it.
-/

namespace GuestMachine

namespace Instruction

/-- The instruction at an offset, unless the end of the region cuts it off. -/
def ofMemory? (mode : Mode) (size32 : Bool) (memory : Memory) (offset : Nat) :
    Option Instruction :=
  match decode mode size32 (Cursor.start memory offset) with
  | .ok instruction _ => some instruction
  | .error _ _ => none

/-- The one-byte NOP at an offset. -/
def nop (size32 : Bool) (offset : Nat) : Instruction where
  offset
  length := 1
  opcode := 0x90
  prefixes := .empty
  modrm := none
  operand32 := size32
  address32 := size32
  flow := .sequential
  branch := none

open Scan

/-! ## Prefixes -/

theorem scanHead_overlong {room : Nat} {prefixes found : Prefixes} {last : UInt8}
    {cursor final : Cursor} (h : scanHead room prefixes cursor = .ok (.overlong found last) final) :
    final.offset = cursor.offset + room + 1 ∧ Prefix.ofByte? last ≠ none := by
  induction room generalizing prefixes cursor with
  | zero =>
    unfold scanHead at h
    obtain ⟨byte, middle, hbyte, hrest⟩ := bind_eq_ok h
    obtain ⟨-, -, rfl⟩ := nextByte_eq_ok hbyte
    cases hmark : Prefix.ofByte? byte with
    | none =>
      rw [hmark] at hrest
      cases hrest
    | some mark =>
      simp only [hmark] at hrest
      cases hrest
      exact ⟨rfl, by rw [hmark]; exact Option.some_ne_none _⟩
  | succ room ih =>
    unfold scanHead at h
    obtain ⟨byte, middle, hbyte, hrest⟩ := bind_eq_ok h
    obtain ⟨-, -, rfl⟩ := nextByte_eq_ok hbyte
    cases hmark : Prefix.ofByte? byte with
    | none =>
      rw [hmark] at hrest
      cases hrest
    | some mark =>
      simp only [hmark] at hrest
      obtain ⟨hoffset, hlast⟩ := ih hrest
      exact ⟨by simp only [hoffset]; omega, hlast⟩

/-- Either the first byte was no prefix, or the prefixes that were found end with a mark. -/
theorem scanHead_opcode {room : Nat} {prefixes found : Prefixes} {byte : UInt8}
    {cursor final : Cursor} (h : scanHead room prefixes cursor = .ok (.opcode found byte) final) :
    cursor.offset < final.offset ∧ found.escape = prefixes.escape ∧
      (found = prefixes ∧ final = { cursor with offset := cursor.offset + 1 } ∧
          byte = cursor.memory.getByte (UInt32.ofNat cursor.offset) ∨
        ∃ earlier mark, found = Prefixes.add earlier mark) := by
  induction room generalizing prefixes cursor with
  | zero =>
    unfold scanHead at h
    obtain ⟨first, middle, hbyte, hrest⟩ := bind_eq_ok h
    obtain ⟨-, rfl, rfl⟩ := nextByte_eq_ok hbyte
    cases hmark : Prefix.ofByte? (cursor.memory.getByte (UInt32.ofNat cursor.offset)) with
    | none =>
      simp only [hmark] at hrest
      cases hrest
      exact ⟨Nat.lt_succ_self _, rfl, .inl ⟨rfl, rfl, rfl⟩⟩
    | some mark =>
      simp only [hmark] at hrest
      cases hrest
  | succ room ih =>
    unfold scanHead at h
    obtain ⟨first, middle, hbyte, hrest⟩ := bind_eq_ok h
    obtain ⟨-, rfl, rfl⟩ := nextByte_eq_ok hbyte
    cases hmark : Prefix.ofByte? (cursor.memory.getByte (UInt32.ofNat cursor.offset)) with
    | none =>
      simp only [hmark] at hrest
      cases hrest
      exact ⟨Nat.lt_succ_self _, rfl, .inl ⟨rfl, rfl, rfl⟩⟩
    | some mark =>
      simp only [hmark] at hrest
      obtain ⟨hoffset, hescape, hfound⟩ := ih hrest
      refine ⟨Nat.lt_of_succ_lt hoffset, ?_, .inr ?_⟩
      · rw [hescape]
        cases mark <;> rfl
      · obtain ⟨rfl, -, -⟩ | hadded := hfound
        · exact ⟨_, _, rfl⟩
        · exact hadded

theorem add_ne_empty (prefixes : Prefixes) (mark : Prefix) :
    { prefixes.add mark with escape := false } ≠ Prefixes.empty := by
  cases mark <;> simp [Prefixes.add, Prefixes.empty]

/-! ## Extent -/

theorem decodeBody_extent {mode : Mode} {size32 : Bool} {start : Nat} {prefixes : Prefixes}
    {byte : UInt8} {cursor final : Cursor} {instruction : Instruction}
    (h : decodeBody mode size32 start prefixes byte cursor = .ok instruction final) :
    instruction.offset = start ∧ instruction.length = final.offset - start := by
  obtain ⟨opcode, cursor₁, -, h⟩ := bind_eq_ok h
  obtain ⟨operands, cursor₂, -, h⟩ := bind_eq_ok h
  obtain ⟨branch, cursor₃, -, h⟩ := bind_eq_ok h
  obtain ⟨position, cursor₄, hposition, h⟩ := bind_eq_ok h
  cases hposition
  cases h
  exact ⟨rfl, rfl⟩

/-- An instruction starts at the cursor and takes up the bytes that were read, at least one. -/
theorem decode_extent {mode : Mode} {size32 : Bool} {cursor final : Cursor}
    {instruction : Instruction} (h : decode mode size32 cursor = .ok instruction final) :
    instruction.offset = cursor.offset ∧ 0 < instruction.length ∧
      final = { cursor with offset := instruction.next } := by
  obtain ⟨hmemory, horigin, -, -⟩ := (isForward_decode mode size32).extent h
  suffices instruction.offset = cursor.offset ∧ 0 < instruction.length ∧
      final.offset = instruction.next by
    obtain ⟨hoffset, hlength, hnext⟩ := this
    refine ⟨hoffset, hlength, ?_⟩
    cases final
    simp_all
  obtain ⟨start, middle, hstart, h⟩ := bind_eq_ok h
  cases hstart
  obtain ⟨head, middle, hhead, h⟩ := bind_eq_ok h
  cases head with
  | overlong prefixes last =>
    obtain ⟨hoffset, -⟩ := scanHead_overlong hhead
    cases h
    exact ⟨rfl, Nat.succ_pos _, hoffset⟩
  | opcode prefixes byte =>
    obtain ⟨hlt, -, -⟩ := scanHead_opcode hhead
    obtain ⟨hoffset, hlength⟩ := decodeBody_extent h
    obtain ⟨-, -, hle, -⟩ := (isForward_decodeBody mode size32 _ prefixes byte).extent h
    rw [next, hoffset, hlength]
    omega

/-- Decoding at a cursor depends on the region and the offset, and not on where the cursor began. -/
theorem decode_eq (mode : Mode) (size32 : Bool) (cursor : Cursor) :
    decode mode size32 cursor =
      match ofMemory? mode size32 cursor.memory cursor.offset with
      | some instruction => .ok instruction { cursor with offset := instruction.next }
      | none => .error cursor.endError cursor.atEnd := by
  unfold ofMemory?
  cases hstart : decode mode size32 (Cursor.start cursor.memory cursor.offset) with
  | ok instruction final =>
    obtain ⟨-, -, -, hreach⟩ := (isForward_decode mode size32).extent hstart
    have h := (isForward_decode mode size32).repeats cursor hstart rfl hreach
      (Memory.Agrees.refl _ _ _)
    rw [h, (decode_extent h).2.2]
  | error reason final =>
    cases h : decode mode size32 cursor with
    | error reason' final' =>
      obtain ⟨rfl, rfl⟩ := (isForward_decode mode size32).cut h
      rfl
    | ok instruction final' =>
      obtain ⟨-, -, -, hreach⟩ := (isForward_decode mode size32).extent h
      have h' := (isForward_decode mode size32).repeats
        (Cursor.start cursor.memory cursor.offset) h rfl hreach (Memory.Agrees.refl _ _ _)
      rw [h'] at hstart
      cases hstart

theorem ofMemory?_eq_some {mode : Mode} {size32 : Bool} {memory : Memory} {offset : Nat}
    {instruction : Instruction} (h : ofMemory? mode size32 memory offset = some instruction) :
    instruction.offset = offset ∧ 0 < instruction.length ∧ instruction.next ≤ memory.size := by
  have hdecode := decode_eq mode size32 (Cursor.start memory offset)
  simp only [Cursor.start, h] at hdecode
  obtain ⟨hoffset, hlength, -⟩ := decode_extent hdecode
  obtain ⟨-, -, -, hreach⟩ := (isForward_decode mode size32).extent hdecode
  simp only [Cursor.reach] at hoffset hreach
  refine ⟨hoffset, hlength, ?_⟩
  rw [next] at hreach ⊢
  omega

/-- The bytes of an instruction determine it: a region that holds them has the same instruction. -/
theorem ofMemory?_of_agrees {mode : Mode} {size32 : Bool} {memory other : Memory} {offset : Nat}
    {instruction : Instruction} (h : ofMemory? mode size32 memory offset = some instruction)
    (hsize : instruction.next ≤ other.size)
    (hagrees : memory.Agrees other offset instruction.next) :
    ofMemory? mode size32 other offset = some instruction := by
  have hdecode := decode_eq mode size32 (Cursor.start memory offset)
  simp only [Cursor.start, h] at hdecode
  have hother := (isForward_decode mode size32).repeats (Cursor.start other offset) hdecode rfl
    (hsize.trans (Nat.le_max_right _ _)) hagrees
  rw [ofMemory?, hother]

/-! ## NOPs -/

theorem oneByte_nop : Opcode.oneByte 0x90 = .plain := by decide

theorem toUInt16_eq_nop {byte : UInt8} (h : byte.toUInt16 = 0x90) : byte = 0x90 := by
  have hnat := congrArg UInt16.toNat h
  rw [UInt8.toNat_toUInt16] at hnat
  exact UInt8.toNat_inj.mp hnat

theorem decodeBody_nop (mode : Mode) (size32 : Bool) (cursor : Cursor) :
    decodeBody mode size32 cursor.offset .empty 0x90
        { cursor with offset := cursor.offset + 1 } =
      .ok (nop size32 cursor.offset) { cursor with offset := cursor.offset + 1 } := by
  have hlength : cursor.offset + 1 - cursor.offset = 1 := Nat.add_sub_cancel_left _ _
  cases size32
  all_goals
    change EStateM.Result.ok _ _ = _
    simp [nop, hlength, maxLength, Prefixes.empty, oneByte_nop, Opcode.Attributes.plain]

/-- Only a body that begins with the byte 90, without any prefix, decodes to a NOP. -/
theorem decodeBody_isNop {mode : Mode} {size32 : Bool} {start : Nat} {prefixes : Prefixes}
    {byte : UInt8} {cursor final : Cursor} {instruction : Instruction}
    (h : decodeBody mode size32 start prefixes byte cursor = .ok instruction final)
    (hnop : instruction.isNop = true) :
    { prefixes with escape := false } = Prefixes.empty ∧ byte = 0x90 := by
  obtain ⟨⟨opcode, info⟩, cursor₁, hopcode, h⟩ := bind_eq_ok h
  obtain ⟨operands, cursor₂, -, h⟩ := bind_eq_ok h
  obtain ⟨branch, cursor₃, -, h⟩ := bind_eq_ok h
  obtain ⟨position, cursor₄, -, h⟩ := bind_eq_ok h
  cases h
  simp only [isNop, Bool.and_eq_true, beq_iff_eq] at hnop
  obtain ⟨hcode, hprefixes⟩ := hnop
  -- An escaped opcode would be recorded among the prefixes.
  have hbyte : byte ≠ 0x0F := by
    rintro rfl
    have hescape : true = false := congrArg Prefixes.escape hprefixes
    cases hescape
  unfold scanOpcode at hopcode
  rw [if_neg hbyte] at hopcode
  cases hopcode
  refine ⟨?_, toUInt16_eq_nop hcode⟩
  rw [← hprefixes]
  simp [hbyte]

/-- An instruction that counts as a NOP is the byte 90 alone. -/
theorem decode_isNop {mode : Mode} {size32 : Bool} {cursor final : Cursor}
    {instruction : Instruction} (h : decode mode size32 cursor = .ok instruction final)
    (hnop : instruction.isNop = true) :
    instruction = nop size32 cursor.offset ∧
      cursor.memory.getByte (UInt32.ofNat cursor.offset) = 0x90 := by
  obtain ⟨start, middle, hstart, h⟩ := bind_eq_ok h
  cases hstart
  obtain ⟨head, middle, hhead, h⟩ := bind_eq_ok h
  cases head with
  | overlong prefixes last =>
    obtain ⟨-, hlast⟩ := scanHead_overlong hhead
    cases h
    simp only [isNop, Bool.and_eq_true, beq_iff_eq] at hnop
    rw [toUInt16_eq_nop hnop.1] at hlast
    exact absurd rfl hlast
  | opcode prefixes byte =>
    obtain ⟨hprefixes, rfl⟩ := decodeBody_isNop h hnop
    obtain ⟨-, -, ⟨rfl, rfl, hbyte⟩ | ⟨earlier, mark, rfl⟩⟩ := scanHead_opcode hhead
    · change decodeBody mode size32 cursor.offset .empty 0x90 _ = _ at h
      rw [decodeBody_nop] at h
      cases h
      exact ⟨rfl, hbyte.symm⟩
    · exact absurd hprefixes (add_ne_empty earlier mark)

theorem ofMemory?_isNop {mode : Mode} {size32 : Bool} {memory : Memory} {offset : Nat}
    {instruction : Instruction} (h : ofMemory? mode size32 memory offset = some instruction)
    (hnop : instruction.isNop = true) :
    instruction = nop size32 offset ∧ memory.getByte (UInt32.ofNat offset) = 0x90 := by
  have hdecode := decode_eq mode size32 (Cursor.start memory offset)
  simp only [Cursor.start, h] at hdecode
  exact decode_isNop hdecode hnop

end Instruction

end GuestMachine

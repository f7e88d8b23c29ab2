import GuestMachine.Proofs.Block.Building
import GuestMachine.Proofs.Instruction.Bodies

/-!
# Decoding in other modes

The mode says which operations are defined, and nothing about how long an instruction is. Two
opcodes belong to protected mode alone. In the other modes they take up the same bytes and raise the
fault of an undefined opcode, unless the instruction is too long for any mode. So instructions begin
and end at the same offsets in every mode, and real and virtual-8086 mode have the same blocks.
-/

namespace GuestMachine

namespace Opcode

/-- Outside of protected mode the opcode is undefined. -/
def isProtectedOnly (opcode : UInt16) : Bool := opcode == 0x63 || opcode == 0x0F00

theorem isProtectedOnly_iff {opcode : UInt16} :
    isProtectedOnly opcode = true ↔ opcode = 0x63 ∨ opcode = 0x0F00 := by
  simp only [isProtectedOnly, Bool.or_eq_true, beq_iff_eq]

/-- The ModRM byte of any other opcode is applied alike in all modes. -/
theorem refine_of_not_protectedOnly {opcode : UInt16} (hopcode : isProtectedOnly opcode = false)
    (mode other : Mode) (modrm : UInt8) (info : Attributes) :
    refine mode opcode modrm info = refine other opcode modrm info := by
  unfold refine
  split
  all_goals first | rfl | cases hopcode

theorem refine_of_protectedOnly {opcode : UInt16} (hopcode : isProtectedOnly opcode = true)
    {mode : Mode} (hmode : mode ≠ .protectedMode) (modrm : UInt8) (info : Attributes) :
    refine mode opcode modrm info = .undefined := by
  rcases isProtectedOnly_iff.mp hopcode with rfl | rfl
  all_goals simp [refine, hmode]

/-- In protected mode, too, no immediate follows. -/
theorem immediate_refine_of_protectedOnly {opcode : UInt16}
    (hopcode : isProtectedOnly opcode = true) (mode : Mode) (modrm : UInt8) :
    (refine mode opcode modrm .operand).immediate = .absent := by
  rcases isProtectedOnly_iff.mp hopcode with rfl | rfl
  all_goals
    simp only [refine]
    split <;> rfl

/-- Only one of the opcodes has a single byte. -/
theorem eq_of_protectedOnly {byte : UInt8} (hopcode : isProtectedOnly byte.toUInt16 = true) :
    byte = 0x63 := by
  rcases isProtectedOnly_iff.mp hopcode with hopcode | hopcode
  all_goals
    have hnat := congrArg UInt16.toNat hopcode
    rw [UInt8.toNat_toUInt16] at hnat
  · exact UInt8.toNat_inj.mp hnat
  · exact absurd (hnat.symm.trans_lt byte.toNat_lt) (by decide)

theorem oneByte_of_protectedOnly {byte : UInt8} (hopcode : isProtectedOnly byte.toUInt16 = true) :
    oneByte byte = .operand := by
  obtain rfl := eq_of_protectedOnly hopcode
  decide

theorem twoByte_of_protectedOnly {second : UInt8}
    (hopcode : isProtectedOnly (0x0F00 + second.toUInt16) = true) :
    twoByte second = .operand := by
  have hsecond := second.toNat_lt
  have hsum : (0x0F00 + second.toUInt16).toNat = 0x0F00 + second.toNat := by
    rw [UInt16.toNat_add, UInt8.toNat_toUInt16]
    exact Nat.mod_eq_of_lt (by change 3840 + _ < 65536; omega)
  rcases isProtectedOnly_iff.mp hopcode with hopcode | hopcode
  · rw [hopcode] at hsum
    change 99 = _ at hsum
    omega
  · rw [hopcode] at hsum
    obtain rfl : second = 0 := UInt8.toNat_inj.mp (Nat.add_left_cancel hsum.symm)
    decide

end Opcode

/-! ## Instructions -/

/-- What is made of the value of a scan changes nothing else. -/
theorem Scan.map_apply {α β : Type} (result : α → β) (scan : Scan α) (cursor : Cursor) :
    (result <$> scan) cursor =
      match scan cursor with
      | .ok value final => .ok (result value) final
      | .error reason final => .error reason final := by
  change EStateM.map result scan cursor = _
  rw [EStateM.map]
  cases scan cursor <;> rfl

namespace Body

open Instruction Scan

/-- The body as it is outside of protected mode. -/
def unprotected (body : Body) : Body :=
  if Opcode.isProtectedOnly body.opcode then { body with flow := .undefined } else body

/-- Decoding behind the opcode. -/
def scanOperands (mode : Mode) (operand32 address32 : Bool) (opcode : UInt16)
    (info : Opcode.Attributes) : Scan Body := do
  let (modrm, info) ← scanModrm mode opcode info address32
  let branch ← scanImmediate info operand32 address32
  return { opcode, modrm, branch, flow := info.flow }

variable {mode : Mode} (operand32 address32 : Bool)

/-- What is read behind an opcode of protected mode is the same in every mode. -/
theorem scanOperands_of_protectedOnly {opcode : UInt16}
    (hopcode : Opcode.isProtectedOnly opcode = true) (mode : Mode) :
    scanOperands mode operand32 address32 opcode .operand = do
      let modrm ← Cursor.nextByte
      scanDisplacement modrm address32
      return {
        opcode
        modrm := some modrm
        branch := none
        flow := (Opcode.refine mode opcode modrm .operand).flow } := by
  have hmodrm : Opcode.Attributes.operand.modrm = true := rfl
  have haddressed : Opcode.ignoresModrmMode opcode = false := by
    rcases Opcode.isProtectedOnly_iff.mp hopcode with rfl | rfl <;> decide
  have himmediate (modrm : UInt8) :
      scanImmediate (Opcode.refine mode opcode modrm .operand) operand32 address32 = pure none := by
    rw [scanImmediate, Opcode.immediate_refine_of_protectedOnly hopcode]
  simp only [scanOperands, scanModrm, hmodrm, haddressed, Bool.not_false, if_true, bind_assoc,
    pure_bind, himmediate]

theorem scanOperands_unprotected (hmode : mode ≠ .protectedMode) {opcode : UInt16}
    {info : Opcode.Attributes}
    (hinfo : Opcode.isProtectedOnly opcode = true → info = .operand) :
    scanOperands mode operand32 address32 opcode info =
      unprotected <$> scanOperands .protectedMode operand32 address32 opcode info := by
  cases hopcode : Opcode.isProtectedOnly opcode with
  | true =>
    obtain rfl := hinfo hopcode
    simp only [scanOperands_of_protectedOnly operand32 address32 hopcode, map_bind, map_pure,
      unprotected, hopcode, if_true, Opcode.refine_of_protectedOnly hopcode hmode]
    rfl
  | false =>
    have hrefine (modrm : UInt8) (info : Opcode.Attributes) :=
      Opcode.refine_of_not_protectedOnly hopcode mode .protectedMode modrm info
    simp only [scanOperands, scanModrm, hrefine, map_bind, map_pure, unprotected, hopcode,
      Bool.false_eq_true, if_false]

theorem scan_unprotected (hmode : mode ≠ .protectedMode) (first : UInt8) :
    scan mode operand32 address32 first =
      unprotected <$> scan .protectedMode operand32 address32 first := by
  have hscan (mode : Mode) : scan mode operand32 address32 first =
      scanOpcode first >>= fun found ↦
        scanOperands mode operand32 address32 found.1 found.2 := rfl
  rw [hscan, hscan, scanOpcode]
  split
  · simp only [bind_assoc, pure_bind, map_bind]
    congr 1
    funext second
    exact scanOperands_unprotected operand32 address32 hmode Opcode.twoByte_of_protectedOnly
  · simp only [pure_bind]
    exact scanOperands_unprotected operand32 address32 hmode Opcode.oneByte_of_protectedOnly

end Body

namespace Instruction

open Scan

/-- The instruction as it is outside of protected mode. -/
def unprotected (instruction : Instruction) : Instruction :=
  if Opcode.isProtectedOnly instruction.opcode ∧ instruction.length ≤ maxLength then
    { instruction with flow := .undefined }
  else
    instruction

theorem under_unprotected (body : Body) (size32 : Bool) (prefixes : Prefixes)
    (offset length : Nat) :
    body.unprotected.under size32 prefixes offset length =
      (body.under size32 prefixes offset length).unprotected := by
  rw [Body.unprotected, unprotected]
  by_cases hopcode : Opcode.isProtectedOnly body.opcode = true
  · by_cases hlength : length ≤ maxLength
    · simp [Body.under, hopcode, hlength, Nat.not_lt.mpr hlength]
    · simp [Body.under, hopcode, hlength, Nat.lt_of_not_le hlength]
  · simp [Body.under, hopcode]

theorem decodeBody_unprotected {mode : Mode} (hmode : mode ≠ .protectedMode) (size32 : Bool)
    (start : Nat) (prefixes : Prefixes) (first : UInt8) :
    decodeBody mode size32 start prefixes first =
      unprotected <$> decodeBody .protectedMode size32 start prefixes first := by
  simp only [Body.decodeBody_eq, Body.scan_unprotected _ _ hmode, bind_map_left, map_bind,
    map_pure, under_unprotected]

/-- Outside of protected mode decoding comes to the same, except for the flow. -/
theorem decode_unprotected {mode : Mode} (hmode : mode ≠ .protectedMode) (size32 : Bool)
    (cursor : Cursor) :
    decode mode size32 cursor = (unprotected <$> decode .protectedMode size32) cursor := by
  have hposition : Cursor.position cursor = .ok cursor.offset cursor := rfl
  rw [decode, decode, map_bind, bind_of_ok hposition, bind_of_ok hposition, map_bind]
  cases hhead : scanHead (maxLength - 1) .empty cursor with
  | error reason final => rw [bind_of_error hhead, bind_of_error hhead]
  | ok head final =>
    rw [bind_of_ok hhead, bind_of_ok hhead]
    cases head with
    | overlong prefixes last =>
      -- The opcode that is recorded is a prefix, which belongs to all modes.
      obtain ⟨-, hlast⟩ := scanHead_overlong hhead
      have hopcode : ¬ Opcode.isProtectedOnly last.toUInt16 = true := fun hopcode ↦
        hlast (Opcode.eq_of_protectedOnly hopcode ▸ rfl)
      simp only [map_pure, unprotected, hopcode, Bool.false_eq_true, false_and, if_false]
    | opcode prefixes byte =>
      exact congrFun (decodeBody_unprotected hmode size32 cursor.offset prefixes byte) final

theorem decode_virtual8086 (size32 : Bool) : decode .virtual8086 size32 = decode .real size32 := by
  funext cursor
  rw [decode_unprotected (by decide), decode_unprotected (by decide)]

/-! ## Boundaries -/

/-- Decoding one instruction after another from `offset`, whatever they do, comes to this offset. -/
inductive IsBoundary (mode : Mode) (size32 : Bool) (memory : Memory) (offset : Nat) : Nat → Prop
  | start : IsBoundary mode size32 memory offset offset
  | next {stop : Nat} {instruction : Instruction} :
      IsBoundary mode size32 memory offset stop →
      ofMemory? mode size32 memory stop = some instruction →
      IsBoundary mode size32 memory offset instruction.next

theorem next_unprotected (instruction : Instruction) :
    instruction.unprotected.next = instruction.next := by
  unfold unprotected
  split <;> rfl

/-- The next instruction begins at the same offset in every mode. -/
theorem map_next_ofMemory? (mode : Mode) (size32 : Bool) (memory : Memory) (offset : Nat) :
    (ofMemory? mode size32 memory offset).map next =
      (ofMemory? .protectedMode size32 memory offset).map next := by
  by_cases hmode : mode = .protectedMode
  · rw [hmode]
  · rw [ofMemory?, ofMemory?, decode_unprotected hmode, map_apply]
    cases decode .protectedMode size32 (Cursor.start memory offset) with
    | ok instruction final => exact congrArg some (next_unprotected instruction)
    | error reason final => rfl

theorem IsBoundary.inMode {mode : Mode} {size32 : Bool} {memory : Memory} {offset stop : Nat}
    (h : IsBoundary mode size32 memory offset stop) (other : Mode) :
    IsBoundary other size32 memory offset stop := by
  induction h with
  | start => exact .start
  | @next stop instruction _ hat ih =>
    have hnext := map_next_ofMemory? other size32 memory stop
    rw [← map_next_ofMemory? mode, hat, Option.map_some, Option.map_eq_some_iff] at hnext
    obtain ⟨found, hfound, hnext⟩ := hnext
    exact hnext ▸ ih.next hfound

/-! ## Blocks -/

theorem run_virtual8086 (size32 : Bool) (room : Nat) (taken : List Instruction)
    (cursor : Cursor) :
    run .virtual8086 size32 room taken cursor = run .real size32 room taken cursor := by
  induction room generalizing taken cursor with
  | zero => rfl
  | succ room ih => simp only [run, decode_virtual8086, ih]

theorem decodeBlock_virtual8086 (size32 : Bool) (limit : Nat) :
    decodeBlock .virtual8086 size32 limit = decodeBlock .real size32 limit := by
  funext cursor
  simp only [decodeBlock, run_virtual8086]

end Instruction

/-- No factory of these modes looks at the size flag of the code segment. -/
theorem Factory.make?_virtual8086 (factory : Factory) (size32 other : Bool) (requested : Tier) :
    factory.make? .virtual8086 size32 requested = factory.make? .real other requested := by
  simp only [make?, Mode.defaultSize32, Instruction.decodeBlock_virtual8086]

theorem Chain.body_ask_virtual8086 {chain other : Chain} (hchain : chain.mode = .virtual8086)
    (hother : other.mode = .real) (memory : Memory) (offset : Nat) (size32 size32' : Bool)
    (requested : Tier) (factories : List Factory) :
    (chain.ask memory offset size32 requested factories).toOption.map Block.body =
      (other.ask memory offset size32' requested factories).toOption.map Block.body := by
  induction factories with
  | nil => rfl
  | cons factory others ih =>
    rw [ask, ask, hchain, hother, factory.make?_virtual8086 size32 size32']
    cases factory.make? .real size32' requested (Cursor.start memory offset) with
    | error reason final => rfl
    | ok code? final =>
      cases code? with
      | none => exact ih
      | some code => rfl

open Instruction Scan in
/-- Decoding fails in every mode with the same error and cursor, or finds an instruction that is the
same in every mode but for its flow. In real and virtual-8086 mode that is the same, too, and in
protected mode it differs only for the two opcodes that raise the fault of an undefined opcode
outside of it. So blocks of real and virtual-8086 mode have the same operations, and instructions
begin and end at the same offsets in every mode. -/
theorem Instruction.decode_everyMode (size32 : Bool) (cursor : Cursor) :
    ((∃ reason final, ∀ mode, decode mode size32 cursor = .error reason final) ∨
      ∃ guarded instruction final,
        decode .protectedMode size32 cursor = .ok guarded final ∧
        decode .real size32 cursor = .ok instruction final ∧
        decode .virtual8086 size32 cursor = .ok instruction final ∧
        { instruction with flow := guarded.flow } = guarded ∧
        instruction.flow =
          if (guarded.opcode = 0x63 ∨ guarded.opcode = 0x0F00) ∧ guarded.length ≤ 15 then
            .invalid .undefinedOpcode
          else guarded.flow) ∧
    (∀ limit, decodeBlock .virtual8086 size32 limit cursor =
      decodeBlock .real size32 limit cursor) ∧
    (∀ (factories : List Factory) (hotThreshold : Option UInt32) (offset : Nat)
      (virtual32 real32 : Bool) (requested : Tier),
      ((Chain.ofFactories .virtual8086 factories hotThreshold).build cursor.memory offset virtual32
        requested).toOption.map Block.body =
      ((Chain.ofFactories .real factories hotThreshold).build cursor.memory offset real32
        requested).toOption.map Block.body) ∧
    ∀ mode other stop, IsBoundary mode size32 cursor.memory cursor.offset stop ↔
      IsBoundary other size32 cursor.memory cursor.offset stop := by
  refine ⟨?_, fun limit ↦ by rw [decodeBlock_virtual8086],
    fun factories hotThreshold offset virtual32 real32 requested ↦
      Chain.body_ask_virtual8086 rfl rfl _ _ _ _ _ _,
    fun mode other stop ↦ ⟨fun h ↦ h.inMode other, fun h ↦ h.inMode mode⟩⟩
  have hother {mode : Mode} (hmode : mode ≠ .protectedMode) :=
    (decode_unprotected hmode size32 cursor).trans (map_apply _ _ _)
  cases hdecode : decode .protectedMode size32 cursor with
  | error reason final =>
    refine .inl ⟨reason, final, fun mode ↦ ?_⟩
    by_cases hmode : mode = .protectedMode
    · rw [hmode, hdecode]
    · rw [hother hmode, hdecode]
  | ok guarded final =>
    refine .inr ⟨guarded, guarded.unprotected, final, rfl, ?_, ?_, ?_, ?_⟩
    · rw [hother (by decide), hdecode]
    · rw [hother (by decide), hdecode]
    · unfold unprotected
      split <;> rfl
    · simp only [unprotected, Opcode.isProtectedOnly_iff]
      exact apply_ite Instruction.flow _ _ _

end GuestMachine

import GuestMachine.Proofs.Instruction.Readings

/-!
# The body of an instruction

Behind its prefixes an instruction has an opcode, a ModRM byte with what addressing by it calls for,
and an immediate. The bytes of each say how long the next one is, with the operand size and the
address size, and these are all that the prefixes contribute. Decoding reads the body from the bytes
in this way, wherever they stand.
-/

namespace GuestMachine

/-- What an instruction says apart from its prefixes. -/
structure Body where
  opcode : UInt16
  modrm : Option UInt8
  branch : Option BranchTarget
  flow : Flow
  deriving DecidableEq, Repr

namespace Body

/-! ## Layout -/

def opcodeReading : Reading (UInt16 × Opcode.Attributes) :=
  Reading.byte.andThen fun first ↦
    if first = 0x0F then
      .exactly 1 fun bytes ↦ (0x0F00 + (bytes.headD 0).toUInt16, Opcode.twoByte (bytes.headD 0))
    else
      .yield (first.toUInt16, Opcode.oneByte first)

/-- How many bytes a displacement has. The base is that of the scale-index-base byte if there is
one. -/
def displacementLength (address32 : Bool) (form base : Nat) : Nat :=
  match form, address32 with
  | 0, true => if base = 5 then 4 else 0
  | 0, false => if base = 6 then 2 else 0
  | 1, _ => 1
  | 2, true => 4
  | 2, false => 2
  | _, _ => 0

/-- The scale-index-base byte and the displacement. -/
def addressing (address32 : Bool) (modrm : UInt8) : Reading Unit :=
  let form := modrm.toNat / 64
  let base := modrm.toNat % 8
  if address32 ∧ form ≠ 3 ∧ base = 4 then
    Reading.byte.andThen fun scale ↦
      .exactly (displacementLength address32 form (scale.toNat % 8)) fun _ ↦ ()
  else
    .exactly (displacementLength address32 form base) fun _ ↦ ()

def modrmReading (mode : Mode) (address32 : Bool) (opcode : UInt16) (info : Opcode.Attributes) :
    Reading (Option UInt8 × Opcode.Attributes) :=
  if info.modrm then
    Reading.byte.andThen fun modrm ↦
      (if Opcode.ignoresModrmMode opcode then .yield () else addressing address32 modrm).andThen
        fun _ ↦ .yield (some modrm, Opcode.refine mode opcode modrm info)
  else
    .yield (none, info)

def immediateLength (operand32 address32 : Bool) : Immediate → Nat
  | .absent => 0
  | .byte => 1
  | .word => 2
  | .wordByte => 3
  | .full => if operand32 then 4 else 2
  | .farPointer => if operand32 then 6 else 4
  | .memoryOffset => if address32 then 4 else 2

/-- The number that bytes make up in two's complement. -/
def signed (bytes : List UInt8) : Int := (littleEndian bytes : Int).bmod (256 ^ bytes.length)

/-- Where an immediate leads. The selector of a far pointer comes last. -/
def target (info : Opcode.Attributes) (immediate : List UInt8) : Option BranchTarget :=
  match info.immediate with
  | .byte | .full => if info.relative then some (.relative (signed immediate)) else none
  | .farPointer =>
    let offset := immediate.take (immediate.length - 2)
    let selector := immediate.drop (immediate.length - 2)
    some (.far (UInt16.ofNat (littleEndian selector)) (UInt32.ofNat (littleEndian offset)))
  | _ => none

def reading (mode : Mode) (operand32 address32 : Bool) : Reading Body :=
  opcodeReading.andThen fun (opcode, info) ↦
    (modrmReading mode address32 opcode info).andThen fun (modrm, info) ↦
      .exactly (immediateLength operand32 address32 info.immediate) fun immediate ↦
        { opcode, modrm, branch := target info immediate, flow := info.flow }

/-! ## Extent -/

theorem opcodeReading_takesAtMost : opcodeReading.TakesAtMost (1 + 1) := by
  refine (Reading.takesAtMost_exactly _ le_rfl).andThen fun first ↦ ?_
  split
  · exact Reading.takesAtMost_exactly _ le_rfl
  · exact Reading.takesAtMost_exactly _ (Nat.zero_le 1)

theorem displacementLength_le (address32 : Bool) (form base : Nat) :
    displacementLength address32 form base ≤ 4 := by
  unfold displacementLength
  split
  all_goals try split
  all_goals decide

theorem addressing_takesAtMost (address32 : Bool) (modrm : UInt8) :
    (addressing address32 modrm).TakesAtMost (1 + 4) := by
  have hdisplacement := displacementLength_le address32 (modrm.toNat / 64)
  unfold addressing
  dsimp only
  split
  · exact (Reading.takesAtMost_exactly _ le_rfl).andThen fun scale ↦
      Reading.takesAtMost_exactly _ (hdisplacement _)
  · exact Reading.takesAtMost_exactly _ ((hdisplacement _).trans (Nat.le_succ 4))

theorem modrmReading_takesAtMost (mode : Mode) (address32 : Bool) (opcode : UInt16)
    (info : Opcode.Attributes) :
    (modrmReading mode address32 opcode info).TakesAtMost (1 + (5 + 0)) := by
  unfold modrmReading
  split
  · refine (Reading.takesAtMost_exactly _ le_rfl).andThen fun modrm ↦ ?_
    refine Reading.TakesAtMost.andThen ?_ fun _ ↦ Reading.takesAtMost_exactly _ le_rfl
    split
    · exact Reading.takesAtMost_exactly _ (Nat.zero_le 5)
    · exact addressing_takesAtMost address32 modrm
  · exact Reading.takesAtMost_exactly _ (Nat.zero_le 6)

theorem immediateLength_le (operand32 address32 : Bool) (immediate : Immediate) :
    immediateLength operand32 address32 immediate ≤ 6 := by
  cases immediate <;> cases operand32 <;> cases address32 <;> decide

/-- Fourteen bytes are enough for any body. -/
theorem reading_takesAtMost (mode : Mode) (operand32 address32 : Bool) :
    (reading mode operand32 address32).TakesAtMost (2 + (6 + 6)) := by
  refine opcodeReading_takesAtMost.andThen fun (opcode, info) ↦ ?_
  refine (modrmReading_takesAtMost mode address32 opcode info).andThen fun (modrm, info) ↦ ?_
  exact Reading.takesAtMost_exactly _ (immediateLength_le operand32 address32 info.immediate)

/-- A body has an opcode, and so the bytes that it takes begin with the first one. -/
theorem head_of_reading {mode : Mode} {operand32 address32 : Bool} {bytes other : List UInt8}
    {body : Body} {length : Nat} (h : reading mode operand32 address32 bytes = some (body, length))
    (hother : bytes.take length <+: other) : other.head? = bytes.head? := by
  obtain ⟨⟨opcode, info⟩, count, rest, hopcode, -, rfl⟩ := Reading.andThen_eq_some h
  obtain ⟨first, one, more, hfirst, -, rfl⟩ := Reading.andThen_eq_some hopcode
  obtain ⟨hbytes, -, rfl⟩ := Reading.exactly_eq_some hfirst
  obtain ⟨tail, rfl⟩ := hother
  cases bytes with
  | nil => cases hbytes
  | cons byte bytes => rw [Nat.add_assoc, Nat.add_comm]; rfl

/-! ## Decoding -/

open Scan Instruction

theorem reads_scanBytes (count : Nat) : Reads (scanBytes count) (.exactly count fun _ ↦ ()) := by
  induction count with
  | zero => exact reads_pure ()
  | succ count ih =>
    have hreads := reads_nextByte.bind_exactly (fun _ ↦ ()) (fun _ ↦ ih) fun _ _ _ _ ↦ rfl
    rwa [Nat.add_comm] at hreads

theorem reads_scanOpcode : Reads (Cursor.nextByte >>= scanOpcode) opcodeReading := by
  refine reads_nextByte.bind fun first ↦ ?_
  unfold scanOpcode
  split
  · exact reads_nextByte.map_exactly fun second ↦ (0x0F00 + second.toUInt16, Opcode.twoByte second)
  · exact reads_pure _

/-- Where a ModRM byte calls for 32-bit addressing, with the base known. -/
theorem reads_displacement32 (form base : Nat) :
    Reads (match form with
      | 0 => scanBytes (if (base == 5) = true then 4 else 0)
      | 1 => scanBytes 1
      | 2 => scanBytes 4
      | _ => return ())
      (.exactly (displacementLength true form base) fun _ ↦ ()) := by
  match form with
  | 0 =>
    simp only [beq_iff_eq]
    exact reads_scanBytes _
  | 1 | 2 => exact reads_scanBytes _
  | _ + 3 => exact reads_pure ()

theorem reads_scanDisplacement (modrm : UInt8) (address32 : Bool) :
    Reads (scanDisplacement modrm address32) (addressing address32 modrm) := by
  unfold scanDisplacement addressing
  dsimp only
  generalize modrm.toNat / 64 = form
  generalize modrm.toNat % 8 = base
  cases address32 with
  | false =>
    simp only [Bool.false_eq_true, if_false, false_and]
    match form with
    | 0 | 1 | 2 => exact reads_scanBytes _
    | _ + 3 => exact reads_pure ()
  | true =>
    simp only [if_true, true_and]
    by_cases hscale : form ≠ 3 ∧ base = 4
    · simp only [if_pos hscale, pure_bind]
      exact reads_nextByte.bind fun scale ↦ reads_displacement32 form (scale.toNat % 8)
    · simp only [if_neg hscale, pure_bind]
      exact reads_displacement32 form base

theorem reads_scanModrm (mode : Mode) (opcode : UInt16) (info : Opcode.Attributes)
    (address32 : Bool) : Reads (scanModrm mode opcode info address32)
      (modrmReading mode address32 opcode info) := by
  unfold scanModrm modrmReading
  split
  · refine reads_nextByte.bind fun modrm ↦ ?_
    cases Opcode.ignoresModrmMode opcode with
    | true => exact (reads_pure ()).bind fun _ ↦ reads_pure _
    | false => exact (reads_scanDisplacement modrm address32).bind fun _ ↦ reads_pure _
  · exact reads_pure _

theorem signed_byte (byte : UInt8) : byte.toInt8.toInt = signed [byte] :=
  BitVec.toInt_eq_toNat_bmod byte.toBitVec

theorem signed_word {bytes : List UInt8} (hbytes : bytes.length = 2) :
    (UInt16.ofNat (littleEndian bytes)).toInt16.toInt = signed bytes := by
  rw [signed, hbytes]
  exact BitVec.toInt_ofNat' (littleEndian bytes)

theorem signed_doubleword {bytes : List UInt8} (hbytes : bytes.length = 4) :
    (UInt32.ofNat (littleEndian bytes)).toInt32.toInt = signed bytes := by
  rw [signed, hbytes]
  exact BitVec.toInt_ofNat' (littleEndian bytes)

theorem target_far {info : Opcode.Attributes} (hinfo : info.immediate = .farPointer)
    (offset selector : List UInt8) (hselector : selector.length = 2) :
    target info (offset ++ selector) =
      some (.far (UInt16.ofNat (littleEndian selector)) (UInt32.ofNat (littleEndian offset))) := by
  have hlength : (offset ++ selector).length - 2 = offset.length := by
    rw [List.length_append, hselector, Nat.add_sub_cancel]
  simp only [target, hinfo, hlength, List.take_left', List.drop_left']

theorem reads_scanImmediate (info : Opcode.Attributes) (operand32 address32 : Bool) :
    Reads (scanImmediate info operand32 address32)
      (.exactly (immediateLength operand32 address32 info.immediate) (target info)) := by
  unfold scanImmediate
  dsimp only
  cases himmediate : info.immediate with
  | absent =>
    refine (reads_pure none).exactly_congr fun bytes _ ↦ ?_
    rw [target, himmediate]
  | byte =>
    refine (reads_nextByte.map_exactly _).exactly_congr fun bytes hbytes ↦ ?_
    obtain ⟨byte, rfl⟩ := List.length_eq_one_iff.mp hbytes
    rw [target, himmediate, ← signed_byte]
    rfl
  | word =>
    refine (reads_nextWord.map_exactly _).exactly_congr fun bytes _ ↦ ?_
    rw [target, himmediate]
  | wordByte =>
    refine reads_nextWord.bind_exactly _ (fun _ ↦ reads_nextByte.map_exactly _) ?_
    intro low high _ _
    rw [target, himmediate]
  | full =>
    cases operand32 with
    | false =>
      refine (reads_nextWord.map_exactly _).exactly_congr fun bytes hbytes ↦ ?_
      rw [target, himmediate, ← signed_word hbytes]
    | true =>
      refine (reads_nextDoubleword.map_exactly _).exactly_congr fun bytes hbytes ↦ ?_
      rw [target, himmediate, ← signed_doubleword hbytes]
  | farPointer =>
    cases operand32 with
    | false =>
      rw [if_neg Bool.false_ne_true, bind_map_left]
      refine reads_nextWord.bind_exactly _ (fun _ ↦ reads_nextWord.map_exactly _) ?_
      intro offset selector hoffset hselector
      have hwide : (UInt16.ofNat (littleEndian offset)).toUInt32 =
          UInt32.ofNat (littleEndian offset) := by
        rw [← UInt32.toNat_inj, UInt16.toNat_toUInt32, toNat_ofNat_word hoffset.le,
          toNat_ofNat_doubleword (by omega)]
      rw [target_far himmediate offset selector hselector, hwide]
    | true =>
      refine reads_nextDoubleword.bind_exactly _ (fun _ ↦ reads_nextWord.map_exactly _) ?_
      intro offset selector _ hselector
      rw [target_far himmediate offset selector hselector]
  | memoryOffset =>
    cases address32 with
    | false =>
      refine (reads_nextWord.map_exactly _).exactly_congr fun bytes _ ↦ ?_
      rw [target, himmediate]
    | true =>
      refine (reads_nextDoubleword.map_exactly _).exactly_congr fun bytes _ ↦ ?_
      rw [target, himmediate]

/-- Decoding behind the first byte of a body. -/
def scan (mode : Mode) (operand32 address32 : Bool) (first : UInt8) : Scan Body := do
  let (opcode, info) ← scanOpcode first
  let (modrm, info) ← scanModrm mode opcode info address32
  let branch ← scanImmediate info operand32 address32
  return { opcode, modrm, branch, flow := info.flow }

theorem reads_scan (mode : Mode) (operand32 address32 : Bool) :
    Reads (Cursor.nextByte >>= scan mode operand32 address32)
      (reading mode operand32 address32) := by
  unfold scan
  rw [← bind_assoc]
  refine reads_scanOpcode.bind fun (opcode, info) ↦ ?_
  refine (reads_scanModrm mode opcode info address32).bind fun (modrm, info) ↦ ?_
  exact (reads_scanImmediate info operand32 address32).map_exactly
    fun branch ↦ Body.mk opcode modrm branch info.flow

/-- The instruction that a body makes up under its prefixes. -/
def under (body : Body) (size32 : Bool) (prefixes : Prefixes) (offset length : Nat) :
    Instruction where
  offset
  length
  opcode := body.opcode
  prefixes
  modrm := body.modrm
  operand32 := size32 != prefixes.operandSize
  address32 := size32 != prefixes.addressSize
  flow := if length > maxLength then .tooLong else body.flow
  branch := body.branch

theorem decodeBody_eq (mode : Mode) (size32 : Bool) (start : Nat) (prefixes : Prefixes)
    (first : UInt8) : decodeBody mode size32 start prefixes first = do
      let body ← scan mode (size32 != prefixes.operandSize) (size32 != prefixes.addressSize) first
      let stop ← Cursor.position
      return body.under size32 { prefixes with escape := first == 0x0F } start (stop - start) := by
  simp only [decodeBody, scan, bind_assoc, pure_bind, under]

/-- Where no prefix is left, decoding reads the body. -/
theorem decodeBody_result (mode : Mode) (size32 : Bool) (start : Nat) (prefixes : Prefixes)
    (cursor : Cursor) : (Cursor.nextByte >>= decodeBody mode size32 start prefixes) cursor =
      match reading mode (size32 != prefixes.operandSize) (size32 != prefixes.addressSize)
        cursor.rest with
      | some (body, length) =>
        .ok (body.under size32 { prefixes with escape := cursor.rest.head? == some 0x0F } start
          (cursor.offset + length - start)) (cursor.behind length)
      | none => .error cursor.endError cursor.atEnd := by
  have hscan := (reads_scan mode (size32 != prefixes.operandSize)
    (size32 != prefixes.addressSize)).result cursor
  cases hrest : cursor.rest with
  | nil =>
    rw [bind_of_error (nextByte_of_rest_nil hrest)]
    rfl
  | cons first tail =>
    rw [hrest, bind_of_ok (nextByte_of_rest hrest)] at hscan
    rw [bind_of_ok (nextByte_of_rest hrest), decodeBody_eq]
    cases hreading : reading mode (size32 != prefixes.operandSize)
        (size32 != prefixes.addressSize) (first :: tail) with
    | none =>
      rw [hreading] at hscan
      exact bind_of_error hscan
    | some found =>
      obtain ⟨body, length⟩ := found
      rw [hreading] at hscan
      rw [bind_of_ok hscan]
      rfl

/-! ## Control -/

/-- What holds of all rows of a table and of the attributes of the other opcodes holds of every
opcode. -/
theorem lookup_of_rows {P : Opcode.Attributes → Prop} {rows : List Opcode.Row}
    {other : Opcode.Attributes} (hrows : ∀ row ∈ rows, P row.attributes) (hother : P other)
    (opcode : UInt8) : P (Opcode.lookup rows other opcode) := by
  unfold Opcode.lookup
  split
  case h_1 row hrow => exact hrows row (List.mem_of_find?_eq_some hrow)
  case h_2 => exact hother

theorem arithmetic_mem (opcode : UInt8) :
    Opcode.arithmetic opcode ∈
      [.operand, .direct .byte, .direct .full, { flow := .interruptShadow }, .plain] := by
  unfold Opcode.arithmetic
  split
  all_goals try split
  all_goals decide

theorem oneByte_of_rows {P : Opcode.Attributes → Prop}
    (harithmetic : ∀ info ∈ [.operand, .direct .byte, .direct .full, { flow := .interruptShadow },
      .plain], P info)
    (hrows : ∀ row ∈ Opcode.oneByteRows, P row.attributes) (opcode : UInt8) :
    P (Opcode.oneByte opcode) := by
  have hplain : P .plain := harithmetic .plain (by decide)
  unfold Opcode.oneByte
  split
  · exact harithmetic _ (arithmetic_mem opcode)
  · exact lookup_of_rows hrows hplain opcode

theorem flow_oneByte (opcode : UInt8) : (Opcode.oneByte opcode).flow ≠ .tooLong :=
  oneByte_of_rows (P := (·.flow ≠ .tooLong)) (by decide) (by decide) opcode

theorem flow_twoByte (opcode : UInt8) : (Opcode.twoByte opcode).flow ≠ .tooLong :=
  lookup_of_rows (P := (·.flow ≠ .tooLong)) (by decide) (by decide) opcode

/-- The ModRM byte makes a form undefined, says how control goes on, or gives an immediate to an
opcode of the first map; otherwise it changes nothing. -/
theorem refine_cases (mode : Mode) (opcode : UInt16) (modrm : UInt8) (info : Opcode.Attributes) :
    Opcode.refine mode opcode modrm info = info ∨
      Opcode.refine mode opcode modrm info = .undefined ∨
      (∃ flow ∈ [Flow.interruptShadow, .call, .jump, .modeChange],
        Opcode.refine mode opcode modrm info = { info with flow }) ∨
      opcode < 0x0F00 ∧ ∃ immediate ∈ [Immediate.byte, .full],
        Opcode.refine mode opcode modrm info = { info with immediate } := by
  unfold Opcode.refine
  dsimp only
  split
  all_goals repeat' split
  all_goals first
    | exact .inl rfl
    | exact .inr (.inl rfl)
    | exact .inr (.inr (.inl ⟨_, by decide, rfl⟩))
    | exact .inr (.inr (.inr ⟨by decide, _, by decide, rfl⟩))

theorem flow_refine (mode : Mode) (opcode : UInt16) (modrm : UInt8) {info : Opcode.Attributes}
    (hinfo : info.flow ≠ .tooLong) :
    (Opcode.refine mode opcode modrm info).flow ≠ .tooLong := by
  rcases refine_cases mode opcode modrm info with
    hsame | hundefined | ⟨flow, hflow, hrefine⟩ | ⟨-, immediate, -, hrefine⟩
  · rwa [hsame]
  · rw [hundefined]
    decide
  · have hother : ∀ flow ∈ [Flow.interruptShadow, .call, .jump, .modeChange], flow ≠ .tooLong := by
      decide
    rw [hrefine]
    exact hother flow hflow
  · rwa [hrefine]

theorem flow_opcodeReading {bytes : List UInt8} {opcode : UInt16} {info : Opcode.Attributes}
    {count : Nat} (h : opcodeReading bytes = some ((opcode, info), count)) :
    info.flow ≠ .tooLong := by
  obtain ⟨first, one, more, -, hrest, -⟩ := Reading.andThen_eq_some h
  split at hrest
  · obtain ⟨-, hfound, -⟩ := Reading.exactly_eq_some hrest
    cases hfound
    exact flow_twoByte _
  · obtain ⟨-, hfound, -⟩ := Reading.exactly_eq_some hrest
    cases hfound
    exact flow_oneByte _

theorem flow_modrmReading {mode : Mode} {address32 : Bool} {opcode : UInt16}
    {info refined : Opcode.Attributes} {bytes : List UInt8} {modrm : Option UInt8} {count : Nat}
    (hinfo : info.flow ≠ .tooLong)
    (h : modrmReading mode address32 opcode info bytes = some ((modrm, refined), count)) :
    refined.flow ≠ .tooLong := by
  unfold modrmReading at h
  split at h
  · obtain ⟨byte, one, more, -, hrest, -⟩ := Reading.andThen_eq_some h
    obtain ⟨-, addressed, none, -, hrest, -⟩ := Reading.andThen_eq_some hrest
    obtain ⟨-, hfound, -⟩ := Reading.exactly_eq_some hrest
    cases hfound
    exact flow_refine mode opcode byte hinfo
  · obtain ⟨-, hfound, -⟩ := Reading.exactly_eq_some h
    cases hfound
    exact hinfo

/-- Only its length can make an instruction too long. -/
theorem flow_reading {mode : Mode} {operand32 address32 : Bool} {bytes : List UInt8} {body : Body}
    {length : Nat} (h : reading mode operand32 address32 bytes = some (body, length)) :
    body.flow ≠ .tooLong := by
  obtain ⟨⟨opcode, info⟩, count, more, hopcode, hrest, -⟩ := Reading.andThen_eq_some h
  obtain ⟨⟨modrm, refined⟩, count, more, hmodrm, hrest, -⟩ := Reading.andThen_eq_some hrest
  obtain ⟨-, rfl, -⟩ := Reading.exactly_eq_some hrest
  exact flow_modrmReading (flow_opcodeReading hopcode) hmodrm

end Body

end GuestMachine

import GuestMachine.Proofs.Instruction.PrefixRuns

/-!
# How long instructions are

An instruction is made up of at most fourteen prefixes and a body of at most eleven bytes, so that
none has more than 25 bytes. One that has more than fifteen is refused, and so is a run of fifteen
prefixes, which is not searched further for an opcode. How control goes on after any other is what
the opcode maps say, and only an instruction that ends a block holds a branch target.
-/

namespace GuestMachine

/-! ## The opcode maps -/

namespace Opcode

/-- The attributes of an opcode. One of the second map has 0F as its high byte. -/
def attributes (opcode : UInt16) : Attributes :=
  if opcode < 0x0F00 then oneByte opcode.toUInt8 else twoByte opcode.toUInt8

/-- The attributes of an opcode, with its ModRM byte applied if it has one. -/
def refined (mode : Mode) (opcode : UInt16) (modrm : Option UInt8) : Attributes :=
  modrm.elim (attributes opcode) fun modrm ↦ refine mode opcode modrm (attributes opcode)

/-- The bytes of an opcode. -/
def encoding (opcode : UInt16) : List UInt8 :=
  if opcode < 0x0F00 then [opcode.toUInt8] else [0x0F, opcode.toUInt8]

theorem attributes_oneByte (opcode : UInt8) :
    attributes opcode.toUInt16 = oneByte opcode ∧ encoding opcode.toUInt16 = [opcode] := by
  have hlt : opcode.toUInt16 < 0x0F00 := by
    rw [UInt16.lt_iff_toNat_lt, UInt8.toNat_toUInt16]
    exact opcode.toNat_lt.trans (by decide)
  rw [attributes, encoding, if_pos hlt, if_pos hlt, UInt8.toUInt8_toUInt16]
  exact ⟨rfl, rfl⟩

theorem attributes_twoByte (opcode : UInt8) :
    attributes (0x0F00 + opcode.toUInt16) = twoByte opcode ∧
      encoding (0x0F00 + opcode.toUInt16) = [0x0F, opcode] := by
  have hnot : ¬ 0x0F00 + opcode.toUInt16 < 0x0F00 := by
    rw [UInt16.lt_iff_toNat_lt, UInt16.toNat_add, UInt8.toNat_toUInt16]
    have hsmall := opcode.toNat_lt
    change ¬ (0x0F00 + opcode.toNat) % 2 ^ 16 < 0x0F00
    omega
  have hlow : (0x0F00 + opcode.toUInt16).toUInt8 = opcode := by
    rw [UInt16.toUInt8_add, UInt8.toUInt8_toUInt16]
    exact UInt8.zero_add opcode
  rw [attributes, encoding, if_neg hnot, if_neg hnot, hlow]
  exact ⟨rfl, rfl⟩

/-- The immediate holds a branch target. -/
def Attributes.hasTarget (info : Attributes) : Bool :=
  info.relative || info.immediate == .farPointer

/-- A branch target comes without a ModRM byte and ends the block, and what follows the opcode takes
up no more than `room` bytes. -/
structure Attributes.Fits (info : Attributes) (room : Nat) : Prop where
  target : info.hasTarget = true → info.modrm = false ∧ info.flow.isTerminator = true
  length : (if info.modrm then 6 else 0) + Body.immediateLength true true info.immediate ≤ room

instance (info : Attributes) (room : Nat) : Decidable (info.Fits room) :=
  decidable_of_iff
    ((info.hasTarget = true → info.modrm = false ∧ info.flow.isTerminator = true) ∧
      (if info.modrm then 6 else 0) + Body.immediateLength true true info.immediate ≤ room)
    ⟨fun h ↦ ⟨h.1, h.2⟩, fun h ↦ ⟨h.target, h.length⟩⟩

theorem fits_oneByte (opcode : UInt8) : (oneByte opcode).Fits 10 :=
  Body.oneByte_of_rows (P := (·.Fits 10)) (by decide) (by decide) opcode

theorem fits_twoByte (opcode : UInt8) : (twoByte opcode).Fits 7 :=
  Body.lookup_of_rows (P := (·.Fits 7)) (by decide) (by decide) opcode

theorem fits_attributes (opcode : UInt16) :
    (attributes opcode).Fits (if opcode < 0x0F00 then 10 else 7) := by
  unfold attributes
  split
  · exact fits_oneByte _
  · exact fits_twoByte _

/-! ## The ModRM byte -/

section

variable (mode : Mode) (opcode : UInt16) (modrm : UInt8) (info : Attributes)

/-- The ModRM byte adds no branch target. -/
theorem hasTarget_refine (htarget : (refine mode opcode modrm info).hasTarget = true) :
    info.hasTarget = true := by
  rcases Body.refine_cases mode opcode modrm info with
    hsame | hundefined | ⟨flow, -, hrefine⟩ | ⟨-, immediate, himmediate, hrefine⟩
  · rwa [hsame] at htarget
  · rw [hundefined] at htarget
    cases htarget
  · rwa [hrefine] at htarget
  · have hnear : ∀ immediate ∈ [Immediate.byte, .full], (immediate == .farPointer) = false := by
      decide
    rw [hrefine, Attributes.hasTarget, hnear immediate himmediate, Bool.or_false] at htarget
    rw [Attributes.hasTarget, htarget, Bool.true_or]

/-- It gives an immediate to opcodes of the first map only, and one of at most four bytes. -/
theorem immediateLength_refine :
    Body.immediateLength true true (refine mode opcode modrm info).immediate ≤
      max (Body.immediateLength true true info.immediate) (if opcode < 0x0F00 then 4 else 0) := by
  rcases Body.refine_cases mode opcode modrm info with
    hsame | hundefined | ⟨flow, -, hrefine⟩ | ⟨hfirst, immediate, himmediate, hrefine⟩
  · rw [hsame]
    exact Nat.le_max_left _ _
  · rw [hundefined]
    exact Nat.zero_le _
  · rw [hrefine]
    exact Nat.le_max_left _ _
  · have hshort : ∀ immediate ∈ [Immediate.byte, .full],
        Body.immediateLength true true immediate ≤ 4 := by decide
    rw [hrefine, if_pos hfirst]
    exact (hshort immediate himmediate).trans (Nat.le_max_right _ _)

end

variable {mode : Mode} {opcode : UInt16} {modrm : Option UInt8}

/-- The parts behind the prefixes take up eleven bytes at most: an opcode of the first map with six
bytes of addressing and a doubleword. -/
theorem extent_refined (mode : Mode) (hmodrm : modrm.isSome = (attributes opcode).modrm) :
    (encoding opcode).length + ((if (attributes opcode).modrm then 6 else 0) +
      Body.immediateLength true true (refined mode opcode modrm).immediate) ≤ 11 := by
  have hlength := (fits_attributes opcode).length
  have hencoding : (encoding opcode).length = if opcode < 0x0F00 then 1 else 2 := by
    unfold encoding
    split <;> rfl
  cases modrm with
  | none =>
    rw [hencoding, refined, Option.elim_none]
    split <;> simp_all only [if_true, if_false] <;> omega
  | some modrm =>
    have hrefine := immediateLength_refine mode opcode modrm (attributes opcode)
    rw [← hmodrm, Option.isSome_some, if_pos rfl] at hlength ⊢
    rw [hencoding, refined, Option.elim_some]
    split <;> simp_all only [if_true, if_false] <;> omega

/-- A branch target ends the block. -/
theorem isTerminator_refined (hmodrm : modrm.isSome = (attributes opcode).modrm)
    (htarget : (refined mode opcode modrm).hasTarget = true) :
    (refined mode opcode modrm).flow.isTerminator = true := by
  cases modrm with
  | none => exact ((fits_attributes opcode).target htarget).2
  | some modrm =>
    obtain ⟨hnone, -⟩ := (fits_attributes opcode).target (hasTarget_refine _ _ _ _ htarget)
    exact absurd (hmodrm.trans hnone) Bool.noConfusion

/-- The bytes begin with the opcode and its ModRM byte, and the opcode maps give the flow. -/
structure Decides (mode : Mode) (bytes : List UInt8) (opcode : UInt16) (modrm : Option UInt8)
    (flow : Flow) : Prop where
  encoding : encoding opcode ++ modrm.toList <+: bytes
  hasModrm : modrm.isSome = (attributes opcode).modrm
  flow : flow = (refined mode opcode modrm).flow

end Opcode

/-! ## Bodies -/

namespace Body

theorem immediateLength_le_widest (operand32 address32 : Bool) (immediate : Immediate) :
    immediateLength operand32 address32 immediate ≤ immediateLength true true immediate := by
  cases immediate <;> cases operand32 <;> cases address32 <;> decide

theorem hasTarget_of_target {info : Opcode.Attributes} {immediate : List UInt8}
    (htarget : (target info immediate).isSome = true) : info.hasTarget = true := by
  unfold target at htarget
  rw [Opcode.Attributes.hasTarget, Bool.or_eq_true, beq_iff_eq]
  split at htarget
  case h_1 | h_2 =>
    left
    by_contra hnot
    rw [if_neg hnot] at htarget
    cases htarget
  case h_3 hfar => exact .inr hfar
  case h_4 => cases htarget

theorem opcodeReading_eq_some {bytes : List UInt8} {opcode : UInt16} {info : Opcode.Attributes}
    {count : Nat} (h : opcodeReading bytes = some ((opcode, info), count)) :
    info = Opcode.attributes opcode ∧ count = (Opcode.encoding opcode).length ∧
      bytes.take count = Opcode.encoding opcode := by
  obtain ⟨first, one, more, hfirst, hrest, rfl⟩ := Reading.andThen_eq_some h
  obtain ⟨hbytes, rfl, rfl⟩ := Reading.exactly_eq_some hfirst
  obtain ⟨first, tail, rfl⟩ := List.exists_cons_of_length_pos hbytes
  change (if first = 0x0F then _ else _ : Reading _) tail = _ at hrest
  split at hrest
  · next hescape =>
    obtain ⟨htail, hvalue, rfl⟩ := Reading.exactly_eq_some hrest
    obtain ⟨second, tail, rfl⟩ := List.exists_cons_of_length_pos htail
    obtain ⟨hattributes, hencoding⟩ := Opcode.attributes_twoByte second
    cases hvalue
    rw [hescape]
    exact ⟨hattributes.symm, congrArg List.length hencoding.symm, hencoding.symm⟩
  · obtain ⟨-, hvalue, rfl⟩ := Reading.exactly_eq_some hrest
    obtain ⟨hattributes, hencoding⟩ := Opcode.attributes_oneByte first
    cases hvalue
    exact ⟨hattributes.symm, congrArg List.length hencoding.symm, hencoding.symm⟩

theorem modrmReading_eq_some {mode : Mode} {address32 : Bool} {opcode : UInt16}
    {info refined : Opcode.Attributes} {bytes : List UInt8} {modrm : Option UInt8} {count : Nat}
    (h : modrmReading mode address32 opcode info bytes = some ((modrm, refined), count)) :
    modrm.isSome = info.modrm ∧ modrm.toList <+: bytes ∧
      refined = modrm.elim info (Opcode.refine mode opcode · info) ∧
      count ≤ if info.modrm then 6 else 0 := by
  have hcount : count ≤ 6 := (modrmReading_takesAtMost mode address32 opcode info).count_le
    (reads_scanModrm mode opcode info address32).isLocal h
  unfold modrmReading at h
  split at h
  · next hmodrm =>
    obtain ⟨byte, one, more, hbyte, hrest, -⟩ := Reading.andThen_eq_some h
    obtain ⟨-, addressed, none, -, hrest, -⟩ := Reading.andThen_eq_some hrest
    obtain ⟨-, hfound, -⟩ := Reading.exactly_eq_some hrest
    obtain ⟨hbytes, rfl, -⟩ := Reading.exactly_eq_some hbyte
    obtain ⟨first, tail, rfl⟩ := List.exists_cons_of_length_pos hbytes
    cases hfound
    rw [if_pos hmodrm]
    exact ⟨hmodrm.symm, ⟨tail, rfl⟩, rfl, hcount⟩
  · next hmodrm =>
    obtain ⟨-, hfound, rfl⟩ := Reading.exactly_eq_some h
    cases hfound
    exact ⟨(Bool.eq_false_iff.mpr hmodrm).symm, List.nil_prefix, rfl, Nat.zero_le _⟩

/-- The opcode and the ModRM byte of a body are its first bytes. They decide the flow, how long the
body is and whether it holds a branch target. -/
theorem reading_eq_some {mode : Mode} {operand32 address32 : Bool} {bytes : List UInt8}
    {body : Body} {length : Nat} (h : reading mode operand32 address32 bytes = some (body, length)) :
    Opcode.Decides mode bytes body.opcode body.modrm body.flow ∧ length ≤ 11 ∧
      (body.branch.isSome = true → (Opcode.refined mode body.opcode body.modrm).hasTarget = true) := by
  obtain ⟨⟨opcode, info⟩, count, more, hopcode, hbehind, hlength⟩ := Reading.andThen_eq_some h
  obtain ⟨⟨modrm, refined⟩, addressed, last, hmodrm, hrest, hmore⟩ :=
    Reading.andThen_eq_some hbehind
  obtain ⟨-, hbody, hlast⟩ := Reading.exactly_eq_some hrest
  obtain ⟨rfl, hcount, hencoding⟩ := opcodeReading_eq_some hopcode
  obtain ⟨hsome, hfirst, rfl, haddressed⟩ := modrmReading_eq_some hmodrm
  cases hbody
  refine ⟨⟨?_, hsome, rfl⟩, ?_, hasTarget_of_target⟩
  · rw [← hencoding]
    conv_rhs => rw [← List.take_append_drop count bytes]
    exact (List.prefix_append_right_inj _).mpr hfirst
  · have hextent := Opcode.extent_refined mode hsome
    have hwidest := immediateLength_le_widest operand32 address32
      (Opcode.refined mode opcode modrm).immediate
    change last = immediateLength operand32 address32
      (Opcode.refined mode opcode modrm).immediate at hlast
    omega

end Body

/-! ## Instructions -/

/-- The first fifteen bytes at the cursor are prefixes. -/
def Cursor.IsOverrun (cursor : Cursor) : Prop :=
  ∃ run bytes, cursor.rest = run ++ bytes ∧ run.length = 15 ∧ ∀ byte ∈ run, byte ∈ prefixBytes

theorem Cursor.exists_hasRun {cursor : Cursor} (hnot : ¬ cursor.IsOverrun) :
    ∃ run bytes, cursor.HasRun run bytes := by
  let run := cursor.rest.takeWhile (· ∈ prefixBytes)
  let bytes := cursor.rest.dropWhile (· ∈ prefixBytes)
  have hrest : cursor.rest = run ++ bytes := List.takeWhile_append_dropWhile.symm
  have hprefixes : ∀ byte ∈ run, byte ∈ prefixBytes :=
    fun byte hbyte ↦ of_decide_eq_true (List.all_eq_true.mp List.all_takeWhile byte hbyte)
  refine ⟨run, bytes, hrest, hprefixes, ?_, ?_⟩
  · by_contra hmany
    have hfifteen : (run.take 15).length = 15 := List.length_take_of_le (Nat.lt_of_not_le hmany)
    refine hnot ⟨run.take 15, run.drop 15 ++ bytes, ?_, hfifteen, ?_⟩
    · rw [← List.append_assoc, List.take_append_drop]
      exact hrest
    · exact fun byte hbyte ↦ hprefixes byte (List.mem_of_mem_take hbyte)
  · intro first hfirst
    have hends := List.head?_dropWhile_not (· ∈ prefixBytes) cursor.rest
    have hhead : (cursor.rest.dropWhile (· ∈ prefixBytes)).head? = some first := hfirst
    rw [hhead] at hends
    exact of_decide_eq_false hends

namespace Instruction

open Scan

theorem scanHead_overrun {run bytes : List UInt8} {room : Nat} {cursor : Cursor}
    (prefixes : Prefixes) (hrun : ∀ byte ∈ run, byte ∈ prefixBytes)
    (hlength : run.length = room + 1) (hrest : cursor.rest = run ++ bytes) :
    ∃ found last final, scanHead room prefixes cursor = .ok (.overlong found last) final := by
  induction room generalizing run prefixes cursor with
  | zero =>
    obtain ⟨byte, rfl⟩ := List.length_eq_one_iff.mp hlength
    obtain ⟨mark, hmark⟩ : ∃ mark, Prefix.ofByte? byte = some mark :=
      Option.ne_none_iff_exists'.mp fun hnone ↦
        ofByte?_eq_none_iff.mp hnone (hrun byte List.mem_cons_self)
    rw [scanHead, bind_of_ok (nextByte_of_rest hrest)]
    simp only [hmark]
    exact ⟨_, _, _, rfl⟩
  | succ room ih =>
    obtain ⟨byte, run, rfl⟩ := List.exists_cons_of_length_eq_add_one hlength
    obtain ⟨hbyte, hrun⟩ := List.forall_mem_cons.mp hrun
    obtain ⟨mark, hmark⟩ : ∃ mark, Prefix.ofByte? byte = some mark :=
      Option.ne_none_iff_exists'.mp fun hnone ↦ ofByte?_eq_none_iff.mp hnone hbyte
    have hbehind : (cursor.behind 1).rest = run ++ bytes := by rw [Cursor.rest_behind, hrest]; rfl
    rw [scanHead, bind_of_ok (nextByte_of_rest hrest)]
    simp only [hmark]
    exact ih _ hrun (Nat.succ.inj hlength) hbehind

/-- A run of fifteen prefixes is an instruction of its own, which is refused. -/
theorem decode_overrun {mode : Mode} {size32 : Bool} {cursor final : Cursor}
    {instruction : Instruction} (hoverrun : cursor.IsOverrun)
    (h : decode mode size32 cursor = .ok instruction final) :
    instruction.length = 15 ∧ instruction.flow = .invalid .protection0 ∧
      instruction.branch = none := by
  obtain ⟨run, bytes, hrest, hlength, hrun⟩ := hoverrun
  obtain ⟨found, last, middle, hhead⟩ := scanHead_overrun .empty hrun hlength hrest
  obtain ⟨start, _, hstart, h⟩ := bind_eq_ok h
  cases hstart
  obtain ⟨head, _, hfound, h⟩ := bind_eq_ok h
  cases hfound.symm.trans hhead
  cases h
  exact ⟨rfl, rfl, rfl⟩

/-- Any other instruction is a body behind its prefixes. -/
theorem exists_body {mode : Mode} {size32 : Bool} {cursor final : Cursor}
    {instruction : Instruction} (hnot : ¬ cursor.IsOverrun)
    (h : decode mode size32 cursor = .ok instruction final) :
    ∃ run bytes body length, cursor.HasRun run bytes ∧
      Body.reading mode (size32 != decide (0x66 ∈ run)) (size32 != decide (0x67 ∈ run)) bytes =
        some (body, length) ∧
      instruction.IsPrefixed size32 cursor.offset run body length (bytes.head? == some 0x0F) := by
  obtain ⟨run, bytes, hrun⟩ := Cursor.exists_hasRun hnot
  have hcases := decode_cases mode size32 hrun
  cases hreading : Body.reading mode (size32 != decide (0x66 ∈ run))
      (size32 != decide (0x67 ∈ run)) bytes with
  | none =>
    rw [hreading] at hcases
    exact nomatch hcases.symm.trans h
  | some found =>
    obtain ⟨body, length⟩ := found
    rw [hreading] at hcases
    obtain ⟨other, hother, hprefixed⟩ := hcases
    cases hother.symm.trans h
    exact ⟨run, bytes, body, length, hrun, hreading, hprefixed⟩

/-- Decoding stops behind the instruction, and no byte from there on has a part in it: a region that
holds the bytes of the instruction and may end with them has the same instruction. -/
theorem decode_stops {mode : Mode} {size32 : Bool} {cursor final : Cursor}
    {instruction : Instruction} (h : decode mode size32 cursor = .ok instruction final) :
    final = cursor.behind instruction.length ∧
      ∀ other : Cursor, other.offset = cursor.offset → final.offset ≤ other.memory.size →
        cursor.memory.Agrees other.memory cursor.offset final.offset →
        decode mode size32 other = .ok instruction (other.behind instruction.length) := by
  obtain ⟨hoffset, -, hfinal⟩ := decode_extent h
  rw [next, hoffset] at hfinal
  refine ⟨hfinal, fun other hother hholds hagrees ↦ ?_⟩
  have hrepeats := (isForward_decode mode size32).repeats other h hother
    (hholds.trans (Nat.le_max_right _ _)) hagrees
  rwa [hfinal, ← hother] at hrepeats

/-- A body behind its prefixes goes on as its opcode says, unless both are too long together, and
ends the block if it holds a branch target. -/
theorem IsPrefixed.flow_cases {mode : Mode} {size32 escaped operand32 address32 : Bool} {start : Nat}
    {run bytes : List UInt8} {body : Body} {length : Nat} {instruction : Instruction}
    (hprefixed : instruction.IsPrefixed size32 start run body length escaped)
    (hreading : Body.reading mode operand32 address32 bytes = some (body, length)) :
    (instruction.flow = .invalid .protection0 ↔ 15 < instruction.length) ∧
      (instruction.length ≤ 15 → Opcode.Decides mode bytes instruction.opcode instruction.modrm
        instruction.flow) ∧
      (instruction.branch.isSome = true → instruction.flow.isTerminator = true) := by
  obtain ⟨hdecides, -, htarget⟩ := Body.reading_eq_some hreading
  have hflow := hprefixed.flow
  rw [← hprefixed.length] at hflow
  by_cases hlong : 15 < instruction.length
  · rw [if_pos hlong] at hflow
    rw [hflow]
    exact ⟨iff_of_true rfl hlong, fun hshort ↦ absurd hlong (Nat.not_lt_of_le hshort), fun _ ↦ rfl⟩
  · rw [if_neg hlong] at hflow
    rw [hflow, hprefixed.opcode, hprefixed.modrm, hprefixed.branch]
    refine ⟨iff_of_false (Body.flow_reading hreading) hlong, fun _ ↦ hdecides, fun hbranch ↦ ?_⟩
    rw [hdecides.flow]
    exact Opcode.isTerminator_refined hdecides.hasModrm (htarget hbranch)

/-- What is decoded has at least one byte and at most 25, and no byte behind them is read: any region
that holds them has the same instruction. It is refused for its length if it has more than fifteen
bytes, or begins with fifteen prefixes and ends there. Any other goes on as the opcode maps say of
its opcode and its ModRM byte. Only what ends a block holds a branch target. -/
theorem decode_bounded (mode : Mode) (size32 : Bool) {cursor final : Cursor}
    {instruction : Instruction} (h : decode mode size32 cursor = .ok instruction final) :
    (1 ≤ instruction.length ∧ instruction.length ≤ 25) ∧
      (final = cursor.behind instruction.length ∧
        ∀ other : Cursor, other.offset = cursor.offset → final.offset ≤ other.memory.size →
          cursor.memory.Agrees other.memory cursor.offset final.offset →
          decode mode size32 other = .ok instruction (other.behind instruction.length)) ∧
      (instruction.flow = .invalid .protection0 ↔ 15 < instruction.length ∨ cursor.IsOverrun) ∧
      (cursor.IsOverrun → instruction.length = 15) ∧
      (instruction.length ≤ 15 → ¬ cursor.IsOverrun → ∃ run bytes, cursor.HasRun run bytes ∧
        Opcode.Decides mode bytes instruction.opcode instruction.modrm instruction.flow) ∧
      (instruction.branch.isSome = true → instruction.flow.isTerminator = true) := by
  obtain ⟨-, hlength, -⟩ := decode_extent h
  by_cases hoverrun : cursor.IsOverrun
  · obtain ⟨hfifteen, hflow, hbranch⟩ := decode_overrun hoverrun h
    refine ⟨⟨hlength, by omega⟩, decode_stops h, iff_of_true hflow (.inr hoverrun),
      fun _ ↦ hfifteen, fun _ hnot ↦ absurd hoverrun hnot, ?_⟩
    rw [hbranch]
    nofun
  · obtain ⟨run, bytes, body, length, hrun, hreading, hprefixed⟩ := exists_body hoverrun h
    obtain ⟨-, heleven, -⟩ := Body.reading_eq_some hreading
    obtain ⟨hrefused, hdecides, hends⟩ := hprefixed.flow_cases hreading
    have hfew := hrun.few
    have hwhole := hprefixed.length
    exact ⟨⟨hlength, by omega⟩, decode_stops h, hrefused.trans (or_iff_left hoverrun).symm,
      fun hnot ↦ absurd hnot hoverrun, fun hshort _ ↦ ⟨run, bytes, hrun, hdecides hshort⟩, hends⟩

/-- Fourteen prefixes, an opcode with a ModRM byte, a scale-index-base byte, a displacement and an
immediate, and a NOP. -/
def longCode : Memory := .rom (Array.replicate 14 0x2E ++
  #[0x81, 0x84, 0x20, 0x01, 0x02, 0x03, 0x04, 0x05, 0x06, 0x07, 0x08, 0x90])

/-- The same bytes without the NOP. -/
def longOnly : Cursor := .start (.ram (.ofBytes (longCode.bytes.take 25))) 0

def longest : Instruction where
  offset := 0
  length := 25
  opcode := 0x81
  prefixes := { segment := some .cs }
  modrm := some 0x84
  operand32 := true
  address32 := true
  flow := .invalid .protection0
  branch := none

theorem decode_bounded_longest :
    decode .protectedMode true (.start longCode 0) = .ok longest ⟨longCode, 0, 25⟩ ∧
      longest.length ≤ 25 ∧
      decode .protectedMode true longOnly = .ok longest (longOnly.behind 25) ∧
      ¬ (Cursor.start longCode 0).IsOverrun := by
  have hhead : scanHead 14 .empty (.start longCode 0) =
      .ok (.opcode { segment := some .cs } 0x81) ⟨longCode, 0, 15⟩ := by cbv
  have hstart : Cursor.position (.start longCode 0) = .ok 0 (.start longCode 0) := rfl
  have hdecode : decode .protectedMode true (.start longCode 0) =
      .ok longest ⟨longCode, 0, 25⟩ := (bind_of_ok hstart).trans (bind_of_ok hhead)
  have hsame : ∀ offset < 25, longCode.getByte (UInt32.ofNat offset) =
      longOnly.memory.getByte (UInt32.ofNat offset) := by decide
  obtain ⟨⟨-, hlength⟩, ⟨-, hothers⟩, -, hfifteen, -⟩ := decode_bounded .protectedMode true hdecode
  refine ⟨hdecode, hlength, hothers longOnly rfl (by decide) ?_, fun hoverrun ↦ ?_⟩
  · exact fun offset _ hlast ↦ hsame offset hlast
  · exact absurd (hfifteen hoverrun) (by decide)

end Instruction

end GuestMachine

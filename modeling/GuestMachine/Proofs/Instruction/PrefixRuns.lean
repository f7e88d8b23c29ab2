import GuestMachine.Proofs.Instruction.Bodies

/-!
# Runs of prefixes

Whatever prefixes stand before a body, and in whatever order, they amount to very little: the last
segment override, the last repetition, and which of the others there are. They change the body only
through its operand and address size, each of which is the other one than by default if its prefix
occurs at all, and the instruction only by their number.
-/

namespace GuestMachine

/-- The bytes that are prefixes. -/
def prefixBytes : List UInt8 :=
  [0x26, 0x2E, 0x36, 0x3E, 0x64, 0x65, 0x66, 0x67, 0xF0, 0xF2, 0xF3]

theorem ofByte?_eq_none_iff {byte : UInt8} : Prefix.ofByte? byte = none ↔ byte ∉ prefixBytes := by
  unfold Prefix.ofByte?
  split
  all_goals simp_all [prefixBytes]

namespace Prefixes

def segmentBit? : UInt8 → Option Nat
  | 0x26 => some 0x0004
  | 0x2E => some 0x0008
  | 0x36 => some 0x0010
  | 0x3E => some 0x0020
  | 0x64 => some 0x4000
  | 0x65 => some 0x2000
  | _ => none

def repetitionBit? : UInt8 → Option Nat
  | 0xF2 => some 0x0100
  | 0xF3 => some 0x0200
  | _ => none

/-- The bits of a run of prefixes, and of the escape byte behind it. -/
def runBits (run : List UInt8) (escaped : Bool) : Nat :=
  (run.filterMap segmentBit?).getLast?.getD 0 + (run.filterMap repetitionBit?).getLast?.getD 0 +
    (if 0xF0 ∈ run then 0x0080 else 0) + (if 0x66 ∈ run then 0x0400 else 0) +
    (if 0x67 ∈ run then 0x0800 else 0) + (if escaped then 0x8000 else 0)

/-- The prefixes are what the run amounts to. -/
structure Describes (prefixes : Prefixes) (run : List UInt8) : Prop where
  segment : prefixes.segment.map segmentBits = (run.filterMap segmentBit?).getLast?
  repetition : prefixes.repetition.map repetitionBits = (run.filterMap repetitionBit?).getLast?
  lock : prefixes.lock = decide (0xF0 ∈ run)
  operandSize : prefixes.operandSize = decide (0x66 ∈ run)
  addressSize : prefixes.addressSize = decide (0x67 ∈ run)

theorem describes_empty : empty.Describes [] := by
  constructor <;> rfl

theorem Describes.add {prefixes : Prefixes} {run : List UInt8} {byte : UInt8} {mark : Prefix}
    (h : prefixes.Describes run) (hmark : Prefix.ofByte? byte = some mark) :
    (prefixes.add mark).Describes (run ++ [byte]) := by
  unfold Prefix.ofByte? at hmark
  split at hmark
  case h_12 => cases hmark
  -- Every other byte is found at one place and changes what is known of no other.
  all_goals
    cases hmark
    exact
      { segment := by simp [Prefixes.add, segmentBit?, segmentBits, h.segment]
        repetition := by simp [Prefixes.add, repetitionBit?, repetitionBits, h.repetition]
        lock := by simp [Prefixes.add, h.lock]
        operandSize := by simp [Prefixes.add, h.operandSize]
        addressSize := by simp [Prefixes.add, h.addressSize] }

theorem Describes.bits_eq {prefixes : Prefixes} {run : List UInt8} (h : prefixes.Describes run)
    (escaped : Bool) : { prefixes with escape := escaped }.bits = runBits run escaped := by
  have helim (bit : Option SegmentOverride) :
      bit.elim 0 segmentBits = (bit.map segmentBits).getD 0 := by cases bit <;> rfl
  have helim' (bit : Option Repetition) :
      bit.elim 0 repetitionBits = (bit.map repetitionBits).getD 0 := by cases bit <;> rfl
  simp only [bits, runBits, helim, helim', h.segment, h.repetition, h.lock, h.operandSize,
    h.addressSize, decide_eq_true_eq]

end Prefixes

/-- A run of prefixes stands at the cursor, not more of them than may be. The other bytes up to the
end of the region do not begin with a prefix. -/
structure Cursor.HasRun (cursor : Cursor) (run bytes : List UInt8) : Prop where
  rest : cursor.rest = run ++ bytes
  prefixes : ∀ byte ∈ run, byte ∈ prefixBytes
  few : run.length ≤ 14
  ends : ∀ first ∈ bytes.head?, first ∉ prefixBytes

namespace Instruction

open Scan

/-- The instruction is the one of a body behind a run of prefixes. The default for its sizes is
`size32`, and `escaped` says whether the body begins with the escape byte. -/
structure IsPrefixed (instruction : Instruction) (size32 : Bool) (start : Nat) (run : List UInt8)
    (body : Body) (bodyLength : Nat) (escaped : Bool) : Prop where
  offset : instruction.offset = start
  length : instruction.length = run.length + bodyLength
  opcode : instruction.opcode = body.opcode
  prefixes : instruction.prefixes.bits = Prefixes.runBits run escaped
  modrm : instruction.modrm = body.modrm
  operand32 : instruction.operand32 = (size32 != decide (0x66 ∈ run))
  address32 : instruction.address32 = (size32 != decide (0x67 ∈ run))
  flow : instruction.flow =
    if 15 < run.length + bodyLength then .invalid .protection0 else body.flow
  branch : instruction.branch = body.branch

/-- What comes after a scan is the same if the scan is. -/
theorem bind_eq_of_eq {α β : Type} {scan other : Scan α} {cursor cursor' : Cursor}
    (h : scan cursor = other cursor') (next : α → Scan β) :
    (scan >>= next) cursor = (other >>= next) cursor' := by
  change EStateM.bind scan next cursor = EStateM.bind other next cursor'
  rw [EStateM.bind, EStateM.bind, h]

/-- A run of prefixes is gone over, and then the byte behind it is the next one. -/
theorem scanHead_run {run bytes : List UInt8} (hrun : ∀ byte ∈ run, byte ∈ prefixBytes)
    (hends : ∀ first ∈ bytes.head?, first ∉ prefixBytes) {room : Nat} {before : List UInt8}
    {prefixes : Prefixes} {cursor : Cursor} (hroom : run.length ≤ room)
    (hprefixes : prefixes.Describes before) (hrest : cursor.rest = run ++ bytes) :
    ∃ found : Prefixes, found.Describes (before ++ run) ∧
      scanHead room prefixes cursor =
        (Cursor.nextByte >>= fun first ↦ pure (.opcode found first))
          (cursor.behind run.length) := by
  induction run generalizing room before prefixes cursor with
  | nil =>
    refine ⟨prefixes, by rwa [List.append_nil], ?_⟩
    rw [List.nil_append] at hrest
    rw [List.length_nil, Cursor.behind_zero]
    unfold scanHead
    cases bytes with
    | nil =>
      have hend := nextByte_of_rest_nil hrest
      cases room with
      | zero | succ room => exact (bind_of_error hend).trans (bind_of_error hend).symm
    | cons first tail =>
      have hfirst := nextByte_of_rest hrest
      have hnone : Prefix.ofByte? first = none := ofByte?_eq_none_iff.mpr (hends first rfl)
      cases room with
      | zero | succ room =>
        dsimp only
        rw [bind_of_ok hfirst, bind_of_ok hfirst, hnone]
  | cons byte run ih =>
    obtain ⟨hbyte, hrun⟩ := List.forall_mem_cons.mp hrun
    obtain ⟨mark, hmark⟩ : ∃ mark, Prefix.ofByte? byte = some mark :=
      Option.ne_none_iff_exists'.mp fun hnone ↦ ofByte?_eq_none_iff.mp hnone hbyte
    cases room with
    | zero => cases hroom
    | succ room =>
      rw [List.cons_append] at hrest
      have hbehind : (cursor.behind 1).rest = run ++ bytes := by rw [Cursor.rest_behind, hrest]; rfl
      obtain ⟨found, hfound, hscan⟩ :=
        ih hrun (Nat.le_of_succ_le_succ hroom) (hprefixes.add hmark) hbehind
      refine ⟨found, by rwa [List.append_assoc] at hfound, ?_⟩
      rw [scanHead, bind_of_ok (nextByte_of_rest hrest)]
      simp only [hmark]
      rw [hscan, Cursor.behind_behind, List.length_cons, Nat.add_comm]

/-- Behind a run of prefixes decoding goes on with the body as if it began there. -/
theorem decode_run (mode : Mode) (size32 : Bool) {cursor : Cursor} {run bytes : List UInt8}
    (h : cursor.HasRun run bytes) :
    ∃ found : Prefixes, found.Describes run ∧
      decode mode size32 cursor =
        (Cursor.nextByte >>= decodeBody mode size32 cursor.offset found)
          (cursor.behind run.length) := by
  obtain ⟨found, hfound, hhead⟩ :=
    scanHead_run h.prefixes h.ends h.few Prefixes.describes_empty h.rest
  refine ⟨found, hfound, ?_⟩
  have hstart : Cursor.position cursor = .ok cursor.offset cursor := rfl
  rw [decode, bind_of_ok hstart]
  refine (bind_eq_of_eq hhead _).trans ?_
  rw [bind_assoc]
  rfl

theorem isPrefixed_under {prefixes : Prefixes} {run : List UInt8} (h : prefixes.Describes run)
    (size32 : Bool) (start : Nat) (body : Body) (bodyLength : Nat) (escaped : Bool) :
    (body.under size32 { prefixes with escape := escaped } start
      (run.length + bodyLength)).IsPrefixed size32 start run body bodyLength escaped where
  offset := rfl
  length := rfl
  opcode := rfl
  prefixes := h.bits_eq escaped
  modrm := rfl
  operand32 := congrArg (size32 != ·) h.operandSize
  address32 := congrArg (size32 != ·) h.addressSize
  flow := rfl
  branch := rfl

/-- Decoding comes to the body behind the run of prefixes, and leaves the cursor behind both. -/
def Finds (mode : Mode) (size32 : Bool) (cursor : Cursor) (run : List UInt8) (body : Body)
    (bodyLength : Nat) (escaped : Bool) : Prop :=
  ∃ instruction,
    decode mode size32 cursor = .ok instruction (cursor.behind (run.length + bodyLength)) ∧
    instruction.IsPrefixed size32 cursor.offset run body bodyLength escaped

/-- The bytes behind the run decide it, with the sizes that the run leaves them. -/
theorem decode_cases (mode : Mode) (size32 : Bool) {cursor : Cursor} {run bytes : List UInt8}
    (h : cursor.HasRun run bytes) :
    match Body.reading mode (size32 != decide (0x66 ∈ run)) (size32 != decide (0x67 ∈ run))
      bytes with
    | some (body, length) =>
      Finds mode size32 cursor run body length (bytes.head? == some 0x0F)
    | none => decode mode size32 cursor = .error cursor.endError cursor.atEnd := by
  obtain ⟨found, hfound, hdecode⟩ := decode_run mode size32 h
  have hrest : (cursor.behind run.length).rest = bytes := by
    rw [Cursor.rest_behind, h.rest, List.drop_left]
  rw [Body.decodeBody_result, hrest] at hdecode
  rw [← hfound.operandSize, ← hfound.addressSize]
  cases hbody : Body.reading mode (size32 != found.operandSize)
      (size32 != found.addressSize) bytes with
  | none =>
    rw [hbody] at hdecode
    have hwithin : run.length ≤ cursor.rest.length := by
      rw [h.rest, List.length_append]
      exact Nat.le_add_right _ _
    have hends := Cursor.ends_behind hwithin
    exact hdecode.trans (congrArg₂ _ hends.1 hends.2)
  | some result =>
    obtain ⟨body, length⟩ := result
    rw [hbody] at hdecode
    have hlength : (cursor.behind run.length).offset + length - cursor.offset =
        run.length + length := by
      rw [Cursor.behind, Nat.add_assoc, Nat.add_sub_cancel_left]
    dsimp only at hdecode
    rw [hlength, Cursor.behind_behind] at hdecode
    exact ⟨_, hdecode, isPrefixed_under hfound size32 cursor.offset body length _⟩

/-- Prefixes have a normal form. The bytes behind a run of them say what body there is, once it is
known which size prefixes occur; fourteen bytes always suffice, and where a region ends too early
decoding runs off its end. The instruction is then that body, with its length and its prefixes as
the run says, and is refused only if it is too long for one. Any other run before the same body,
under any default that leaves it with the same sizes, comes to the same body. -/
theorem decode_normalForm (mode : Mode) (size32 : Bool) {cursor : Cursor} {run bytes : List UInt8}
    (h : cursor.HasRun run bytes) :
    match Body.reading mode (size32 != decide (0x66 ∈ run)) (size32 != decide (0x67 ∈ run))
      bytes with
    | some (body, length) =>
      Finds mode size32 cursor run body length (bytes.head? == some 0x0F) ∧
      body.flow ≠ .invalid .protection0 ∧
      ∀ {size32' : Bool} {cursor' : Cursor} {run' bytes' : List UInt8},
        cursor'.HasRun run' bytes' → bytes.take length <+: bytes' →
        (size32' != decide (0x66 ∈ run')) = (size32 != decide (0x66 ∈ run)) →
        (size32' != decide (0x67 ∈ run')) = (size32 != decide (0x67 ∈ run)) →
        Finds mode size32' cursor' run' body length (bytes.head? == some 0x0F)
    | none =>
      bytes.length < 14 ∧ decode mode size32 cursor = .error cursor.endError cursor.atEnd := by
  have hcases := decode_cases mode size32 h
  cases hbody : Body.reading mode (size32 != decide (0x66 ∈ run)) (size32 != decide (0x67 ∈ run))
      bytes with
  | none =>
    rw [hbody] at hcases
    refine ⟨Nat.lt_of_not_le fun henough ↦ ?_, hcases⟩
    obtain ⟨body, length, hfound, -⟩ := Body.reading_takesAtMost mode _ _ bytes henough
    rw [hbody] at hfound
    cases hfound
  | some result =>
    obtain ⟨body, length⟩ := result
    rw [hbody] at hcases
    refine ⟨hcases, Body.flow_reading hbody, ?_⟩
    intro size32' cursor' run' bytes' h' hbytes hoperand haddress
    have hcases' := decode_cases mode size32' h'
    have hlocal := (Body.reads_scan mode (size32 != decide (0x66 ∈ run))
      (size32 != decide (0x67 ∈ run))).isLocal
    rw [hoperand, haddress, hlocal.decides hbody hbytes] at hcases'
    rwa [Body.head_of_reading hbody hbytes] at hcases'

/-- A call in code that is 32 bits wide by default, under two segment overrides and a repetition. -/
def wideCall : Cursor := .start (.rom #[0x2E, 0xF3, 0x65, 0xE8, 0x10, 0x00, 0x00, 0x80, 0x90]) 0

/-- The same call in code that is 16 bits wide by default, where both size prefixes make it so wide.
The one for operands is repeated. -/
def narrowCall : Cursor :=
  .start (.ram (.ofBytes #[0x67, 0x66, 0x66, 0xF2, 0xE8, 0x10, 0x00, 0x00, 0x80])) 0

def callBody : Body where
  opcode := 0xE8
  modrm := none
  branch := some (.relative (-0x7FFFFFF0))
  flow := .call

theorem decode_normalForm_call :
    wideCall.HasRun [0x2E, 0xF3, 0x65] [0xE8, 0x10, 0x00, 0x00, 0x80, 0x90] ∧
      Finds .protectedMode true wideCall [0x2E, 0xF3, 0x65] callBody 5 false ∧
      Prefixes.runBits [0x2E, 0xF3, 0x65] false = 0x2200 ∧
      Finds .protectedMode false narrowCall [0x67, 0x66, 0x66, 0xF2] callBody 5 false ∧
      Prefixes.runBits [0x67, 0x66, 0x66, 0xF2] false = 0x0D00 := by
  have hwide : wideCall.HasRun [0x2E, 0xF3, 0x65] [0xE8, 0x10, 0x00, 0x00, 0x80, 0x90] :=
    ⟨by decide, by simp [prefixBytes], by decide, by simp [prefixBytes]⟩
  have hnarrow : narrowCall.HasRun [0x67, 0x66, 0x66, 0xF2] [0xE8, 0x10, 0x00, 0x00, 0x80] :=
    ⟨by decide, by simp [prefixBytes], by decide, by simp [prefixBytes]⟩
  have hbody : Body.reading .protectedMode (true != decide ((0x66 : UInt8) ∈ [0x2E, 0xF3, 0x65]))
      (true != decide ((0x67 : UInt8) ∈ [0x2E, 0xF3, 0x65])) [0xE8, 0x10, 0x00, 0x00, 0x80, 0x90] =
        some (callBody, 5) := rfl
  have hnormal := decode_normalForm .protectedMode true hwide
  rw [hbody] at hnormal
  obtain ⟨hfinds, -, hothers⟩ := hnormal
  exact ⟨hwide, hfinds, by decide, hothers hnarrow (by decide) (by decide) (by decide), by decide⟩

end Instruction

end GuestMachine

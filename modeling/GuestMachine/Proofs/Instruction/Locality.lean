import GuestMachine.Instruction.Decode
import Mathlib.Order.Nat

/-!
# Forward scans

A scan reads bytes in order and depends on nothing else: on another region that holds the same
bytes it reads the same value, and where that region ends too early it runs off the end. The law is
shown for the primitive reads and carried through composition, up to the decoding of an
instruction. It does not bound the size of a region; offsets are read through the same 32-bit
addresses as the cursor reads them.
-/

namespace GuestMachine

/-- Both regions hold the same bytes from `first` up to `last`. -/
def Memory.Agrees (left right : Memory) (first last : Nat) : Prop :=
  ∀ offset, first ≤ offset → offset < last →
    left.getByte (UInt32.ofNat offset) = right.getByte (UInt32.ofNat offset)

namespace Memory

theorem Agrees.narrow {left right : Memory} {first last first' last' : Nat}
    (h : left.Agrees right first last) (hfirst : first ≤ first') (hlast : last' ≤ last) :
    left.Agrees right first' last' :=
  fun offset hge hlt ↦ h offset (hfirst.trans hge) (Nat.lt_of_lt_of_le hlt hlast)

theorem Agrees.refl (memory : Memory) (first last : Nat) : memory.Agrees memory first last :=
  fun _ _ _ ↦ rfl

end Memory

namespace Cursor

/-- Where a scan stops that runs off the end of the region. -/
def atEnd (cursor : Cursor) : Cursor :=
  { cursor with offset := max cursor.offset cursor.memory.size }

/-- The error of a scan that runs off the end of the region. -/
def endError (cursor : Cursor) : RangeError :=
  .outOfRange (max cursor.offset cursor.memory.size) cursor.memory.size

/-- The last offset that a scan can reach. -/
def reach (cursor : Cursor) : Nat := max cursor.offset cursor.memory.size

end Cursor

namespace Scan

variable {α β : Type}

/-- The scan moves forwards, within the region, and is decided by the bytes that it reads. -/
structure IsForward (scan : Scan α) : Prop where
  extent {cursor final : Cursor} {value : α} : scan cursor = .ok value final →
    final.memory = cursor.memory ∧ final.origin = cursor.origin ∧
      cursor.offset ≤ final.offset ∧ final.offset ≤ cursor.reach
  cut {cursor final : Cursor} {reason : RangeError} : scan cursor = .error reason final →
    reason = cursor.endError ∧ final = cursor.atEnd
  repeats {cursor final : Cursor} {value : α} (other : Cursor) : scan cursor = .ok value final →
    other.offset = cursor.offset → final.offset ≤ other.reach →
    cursor.memory.Agrees other.memory cursor.offset final.offset →
    scan other = .ok value { other with offset := final.offset }
  runsOut {cursor final : Cursor} {value : α} (other : Cursor) : scan cursor = .ok value final →
    other.offset = cursor.offset → other.reach < final.offset →
    cursor.memory.Agrees other.memory cursor.offset other.reach →
    scan other = .error other.endError other.atEnd

/-! ## Composition -/

theorem bind_eq_ok {scan : Scan α} {next : α → Scan β} {cursor final : Cursor} {value : β}
    (h : (scan >>= next) cursor = .ok value final) :
    ∃ first middle, scan cursor = .ok first middle ∧ next first middle = .ok value final := by
  change EStateM.bind scan next cursor = _ at h
  unfold EStateM.bind at h
  split at h
  · exact ⟨_, _, ‹_›, h⟩
  · cases h

theorem bind_of_ok {scan : Scan α} {next : α → Scan β} {cursor middle : Cursor} {first : α}
    (h : scan cursor = .ok first middle) : (scan >>= next) cursor = next first middle := by
  change EStateM.bind scan next cursor = _
  rw [EStateM.bind, h]

theorem bind_of_error {scan : Scan α} {next : α → Scan β} {cursor final : Cursor}
    {reason : RangeError} (h : scan cursor = .error reason final) :
    (scan >>= next) cursor = .error reason final := by
  change EStateM.bind scan next cursor = _
  rw [EStateM.bind, h]

theorem isForward_pure (value : α) : IsForward (pure value) where
  extent h := by
    cases h
    exact ⟨rfl, rfl, le_rfl, Nat.le_max_left _ _⟩
  cut h := by cases h
  repeats _ h hoffset _ _ := by
    cases h
    rw [← hoffset]
    rfl
  runsOut _ h hoffset hreach _ := by
    cases h
    rw [← hoffset] at hreach
    exact absurd (Nat.le_max_left _ _) (Nat.not_le_of_lt hreach)

/-- A scan stays within reach of where it started, so that the reach of both stages is the same. -/
theorem IsForward.reach_eq {scan : Scan α} (hscan : IsForward scan) {cursor middle : Cursor}
    {value : α} (h : scan cursor = .ok value middle) : middle.reach = cursor.reach := by
  obtain ⟨hmemory, -, hfirst, hlast⟩ := hscan.extent h
  simp only [Cursor.reach, hmemory] at hlast ⊢
  omega

theorem IsForward.bind {scan : Scan α} {next : α → Scan β} (hscan : IsForward scan)
    (hnext : ∀ value, IsForward (next value)) : IsForward (scan >>= next) where
  extent h := by
    obtain ⟨first, middle, hfirst, hrest⟩ := bind_eq_ok h
    obtain ⟨hmemory, horigin, hle, -⟩ := hscan.extent hfirst
    obtain ⟨hmemory', horigin', hle', hreach⟩ := (hnext first).extent hrest
    refine ⟨hmemory'.trans hmemory, horigin'.trans horigin, hle.trans hle', ?_⟩
    rwa [hscan.reach_eq hfirst] at hreach
  cut {cursor final reason} h := by
    cases hfirst : scan cursor with
    | error reason' middle =>
      rw [bind_of_error hfirst] at h
      cases h
      exact hscan.cut hfirst
    | ok first middle =>
      rw [bind_of_ok hfirst] at h
      obtain ⟨hreason, hfinal⟩ := (hnext first).cut h
      obtain ⟨hmemory, horigin, -, -⟩ := hscan.extent hfirst
      have hreach := hscan.reach_eq hfirst
      simp only [Cursor.reach] at hreach
      rw [hreason, hfinal, Cursor.endError, Cursor.atEnd, Cursor.endError, Cursor.atEnd, hreach,
        hmemory, horigin]
      exact ⟨rfl, rfl⟩
  repeats {cursor final value} other h hoffset hreach hagrees := by
    obtain ⟨first, middle, hfirst, hrest⟩ := bind_eq_ok h
    obtain ⟨hmemory, -, hle, -⟩ := hscan.extent hfirst
    obtain ⟨-, -, hle', -⟩ := (hnext first).extent hrest
    have hfirst' := hscan.repeats other hfirst hoffset (hle'.trans hreach) (hagrees.narrow le_rfl hle')
    rw [bind_of_ok hfirst']
    refine (hnext first).repeats _ hrest rfl ?_ ?_
    · rwa [hscan.reach_eq hfirst']
    · rw [hmemory]
      exact hagrees.narrow hle le_rfl
  runsOut {cursor final value} other h hoffset hreach hagrees := by
    obtain ⟨first, middle, hfirst, hrest⟩ := bind_eq_ok h
    obtain ⟨hmemory, -, hle, -⟩ := hscan.extent hfirst
    -- The other region ends either within the first stage or within the second.
    by_cases hmiddle : other.reach < middle.offset
    · exact bind_of_error (hscan.runsOut other hfirst hoffset hmiddle hagrees)
    · have hmiddle : middle.offset ≤ other.reach := Nat.le_of_not_lt hmiddle
      have hfirst' := hscan.repeats other hfirst hoffset hmiddle (hagrees.narrow le_rfl hmiddle)
      have hreach' := hscan.reach_eq hfirst'
      have hrest' := (hnext first).runsOut { other with offset := middle.offset } hrest rfl
        (by rwa [hreach']) (by rw [hmemory, hreach']; exact hagrees.narrow hle le_rfl)
      simp only [Cursor.reach] at hreach'
      rw [bind_of_ok hfirst', hrest', Cursor.endError, Cursor.atEnd, Cursor.endError,
        Cursor.atEnd, hreach']

/-! ## Reads -/

theorem isForward_position : IsForward Cursor.position where
  extent h := by
    cases h
    exact ⟨rfl, rfl, le_rfl, Nat.le_max_left _ _⟩
  cut h := by cases h
  repeats _ h hoffset _ _ := by
    cases h
    rw [← hoffset]
    rfl
  runsOut _ h hoffset hreach _ := by
    cases h
    rw [← hoffset] at hreach
    exact absurd (Nat.le_max_left _ _) (Nat.not_le_of_lt hreach)

theorem nextByte_of_lt {cursor : Cursor} (h : cursor.offset < cursor.memory.size) :
    Cursor.nextByte cursor = .ok (cursor.memory.getByte (UInt32.ofNat cursor.offset))
      { cursor with offset := cursor.offset + 1 } := by
  rw [Cursor.nextByte, if_pos h]

theorem nextByte_of_not_lt {cursor : Cursor} (h : ¬ cursor.offset < cursor.memory.size) :
    Cursor.nextByte cursor = .error cursor.endError cursor.atEnd := by
  have hmax : max cursor.offset cursor.memory.size = cursor.offset := by omega
  rw [Cursor.nextByte, if_neg h, Cursor.endError, Cursor.atEnd, hmax]

theorem nextByte_eq_ok {cursor final : Cursor} {value : UInt8}
    (h : Cursor.nextByte cursor = .ok value final) :
    cursor.offset < cursor.memory.size ∧
      value = cursor.memory.getByte (UInt32.ofNat cursor.offset) ∧
      final = { cursor with offset := cursor.offset + 1 } := by
  by_cases hlt : cursor.offset < cursor.memory.size
  · rw [nextByte_of_lt hlt] at h
    cases h
    exact ⟨hlt, rfl, rfl⟩
  · rw [nextByte_of_not_lt hlt] at h
    cases h

theorem isForward_nextByte : IsForward Cursor.nextByte where
  extent h := by
    obtain ⟨hlt, -, rfl⟩ := nextByte_eq_ok h
    refine ⟨rfl, rfl, Nat.le_succ _, ?_⟩
    simp only [Cursor.reach]
    omega
  cut {cursor final reason} h := by
    by_cases hlt : cursor.offset < cursor.memory.size
    · rw [nextByte_of_lt hlt] at h
      cases h
    · rw [nextByte_of_not_lt hlt] at h
      cases h
      exact ⟨rfl, rfl⟩
  repeats {cursor final value} other h hoffset hreach hagrees := by
    obtain ⟨hlt, rfl, rfl⟩ := nextByte_eq_ok h
    simp only [Cursor.reach] at hreach
    have hlt' : other.offset < other.memory.size := by omega
    rw [nextByte_of_lt hlt', hagrees cursor.offset le_rfl (Nat.lt_succ_self _), hoffset]
  runsOut {cursor final value} other h hoffset hreach _ := by
    obtain ⟨-, -, rfl⟩ := nextByte_eq_ok h
    simp only [Cursor.reach] at hreach
    exact nextByte_of_not_lt (by omega)

theorem isForward_nextWord : IsForward Cursor.nextWord :=
  isForward_nextByte.bind fun _ ↦ isForward_nextByte.bind fun _ ↦ isForward_pure _

theorem isForward_nextDoubleword : IsForward Cursor.nextDoubleword :=
  isForward_nextWord.bind fun _ ↦ isForward_nextWord.bind fun _ ↦ isForward_pure _

theorem IsForward.map {scan : Scan α} (hscan : IsForward scan) (f : α → β) :
    IsForward (f <$> scan) := by
  rw [map_eq_pure_bind]
  exact hscan.bind fun _ ↦ isForward_pure _

end Scan

/-! ## Decoding -/

namespace Instruction

open Scan

theorem isForward_scanHead (room : Nat) (prefixes : Prefixes) :
    IsForward (scanHead room prefixes) := by
  induction room generalizing prefixes with
  | zero =>
    unfold scanHead
    refine isForward_nextByte.bind fun byte ↦ ?_
    split <;> exact isForward_pure _
  | succ room ih =>
    unfold scanHead
    refine isForward_nextByte.bind fun byte ↦ ?_
    split
    · exact isForward_pure _
    · exact ih _

theorem isForward_scanBytes (count : Nat) : IsForward (scanBytes count) := by
  induction count with
  | zero => exact isForward_pure ()
  | succ count ih => exact isForward_nextByte.bind fun _ ↦ ih

theorem isForward_scanDisplacement (modrm : UInt8) (address32 : Bool) :
    IsForward (scanDisplacement modrm address32) := by
  unfold scanDisplacement
  dsimp only
  split
  · split
    on_goal 1 => refine isForward_nextByte.bind fun _ ↦ (isForward_pure _).bind fun _ ↦ ?_
    on_goal 2 => refine (isForward_pure _).bind fun _ ↦ ?_
    all_goals split
    all_goals first | exact isForward_scanBytes _ | exact isForward_pure _
  · split
    all_goals first | exact isForward_scanBytes _ | exact isForward_pure _

theorem isForward_scanImmediate (info : Opcode.Attributes) (operand32 address32 : Bool) :
    IsForward (scanImmediate info operand32 address32) := by
  unfold scanImmediate
  dsimp only
  split
  case h_1 => exact isForward_pure _
  case h_2 => exact isForward_nextByte.bind fun _ ↦ isForward_pure _
  case h_3 => exact isForward_nextWord.bind fun _ ↦ isForward_pure _
  case h_4 =>
    exact isForward_nextWord.bind fun _ ↦ isForward_nextByte.bind fun _ ↦ isForward_pure _
  case h_5 =>
    split
    · exact isForward_nextDoubleword.bind fun _ ↦ isForward_pure _
    · exact isForward_nextWord.bind fun _ ↦ isForward_pure _
  case h_6 =>
    have hselector (offset : UInt32) : IsForward (Cursor.nextWord >>= fun selector ↦
        pure (some (BranchTarget.far selector offset))) :=
      isForward_nextWord.bind fun _ ↦ isForward_pure _
    split
    · exact isForward_nextDoubleword.bind hselector
    · exact (isForward_nextWord.map _).bind hselector
  case h_7 =>
    split
    · exact isForward_nextDoubleword.bind fun _ ↦ isForward_pure _
    · exact isForward_nextWord.bind fun _ ↦ isForward_pure _

theorem isForward_scanOpcode (byte : UInt8) : IsForward (scanOpcode byte) := by
  unfold scanOpcode
  split
  · exact isForward_nextByte.bind fun _ ↦ isForward_pure _
  · exact isForward_pure _

theorem isForward_scanModrm (mode : Mode) (opcode : UInt16) (info : Opcode.Attributes)
    (address32 : Bool) : IsForward (scanModrm mode opcode info address32) := by
  unfold scanModrm
  split
  · refine isForward_nextByte.bind fun modrm ↦ ?_
    split
    · exact (isForward_scanDisplacement _ _).bind fun _ ↦ isForward_pure _
    · exact isForward_pure _
  · exact isForward_pure _

theorem isForward_decodeBody (mode : Mode) (size32 : Bool) (start : Nat) (prefixes : Prefixes)
    (byte : UInt8) : IsForward (decodeBody mode size32 start prefixes byte) :=
  (isForward_scanOpcode _).bind fun _ ↦ (isForward_scanModrm _ _ _ _).bind fun _ ↦
    (isForward_scanImmediate _ _ _).bind fun _ ↦ isForward_position.bind fun _ ↦ isForward_pure _

/-- Decoding an instruction reads the bytes of the instruction and depends on nothing else. -/
theorem isForward_decode (mode : Mode) (size32 : Bool) : IsForward (decode mode size32) := by
  unfold decode
  refine isForward_position.bind fun start ↦ (isForward_scanHead _ _).bind fun head ↦ ?_
  split
  · exact isForward_pure _
  · exact isForward_decodeBody _ _ _ _ _

end Instruction

end GuestMachine

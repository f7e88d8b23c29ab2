import GuestMachine.Proofs.Instruction.Decoding
import GuestMachine.Proofs.Memory.Numbers

/-!
# Scans as readings of bytes

A scan sees the bytes that are left in its region and nothing else. A reading says the same of a
list of bytes: the value that is found at its head and how many bytes this takes, unless there are
too few of them. The scans from which decoding is made up are readings of fixed numbers of bytes,
one after another.
-/

namespace GuestMachine

namespace Cursor

/-- The bytes from the cursor to the end of the region. -/
def rest (cursor : Cursor) : List UInt8 :=
  cursor.memory.window cursor.offset (cursor.memory.size - cursor.offset)

/-- The cursor after so many bytes. -/
def behind (cursor : Cursor) (count : Nat) : Cursor :=
  { cursor with offset := cursor.offset + count }

variable (cursor : Cursor)

@[simp]
theorem length_rest : cursor.rest.length = cursor.memory.size - cursor.offset := by
  rw [rest, Memory.length_window]

@[simp]
theorem behind_zero : cursor.behind 0 = cursor := rfl

@[simp]
theorem behind_behind (first second : Nat) :
    (cursor.behind first).behind second = cursor.behind (first + second) := by
  rw [behind, behind, behind, Nat.add_assoc]

@[simp]
theorem rest_behind (count : Nat) : (cursor.behind count).rest = cursor.rest.drop count := by
  rw [rest, rest, Memory.window, Memory.window, ← List.map_drop, List.drop_range', Nat.mul_one,
    Nat.sub_sub]
  rfl

variable {cursor}

/-- Within the region, a scan that goes on fails where it would have failed before. -/
theorem ends_behind {count : Nat} (hcount : count ≤ cursor.rest.length) :
    (cursor.behind count).endError = cursor.endError ∧
      (cursor.behind count).atEnd = cursor.atEnd := by
  rw [length_rest] at hcount
  have hreach : max (cursor.offset + count) cursor.memory.size =
      max cursor.offset cursor.memory.size := by omega
  simp only [behind, endError, atEnd, hreach, and_self]

end Cursor

/-! ## Readings -/

/-- What stands at the head of some bytes, and how many of them it takes. -/
abbrev Reading (α : Type) := List UInt8 → Option (α × Nat)

namespace Reading

variable {α β : Type}

/-- As many bytes as given, and the value that they make up. -/
def exactly (count : Nat) (value : List UInt8 → α) : Reading α := fun bytes ↦
  if count ≤ bytes.length then some (value (bytes.take count), count) else none

/-- One reading, and behind it another that its value selects. -/
def andThen (reading : Reading α) (next : α → Reading β) : Reading β := fun bytes ↦ do
  let (first, count) ← reading bytes
  let (second, more) ← next first (bytes.drop count)
  return (second, count + more)

/-- A value without any bytes. -/
def yield (value : α) : Reading α := exactly 0 fun _ ↦ value

/-- One byte. -/
def byte : Reading UInt8 := exactly 1 (·.headD 0)

/-- The bytes that a reading takes are there, and they alone decide it. -/
structure IsLocal (reading : Reading α) : Prop where
  within {bytes : List UInt8} {value : α} {count : Nat} :
    reading bytes = some (value, count) → count ≤ bytes.length
  decides {bytes other : List UInt8} {value : α} {count : Nat} :
    reading bytes = some (value, count) → bytes.take count <+: other →
      reading other = some (value, count)

/-- The reading finds a value if so many bytes are there, and takes no more of them. -/
def TakesAtMost (reading : Reading α) (limit : Nat) : Prop :=
  ∀ bytes : List UInt8, limit ≤ bytes.length →
    ∃ value count, reading bytes = some (value, count) ∧ count ≤ limit

variable {reading : Reading α} {next : α → Reading β}

theorem andThen_eq_some {bytes : List UInt8} {value : β} {total : Nat}
    (h : reading.andThen next bytes = some (value, total)) :
    ∃ first count more, reading bytes = some (first, count) ∧
      next first (bytes.drop count) = some (value, more) ∧ total = count + more := by
  obtain ⟨⟨first, count⟩, hfirst, h⟩ := Option.bind_eq_some_iff.mp h
  obtain ⟨⟨second, more⟩, hsecond, h⟩ := Option.bind_eq_some_iff.mp h
  cases h
  exact ⟨first, count, more, hfirst, hsecond, rfl⟩

theorem andThen_of_some {bytes : List UInt8} {first : α} {count : Nat}
    (h : reading bytes = some (first, count)) :
    reading.andThen next bytes =
      (next first (bytes.drop count)).map fun found ↦ (found.1, count + found.2) := by
  simp only [andThen, h, Option.bind_eq_bind, Option.bind_some]
  cases next first (bytes.drop count) <;> rfl

theorem andThen_of_none {bytes : List UInt8} (h : reading bytes = none) :
    reading.andThen next bytes = none := by
  simp only [andThen, h, Option.bind_eq_bind, Option.bind_none]

theorem exactly_eq_some {bytes : List UInt8} {count taken : Nat} {value : List UInt8 → α}
    {found : α} (h : exactly count value bytes = some (found, taken)) :
    count ≤ bytes.length ∧ found = value (bytes.take count) ∧ taken = count := by
  unfold exactly at h
  split at h
  · cases h
    exact ⟨‹_›, rfl, rfl⟩
  · cases h

theorem isLocal_exactly (count : Nat) (value : List UInt8 → α) :
    IsLocal (exactly count value) where
  within h := by
    obtain ⟨hcount, -, rfl⟩ := exactly_eq_some h
    exact hcount
  decides {bytes other found taken} h hother := by
    obtain ⟨hcount, rfl, rfl⟩ := exactly_eq_some h
    obtain ⟨tail, rfl⟩ := hother
    have htaken : (bytes.take taken).length = taken := List.length_take_of_le hcount
    have hroom : taken ≤ (bytes.take taken ++ tail).length := by
      rw [List.length_append, htaken]
      exact Nat.le_add_right _ _
    rw [exactly, if_pos hroom, List.take_left' htaken]

theorem IsLocal.andThen (hreading : IsLocal reading) (hnext : ∀ value, IsLocal (next value)) :
    IsLocal (reading.andThen next) where
  within h := by
    obtain ⟨first, count, more, hfirst, hsecond, rfl⟩ := andThen_eq_some h
    have hcount := hreading.within hfirst
    have hmore := (hnext first).within hsecond
    rw [List.length_drop] at hmore
    omega
  decides {bytes other value total} h hother := by
    obtain ⟨first, count, more, hfirst, hsecond, rfl⟩ := andThen_eq_some h
    obtain ⟨tail, rfl⟩ := hother
    have htaken : (bytes.take count).length = count :=
      List.length_take_of_le (hreading.within hfirst)
    rw [List.take_add, List.append_assoc,
      andThen_of_some (hreading.decides hfirst (List.prefix_append _ _)), List.drop_left' htaken,
      (hnext first).decides hsecond (List.prefix_append _ _)]
    rfl

theorem takesAtMost_exactly {count limit : Nat} (value : List UInt8 → α) (hcount : count ≤ limit) :
    (exactly count value).TakesAtMost limit :=
  fun _ hbytes ↦ ⟨_, count, if_pos (hcount.trans hbytes), hcount⟩

theorem TakesAtMost.andThen {first second : Nat} (hreading : reading.TakesAtMost first)
    (hnext : ∀ value, (next value).TakesAtMost second) :
    (reading.andThen next).TakesAtMost (first + second) := by
  intro bytes hbytes
  obtain ⟨value, count, hfirst, hcount⟩ := hreading bytes ((Nat.le_add_right _ _).trans hbytes)
  obtain ⟨result, more, hsecond, hmore⟩ := hnext value (bytes.drop count) (by
    rw [List.length_drop]
    omega)
  refine ⟨result, count + more, ?_, Nat.add_le_add hcount hmore⟩
  rw [andThen_of_some hfirst, hsecond]
  rfl

theorem TakesAtMost.count_le {limit : Nat} (hreading : reading.TakesAtMost limit)
    (hlocal : reading.IsLocal) {bytes : List UInt8} {value : α} {count : Nat}
    (h : reading bytes = some (value, count)) : count ≤ limit := by
  by_cases henough : limit ≤ bytes.length
  · obtain ⟨found, taken, hfound, htaken⟩ := hreading bytes henough
    cases h.symm.trans hfound
    exact htaken
  · exact (hlocal.within h).trans (Nat.le_of_not_le henough)

/-- Two fixed numbers of bytes make up one. -/
theorem exactly_andThen {first second : Nat} {value : List UInt8 → α}
    {following : α → List UInt8 → β} {both : List UInt8 → β}
    (hboth : ∀ low high, low.length = first → high.length = second →
      following (value low) high = both (low ++ high)) :
    (exactly first value).andThen (fun found ↦ exactly second (following found)) =
      exactly (first + second) both := by
  funext bytes
  by_cases hfirst : first ≤ bytes.length
  · rw [andThen_of_some (if_pos hfirst), exactly, exactly, List.length_drop]
    by_cases henough : first + second ≤ bytes.length
    · have hsecond : second ≤ bytes.length - first := Nat.le_sub_of_add_le' henough
      have hlow : (bytes.take first).length = first := List.length_take_of_le hfirst
      have hhigh : ((bytes.drop first).take second).length = second :=
        List.length_take_of_le (by rwa [List.length_drop])
      rw [if_pos henough, if_pos hsecond, hboth _ _ hlow hhigh, ← List.take_add]
      rfl
    · have hsecond : ¬ second ≤ bytes.length - first := by omega
      rw [if_neg henough, if_neg hsecond]
      rfl
  · have henough : ¬ first + second ≤ bytes.length := by omega
    rw [andThen_of_none (if_neg hfirst), exactly, if_neg henough]

end Reading

/-! ## Scans that read -/

namespace Scan

variable {α β : Type}

/-- The scan finds at a cursor what the reading finds in the bytes that are left there; where these
are too few, it runs off the end. -/
structure Reads (scan : Scan α) (reading : Reading α) : Prop where
  isLocal : reading.IsLocal
  result (cursor : Cursor) : scan cursor =
    match reading cursor.rest with
    | some (value, count) => .ok value (cursor.behind count)
    | none => .error cursor.endError cursor.atEnd

theorem Reads.bind {scan : Scan α} {next : α → Scan β} {reading : Reading α}
    {following : α → Reading β} (hscan : Reads scan reading)
    (hnext : ∀ value, Reads (next value) (following value)) :
    Reads (scan >>= next) (reading.andThen following) where
  isLocal := hscan.isLocal.andThen fun value ↦ (hnext value).isLocal
  result cursor := by
    have hfirst := hscan.result cursor
    cases hreading : reading cursor.rest with
    | none =>
      rw [hreading] at hfirst
      rw [bind_of_error hfirst, Reading.andThen_of_none hreading]
    | some found =>
      obtain ⟨value, count⟩ := found
      rw [hreading] at hfirst
      have hends := Cursor.ends_behind (hscan.isLocal.within hreading)
      rw [bind_of_ok hfirst, (hnext value).result, Reading.andThen_of_some hreading,
        Cursor.rest_behind, hends.1, hends.2]
      cases following value (cursor.rest.drop count) with
      | none => rfl
      | some found => exact congrArg _ (cursor.behind_behind count found.2)

theorem reads_pure (value : α) : Reads (pure value) (.yield value) where
  isLocal := Reading.isLocal_exactly _ _
  result cursor := by
    rw [Reading.yield, Reading.exactly, if_pos (Nat.zero_le _)]
    rfl

/-- Only the value of as many bytes counts. -/
theorem Reads.exactly_congr {scan : Scan α} {count : Nat} {value other : List UInt8 → α}
    (hscan : Reads scan (.exactly count value))
    (h : ∀ bytes, bytes.length = count → value bytes = other bytes) :
    Reads scan (.exactly count other) := by
  suffices heq : Reading.exactly count value = .exactly count other from heq ▸ hscan
  funext bytes
  unfold Reading.exactly
  split
  case isTrue henough => rw [h _ (List.length_take_of_le henough)]
  case isFalse => rfl

/-- Scans of fixed numbers of bytes, one after the other. -/
theorem Reads.bind_exactly {scan : Scan α} {next : α → Scan β} {first second : Nat}
    {value : List UInt8 → α} {following : α → List UInt8 → β} (both : List UInt8 → β)
    (hscan : Reads scan (.exactly first value))
    (hnext : ∀ found, Reads (next found) (.exactly second (following found)))
    (hboth : ∀ low high, low.length = first → high.length = second →
      following (value low) high = both (low ++ high)) :
    Reads (scan >>= next) (.exactly (first + second) both) := by
  rw [← Reading.exactly_andThen hboth]
  exact hscan.bind hnext

/-- What is made of the value does not change the bytes. -/
theorem Reads.map_exactly {scan : Scan α} {count : Nat} {value : List UInt8 → α}
    (hscan : Reads scan (.exactly count value)) (result : α → β) :
    Reads (scan >>= fun found ↦ pure (result found))
      (.exactly count fun bytes ↦ result (value bytes)) := by
  change Reads _ (.exactly (count + 0) _)
  refine hscan.bind_exactly _ (fun found ↦ reads_pure (result found)) fun low high hlow hhigh ↦ ?_
  rw [List.length_eq_zero_iff.mp hhigh, List.append_nil]

theorem reads_nextByte : Reads Cursor.nextByte .byte where
  isLocal := Reading.isLocal_exactly _ _
  result cursor := by
    rw [Reading.byte, Reading.exactly, Cursor.length_rest]
    by_cases hlt : cursor.offset < cursor.memory.size
    · obtain ⟨left, hleft⟩ : ∃ left, cursor.memory.size - cursor.offset = left + 1 :=
        Nat.exists_eq_add_one.mpr (Nat.sub_pos_of_lt hlt)
      rw [nextByte_of_lt hlt, Cursor.rest, Memory.window, hleft,
        if_pos (Nat.succ_le_succ (Nat.zero_le left))]
      rfl
    · rw [nextByte_of_not_lt hlt, if_neg (by omega)]

theorem nextByte_of_rest {cursor : Cursor} {first : UInt8} {tail : List UInt8}
    (h : cursor.rest = first :: tail) :
    Cursor.nextByte cursor = .ok first (cursor.behind 1) := by
  have hbyte := reads_nextByte.result cursor
  rwa [h] at hbyte

theorem nextByte_of_rest_nil {cursor : Cursor} (h : cursor.rest = []) :
    Cursor.nextByte cursor = .error cursor.endError cursor.atEnd := by
  have hbyte := reads_nextByte.result cursor
  rwa [h] at hbyte

theorem reads_nextWord :
    Reads Cursor.nextWord (.exactly 2 fun bytes ↦ UInt16.ofNat (littleEndian bytes)) := by
  refine reads_nextByte.bind_exactly _ (fun low ↦ reads_nextByte.map_exactly fun high ↦
    low.toUInt16 + high.toUInt16 <<< 8) fun low high hlow hhigh ↦ ?_
  obtain ⟨low, rfl⟩ := List.length_eq_one_iff.mp hlow
  obtain ⟨high, rfl⟩ := List.length_eq_one_iff.mp hhigh
  calc low.toUInt16 + high.toUInt16 <<< 8
      = UInt16.ofNat (low.toUInt16 + high.toUInt16 <<< 8).toNat := UInt16.ofNat_toNat.symm
    _ = UInt16.ofNat (littleEndian ([low] ++ [high])) := by
      rw [toNat_word]
      rfl

theorem toNat_ofNat_word {bytes : List UInt8} (hbytes : bytes.length ≤ 2) :
    (UInt16.ofNat (littleEndian bytes)).toNat = littleEndian bytes :=
  UInt16.toNat_ofNat_of_lt' ((littleEndian_lt bytes).trans_le
    (Nat.pow_le_pow_right (Nat.succ_pos 255) hbytes))

theorem toNat_ofNat_doubleword {bytes : List UInt8} (hbytes : bytes.length ≤ 4) :
    (UInt32.ofNat (littleEndian bytes)).toNat = littleEndian bytes :=
  UInt32.toNat_ofNat_of_lt' ((littleEndian_lt bytes).trans_le
    (Nat.pow_le_pow_right (Nat.succ_pos 255) hbytes))

theorem reads_nextDoubleword :
    Reads Cursor.nextDoubleword (.exactly 4 fun bytes ↦ UInt32.ofNat (littleEndian bytes)) := by
  refine reads_nextWord.bind_exactly _ (fun low ↦ reads_nextWord.map_exactly fun high ↦
    low.toUInt32 + high.toUInt32 <<< 16) fun low high hlow hhigh ↦ ?_
  have hboth : (low ++ high).length ≤ 4 := by rw [List.length_append, hlow, hhigh]
  rw [← UInt32.toNat_inj, toNat_doubleword, toNat_ofNat_word hlow.le, toNat_ofNat_word hhigh.le,
    toNat_ofNat_doubleword hboth, littleEndian_append, hlow]

end Scan

end GuestMachine

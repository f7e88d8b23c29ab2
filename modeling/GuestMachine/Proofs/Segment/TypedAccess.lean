import GuestMachine.Proofs.Memory.Widths
import GuestMachine.Proofs.Segment.Limits

/-!
# Typed accesses

An access of any width goes through the same steps. Its places are translated, a quadword's in two
halves; then the region is looked up; and only then is the number read off the bytes there, or are
its bytes stored. So an access that is refused has stored nothing. Between two segments that translate
to the same places what the one stores the other reads back.
-/

namespace GuestMachine

/-- Of two steps that both may fail, the first has gone well if the whole has. -/
theorem exists_of_bind_eq_ok {α β : Type} {first : Except Error α} {next : α → Except Error β}
    {result : β} (hbind : first >>= next = .ok result) :
    ∃ value, first = .ok value ∧ next value = .ok result := by
  cases first with
  | error reason => cases hbind
  | ok value => exact ⟨value, rfl, hbind⟩

namespace Segment

/-! ## Accesses of any width -/

def read (segment : Segment) (spaces : Spaces) :
    (width : Width) → (offset : UInt32) → Except Error width.Value
  | .byte => segment.getByte spaces
  | .word => segment.getWord spaces
  | .doubleword => segment.getDoubleword spaces
  | .quadword => segment.getQuadword spaces

def write (segment : Segment) (spaces : Spaces) :
    (width : Width) → (offset : UInt32) → width.Value → Except Error Spaces
  | .byte => segment.setByte spaces
  | .word => segment.setWord spaces
  | .doubleword => segment.setDoubleword spaces
  | .quadword => segment.setQuadword spaces

/-- The places of bytes that are translated at once. -/
def row (segment : Segment) (access : Access) (count : Nat) (offset : UInt32) :
    Except Error (List UInt32) := do
  return consecutive (← segment.translate offset (UInt32.ofNat count) access) count

/-- The places of the bytes of an access. Those of a quadword are translated in two halves. -/
def places (segment : Segment) (access : Access) :
    (width : Width) → (offset : UInt32) → Except Error (List UInt32)
  | .byte, offset => segment.row access 1 offset
  | .word, offset => segment.row access 2 offset
  | .doubleword, offset => segment.row access 4 offset
  | .quadword, offset => do
    return (← segment.row access 4 offset) ++ (← segment.row access 4 (offset + 4))

variable {segment : Segment} {spaces after : Spaces} {access : Access} {width : Width}
  {offset : UInt32} {places : List UInt32} {data : width.Value}

/-- No access is translated without a base. -/
theorem base_of_translate {size address : UInt32}
    (htranslate : segment.translate offset size access = .ok address) :
    ∃ base, segment.base = .ok base ∧ address = base + offset := by
  rcases segment.translate_cases access with ⟨base, hbase, hbounded⟩ | ⟨reason, hrefused⟩
  · rw [hbounded, add_of_checkLimit_eq_ok_iff] at htranslate
    exact ⟨base, hbase, htranslate.2.symm⟩
  · rw [hrefused] at htranslate
    cases htranslate

theorem base_of_row {count : Nat} (hrow : segment.row access count offset = .ok places) :
    ∃ base, segment.base = .ok base ∧ places = consecutive (base + offset) count := by
  obtain ⟨address, htranslate, hplaces⟩ := exists_of_bind_eq_ok hrow
  cases hplaces
  obtain ⟨base, hbase, rfl⟩ := base_of_translate htranslate
  exact ⟨base, hbase, rfl⟩

/-- However it is translated, an access has its bytes in a row. -/
theorem exists_consecutive (hplaces : segment.places access width offset = .ok places) :
    ∃ address, places = consecutive address width.size := by
  cases width with
  | byte | word | doubleword =>
    obtain ⟨base, -, hrow⟩ := base_of_row hplaces
    exact ⟨_, hrow⟩
  | quadword =>
    obtain ⟨low, hlow, hrest⟩ := exists_of_bind_eq_ok hplaces
    obtain ⟨high, hhigh, hboth⟩ := exists_of_bind_eq_ok hrest
    cases hboth
    obtain ⟨base, hbase, rfl⟩ := base_of_row hlow
    obtain ⟨same, hsame, rfl⟩ := base_of_row hhigh
    -- Both halves are translated with the base of the segment.
    rw [hbase] at hsame
    cases hsame
    refine ⟨base + offset, ?_⟩
    rw [← UInt32.add_assoc]
    exact consecutive_append (base + offset) 4 4

theorem nodup_places (hplaces : segment.places access width offset = .ok places) :
    places.length = width.size ∧ places.Nodup := by
  obtain ⟨address, rfl⟩ := exists_consecutive hplaces
  refine ⟨length_consecutive _ _, nodup_consecutive address ?_⟩
  cases width <;> decide

theorem read_eq (segment : Segment) (spaces : Spaces) (width : Width) (offset : UInt32) :
    segment.read spaces width offset = do
      let places ← segment.places .read width offset
      let memory ← spaces.get segment.space
      return width.valueOf (littleEndian (places.map memory.getByte)) := by
  cases width with
  | byte =>
    simp only [read, getByte, Segment.places, row, bind_assoc, pure_bind, Width.valueOf,
      UInt32.reduceOfNat, Memory.ofNat_littleEndian_byte]
  | word =>
    simp only [read, getWord, Segment.places, row, bind_assoc, pure_bind, Memory.getWord_eq,
      Width.valueOf, UInt32.reduceOfNat]
  | doubleword =>
    simp only [read, getDoubleword, Segment.places, row, bind_assoc, pure_bind,
      Memory.getDoubleword_eq, Width.valueOf, UInt32.reduceOfNat]
  | quadword =>
    simp only [read, getQuadword, Segment.places, row, bind_assoc, pure_bind, Memory.getQuadword_eq]
    rfl

theorem write_eq (segment : Segment) (spaces : Spaces) (width : Width) (offset : UInt32)
    (data : width.Value) :
    segment.write spaces width offset data =
      segment.places .write width offset >>= fun places ↦
        spaces.modify segment.space (·.storeBytes (places.zip (width.bytes data))) := by
  cases width with
  | byte =>
    simp only [write, setByte, Segment.places, row, bind_assoc, pure_bind, Memory.setByte_eq,
      UInt32.reduceOfNat]
    rfl
  | word =>
    simp only [write, setWord, Segment.places, row, bind_assoc, pure_bind, Memory.setWord_eq,
      UInt32.reduceOfNat]
    rfl
  | doubleword =>
    simp only [write, setDoubleword, Segment.places, row, bind_assoc, pure_bind,
      Memory.setDoubleword_eq, UInt32.reduceOfNat]
    rfl
  | quadword =>
    simp only [write, setQuadword, Segment.places, row, bind_assoc, pure_bind,
      Memory.setQuadword_eq, UInt32.reduceOfNat]
    rfl

theorem write_of_places (spaces : Spaces) (hplaces : segment.places .write width offset = .ok places)
    (data : width.Value) : segment.write spaces width offset data =
      spaces.modify segment.space (·.storeBytes (places.zip (width.bytes data))) := by
  rw [write_eq, hplaces]
  rfl

theorem read_of_refused (spaces : Spaces) {reason : Error}
    (hplaces : segment.places .read width offset = .error reason) :
    segment.read spaces width offset = .error reason := by
  rw [read_eq, hplaces]
  rfl

theorem write_of_refused (spaces : Spaces) {reason : Error}
    (hplaces : segment.places .write width offset = .error reason) (data : width.Value) :
    segment.write spaces width offset data = .error reason := by
  rw [write_eq, hplaces]
  rfl

/-! ## Writing in place -/

/-- Writes a value in place, one byte after another. -/
def writeInPlace (segment : Segment) (width : Width) (offset : UInt32) (data : width.Value) :
    EStateM Error Spaces Unit := do
  let places ← MonadExcept.ofExcept (segment.places .write width offset)
  (places.zip (width.bytes data)).forM (Spaces.poke segment.space)

/-- A write in place that is refused has not written anything. -/
theorem writeInPlace_eq (segment : Segment) (spaces : Spaces) (width : Width) (offset : UInt32)
    (data : width.Value) :
    segment.writeInPlace width offset data spaces =
      match segment.write spaces width offset data with
      | .ok changed => .ok () changed
      | .error reason => .error reason spaces := by
  cases hplaces : segment.places .write width offset with
  | error reason =>
    rw [write_of_refused spaces hplaces, writeInPlace, hplaces]
    rfl
  | ok places =>
    have hlength : (places.zip (width.bytes data)).length = width.size := by
      rw [List.length_zip, (nodup_places hplaces).1, Width.length_bytes, Nat.min_self]
    have hpokes : segment.writeInPlace width offset data spaces =
        (places.zip (width.bytes data)).forM (Spaces.poke segment.space) spaces := by
      rw [writeInPlace, hplaces]
      rfl
    rw [write_of_places spaces hplaces, hpokes]
    by_cases hid : segment.space < spaces.size
    · rw [Spaces.forM_poke spaces hid, Spaces.modify_eq _ _ hid]
    · -- There is a first byte, which finds no region.
      obtain ⟨store, rest, hcons⟩ := List.exists_cons_of_length_pos (hlength ▸ width.size_pos)
      rw [hcons, Spaces.forM_poke_unknown spaces hid, Spaces.modify_unknown _ _ hid]

/-! ## What accesses do -/

/-- An access can be carried out: its places are translated, and the segment's region is there. -/
def Reaches (segment : Segment) (spaces : Spaces) (access : Access) (width : Width)
    (offset : UInt32) (places : List UInt32) (memory : Memory) : Prop :=
  segment.places access width offset = .ok places ∧ spaces.get segment.space = .ok memory

theorem read_of_reaches {memory : Memory}
    (hreaches : segment.Reaches spaces .read width offset places memory) :
    segment.read spaces width offset =
      .ok (width.valueOf (littleEndian (places.map memory.getByte))) := by
  rw [read_eq, hreaches.1, hreaches.2]
  rfl

theorem reaches_of_read {value : width.Value}
    (hread : segment.read spaces width offset = .ok value) :
    ∃ places memory, segment.Reaches spaces .read width offset places memory := by
  rw [read_eq] at hread
  obtain ⟨places, hplaces, hrest⟩ := exists_of_bind_eq_ok hread
  obtain ⟨memory, hget, -⟩ := exists_of_bind_eq_ok hrest
  exact ⟨places, memory, hplaces, hget⟩

/-- A write that is not refused stores its bytes at its places. -/
theorem stored_of_write (hwrite : segment.write spaces width offset data = .ok after) :
    ∃ places memory, segment.Reaches spaces .write width offset places memory ∧
      spaces.Stored after segment.space (places.zip (width.bytes data)) := by
  rw [write_eq] at hwrite
  obtain ⟨places, hplaces, hmodify⟩ := exists_of_bind_eq_ok hwrite
  obtain ⟨hlength, hnodup⟩ := nodup_places hplaces
  have hpaired : places.length ≤ (width.bytes data).length := by
    rw [hlength, Width.length_bytes]
  by_cases hid : segment.space < spaces.size
  · obtain ⟨memory, hget⟩ := Spaces.exists_get_iff.mpr hid
    refine ⟨places, memory, ⟨hplaces, hget⟩, Spaces.stored_modify ?_ hmodify⟩
    rwa [List.map_fst_zip hpaired]
  · rw [Spaces.modify_unknown _ _ hid] at hmodify
    cases hmodify

/-- What was written at places within a writable region is read back at these places. -/
theorem read_of_stored {reader : Segment} {there : UInt32} {ram : Ram}
    (hstored : spaces.Stored after segment.space (places.zip (width.bytes data)))
    (hspace : reader.space = segment.space) (hplaces : reader.places .read width there = .ok places)
    (hget : spaces.get segment.space = .ok (.ram ram))
    (hwithin : ∀ place ∈ places, place.toNat < ram.size) :
    reader.read after width there = .ok data := by
  obtain ⟨changed, hchanged, hreceives⟩ := hstored.ram ram hget
  have hlength : places.length = (width.bytes data).length := by
    rw [(nodup_places hplaces).1, Width.length_bytes]
  rw [← hspace] at hchanged
  rw [read_of_reaches ⟨hplaces, hchanged⟩, hreceives.map_getByte hlength hwithin,
    Width.valueOf_littleEndian_bytes]

/-- Accesses of every width are exact. A read yields the number that the bytes at its places make up.
A write stores the bytes of its value at its places and nothing else, or has not stored anything when
it is refused; and it is read back through every segment that has the same places within the same
writable region. -/
theorem access_exact (segment : Segment) (spaces : Spaces) (width : Width) (offset : UInt32) :
    (∀ value, segment.read spaces width offset = .ok value ↔
      ∃ places memory, segment.Reaches spaces .read width offset places memory ∧
        value = width.valueOf (littleEndian (places.map memory.getByte))) ∧
    ∀ data : width.Value,
      ((∃ after, segment.write spaces width offset data = .ok after) ↔
        ∃ places memory, segment.Reaches spaces .write width offset places memory) ∧
      (∀ reason, segment.write spaces width offset data = .error reason →
        segment.writeInPlace width offset data spaces = .error reason spaces) ∧
      ∀ after, segment.write spaces width offset data = .ok after →
        segment.writeInPlace width offset data spaces = .ok () after ∧
        ∃ places, segment.places .write width offset = .ok places ∧
          spaces.Stored after segment.space (places.zip (width.bytes data)) ∧
          ∀ (reader : Segment) (there : UInt32) (ram : Ram), reader.space = segment.space →
            reader.places .read width there = .ok places →
            spaces.get segment.space = .ok (.ram ram) →
            (∀ place ∈ places, place.toNat < ram.size) →
            reader.read after width there = .ok data := by
  refine ⟨fun value ↦ ⟨fun hread ↦ ?_, ?_⟩, fun data ↦ ⟨⟨?_, ?_⟩, ?_, fun after hwrite ↦ ⟨?_, ?_⟩⟩⟩
  · obtain ⟨places, memory, hreaches⟩ := reaches_of_read hread
    rw [read_of_reaches hreaches] at hread
    exact ⟨places, memory, hreaches, (Except.ok.inj hread).symm⟩
  · rintro ⟨places, memory, hreaches, rfl⟩
    exact read_of_reaches hreaches
  · rintro ⟨after, hwrite⟩
    obtain ⟨places, memory, hreaches, -⟩ := stored_of_write hwrite
    exact ⟨places, memory, hreaches⟩
  · rintro ⟨places, memory, hplaces, hget⟩
    exact ⟨_, (write_of_places spaces hplaces data).trans
      (Spaces.modify_eq _ _ (Spaces.lt_size_of_get hget))⟩
  · intro reason hwrite
    rw [writeInPlace_eq, hwrite]
  · rw [writeInPlace_eq, hwrite]
  · obtain ⟨places, memory, hreaches, hstored⟩ := stored_of_write hwrite
    refine ⟨places, hreaches.1, hstored, fun reader there ram hspace hplaces hget hwithin ↦ ?_⟩
    exact read_of_stored hstored hspace hplaces hget hwithin

/-- Eight bytes that can be written. -/
def eightBytes : Ram := .zeroed 8

/-- The segment starts four bytes before the end of the address range. -/
def wrapping : Segment := .descriptorTable 0 0xFFFFFFFC 0xFF

/-- The lower half of a quadword at the end of the address range is dropped, and the upper half is
stored at its start. A doubleword is read back through another segment. A quadword of which the limit
refuses the upper half is not stored in part. -/
theorem access_exact_wrapping :
    (∃ after changed, wrapping.setQuadword ⟨#[.ram eightBytes]⟩ 0 0x8877665544332211 = .ok after ∧
      after.get 0 = .ok (.ram changed) ∧ changed.bytes[3]? = some 0x88 ∧
      changed.bytes[4]? = some 0) ∧
    (∃ after, wrapping.setDoubleword ⟨#[.ram eightBytes]⟩ 6 0x44332211 = .ok after ∧
      (Segment.realMode 0 0).getDoubleword after 2 = .ok 0x44332211) ∧
    (Segment.descriptorTable 0 0 6).writeInPlace .quadword 0 0x8877665544332211
      ⟨#[.ram eightBytes]⟩ = .error (.exception .protection0) ⟨#[.ram eightBytes]⟩ := by
  have hplaces : wrapping.places .write .quadword 0 =
      .ok [0xFFFFFFFC, 0xFFFFFFFD, 0xFFFFFFFE, 0xFFFFFFFF, 0, 1, 2, 3] := by rfl
  have hlater : wrapping.places .write .doubleword 6 = .ok [2, 3, 4, 5] := by rfl
  refine ⟨?_, ?_, ?_⟩
  · have hwrites := (access_exact wrapping ⟨#[.ram eightBytes]⟩ .quadword 0).2 0x8877665544332211
    obtain ⟨after, hwrite⟩ := hwrites.1.mpr ⟨_, .ram eightBytes, hplaces, rfl⟩
    obtain ⟨-, places, hsame, hstored, -⟩ := hwrites.2.2 after hwrite
    rw [hplaces] at hsame
    cases hsame
    obtain ⟨changed, hchanged, hreceives⟩ := hstored.ram eightBytes rfl
    refine ⟨after, changed, hwrite, hchanged, ?_, ?_⟩
    · exact hreceives.stored (3, 0x88) (by decide) (by decide)
    · rw [hreceives.effect.kept 4 (by decide)]
      rfl
  · have hwrites := (access_exact wrapping ⟨#[.ram eightBytes]⟩ .doubleword 6).2 0x44332211
    obtain ⟨after, hwrite⟩ := hwrites.1.mpr ⟨_, .ram eightBytes, hlater, rfl⟩
    obtain ⟨-, places, hsame, -, hback⟩ := hwrites.2.2 after hwrite
    rw [hlater] at hsame
    cases hsame
    have hwithin : ∀ place ∈ ([2, 3, 4, 5] : List UInt32), place.toNat < eightBytes.size := by
      have hsize : eightBytes.size = 8 := rfl
      simp [hsize]
    exact ⟨after, hwrite, hback (.realMode 0 0) 2 eightBytes rfl rfl rfl hwithin⟩
  · have hwrites := (access_exact (.descriptorTable 0 0 6) ⟨#[.ram eightBytes]⟩ .quadword 0).2
      0x8877665544332211
    exact hwrites.2.1 _ rfl

end Segment

end GuestMachine

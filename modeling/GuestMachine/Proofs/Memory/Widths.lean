import GuestMachine.Proofs.Memory.Cells
import GuestMachine.Proofs.Memory.Numbers

/-!
# Values of several bytes

A value of any width is read and stored as a number, of which each byte has its own place. The two
halves of a quadword need not lie side by side.
-/

namespace GuestMachine

/-! ## Numbers at their places -/

namespace Memory

variable (memory : Memory)

theorem map_getByte_consecutive (address : UInt32) (count : Nat) :
    (consecutive address count).map memory.getByte = memory.window address.toNat count := by
  simp only [consecutive, window, List.range'_eq_map_range, List.map_map, Function.comp_def,
    UInt32.ofNat_add, UInt32.ofNat_toNat]

theorem ofNat_littleEndian_byte (address : UInt32) :
    UInt8.ofNat (littleEndian ((consecutive address 1).map memory.getByte)) =
      memory.getByte address := by
  rw [consecutive_one, List.map_singleton, littleEndian, littleEndian, Nat.mul_zero, Nat.add_zero,
    UInt8.ofNat_toNat]

theorem getWord_eq (address : UInt32) : memory.getWord address =
    UInt16.ofNat (littleEndian ((consecutive address 2).map memory.getByte)) := by
  rw [map_getByte_consecutive, ← toNat_getWord, UInt32.ofNat_toNat, UInt16.ofNat_toNat]

theorem getDoubleword_eq (address : UInt32) : memory.getDoubleword address =
    UInt32.ofNat (littleEndian ((consecutive address 4).map memory.getByte)) := by
  rw [map_getByte_consecutive, ← toNat_getDoubleword, UInt32.ofNat_toNat, UInt32.ofNat_toNat]

theorem getQuadword_eq (low high : UInt32) :
    (memory.getDoubleword low).toUInt64 + (memory.getDoubleword high).toUInt64 <<< 32 =
      UInt64.ofNat (littleEndian
        ((consecutive low 4 ++ consecutive high 4).map memory.getByte)) := by
  rw [List.map_append, map_getByte_consecutive, map_getByte_consecutive, littleEndian_append,
    length_window, ← toNat_getDoubleword, ← toNat_getDoubleword, UInt32.ofNat_toNat,
    UInt32.ofNat_toNat, ← toNat_quadword, UInt64.ofNat_toNat]

theorem setByte_eq (address : UInt32) (byte : UInt8) : memory.setByte address byte =
    memory.storeBytes ((consecutive address 1).zip (bytesOf 1 byte.toNat)) := by
  rw [consecutive_one, bytesOf, bytesOf, UInt8.ofNat_toNat]
  rfl

/-- The bytes of a number are stored in two parts. -/
theorem storeBytes_bytesOf_append {low : List UInt32} {count : Nat} (hlow : low.length = count)
    (high : List UInt32) (rest value : Nat) :
    (memory.storeBytes (low.zip (bytesOf count value))).storeBytes
        (high.zip (bytesOf rest (value / 256 ^ count))) =
      memory.storeBytes ((low ++ high).zip (bytesOf (count + rest) value)) := by
  have hlength : low.length = (bytesOf count value).length := by rw [hlow, length_bytesOf]
  rw [← storeBytes_append, ← List.zip_append hlength, bytesOf_append]

theorem setWord_eq (address : UInt32) (word : UInt16) : memory.setWord address word =
    memory.storeBytes ((consecutive address 2).zip (bytesOf 2 word.toNat)) := by
  have hlow : bytesOf 1 word.toUInt8.toNat = bytesOf 1 word.toNat := by
    rw [UInt16.toNat_toUInt8]
    exact bytesOf_mod 1 _
  have hhigh : bytesOf 1 (word >>> 8).toUInt8.toNat = bytesOf 1 (word.toNat / 256 ^ 1) := by
    rw [UInt16.toNat_toUInt8, UInt16.toNat_shiftRight, Nat.shiftRight_eq_div_pow]
    exact bytesOf_mod 1 _
  have hplaces : consecutive address 1 ++ consecutive (address + 1) 1 = consecutive address 2 :=
    consecutive_append address 1 1
  rw [setWord, setByte_eq, setByte_eq, hlow, hhigh,
    storeBytes_bytesOf_append _ (length_consecutive _ _), hplaces]

theorem setDoubleword_eq (address : UInt32) (word : UInt32) : memory.setDoubleword address word =
    memory.storeBytes ((consecutive address 4).zip (bytesOf 4 word.toNat)) := by
  have hlow : bytesOf 2 word.toUInt16.toNat = bytesOf 2 word.toNat := by
    rw [UInt32.toNat_toUInt16]
    exact bytesOf_mod 2 _
  have hhigh : bytesOf 2 (word >>> 16).toUInt16.toNat = bytesOf 2 (word.toNat / 256 ^ 2) := by
    rw [UInt32.toNat_toUInt16, UInt32.toNat_shiftRight, Nat.shiftRight_eq_div_pow]
    exact bytesOf_mod 2 _
  have hplaces : consecutive address 2 ++ consecutive (address + 2) 2 = consecutive address 4 :=
    consecutive_append address 2 2
  rw [setDoubleword, setWord_eq, setWord_eq, hlow, hhigh,
    storeBytes_bytesOf_append _ (length_consecutive _ _), hplaces]

theorem setQuadword_eq (low high : UInt32) (data : UInt64) :
    (memory.setDoubleword low data.toUInt32).setDoubleword high (data >>> 32).toUInt32 =
      memory.storeBytes ((consecutive low 4 ++ consecutive high 4).zip (bytesOf 8 data.toNat)) := by
  have hlow : bytesOf 4 data.toUInt32.toNat = bytesOf 4 data.toNat := by
    rw [UInt64.toNat_toUInt32]
    exact bytesOf_mod 4 _
  have hhigh : bytesOf 4 (data >>> 32).toUInt32.toNat = bytesOf 4 (data.toNat / 256 ^ 4) := by
    rw [UInt64.toNat_toUInt32, UInt64.toNat_shiftRight, Nat.shiftRight_eq_div_pow]
    exact bytesOf_mod 4 _
  rw [setDoubleword_eq, setDoubleword_eq, hlow, hhigh,
    storeBytes_bytesOf_append _ (length_consecutive _ _)]

end Memory

/-! ## Widths -/

/-- The widths of the accesses through a segment. -/
inductive Width where
  | byte
  | word
  | doubleword
  | quadword
  deriving DecidableEq, Repr

namespace Width

/-- The number of bytes. -/
def size : Width → Nat
  | byte => 1
  | word => 2
  | doubleword => 4
  | quadword => 8

abbrev Value : Width → Type
  | byte => UInt8
  | word => UInt16
  | doubleword => UInt32
  | quadword => UInt64

def toNat : (width : Width) → width.Value → Nat
  | byte => UInt8.toNat
  | word => UInt16.toNat
  | doubleword => UInt32.toNat
  | quadword => UInt64.toNat

/-- The value that a number has modulo the range of the width. -/
def valueOf : (width : Width) → Nat → width.Value
  | byte => UInt8.ofNat
  | word => UInt16.ofNat
  | doubleword => UInt32.ofNat
  | quadword => UInt64.ofNat

variable (width : Width)

theorem size_pos : 0 < width.size := by
  cases width <;> decide

theorem toNat_lt (value : width.Value) : width.toNat value < 256 ^ width.size := by
  cases width with
  | byte => exact UInt8.toNat_lt value
  | word => exact UInt16.toNat_lt value
  | doubleword => exact UInt32.toNat_lt value
  | quadword => exact UInt64.toNat_lt value

theorem valueOf_toNat (value : width.Value) : width.valueOf (width.toNat value) = value := by
  cases width with
  | byte => exact UInt8.ofNat_toNat
  | word => exact UInt16.ofNat_toNat
  | doubleword => exact UInt32.ofNat_toNat
  | quadword => exact UInt64.ofNat_toNat

/-- The bytes of a value, of which the first counts least. -/
def bytes (value : width.Value) : List UInt8 := bytesOf width.size (width.toNat value)

theorem length_bytes (value : width.Value) : (width.bytes value).length = width.size :=
  length_bytesOf _ _

theorem valueOf_littleEndian_bytes (value : width.Value) :
    width.valueOf (littleEndian (width.bytes value)) = value := by
  rw [bytes, littleEndian_bytesOf, Nat.mod_eq_of_lt (width.toNat_lt value), valueOf_toNat]

end Width

end GuestMachine

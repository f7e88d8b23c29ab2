import GuestMachine.Memory.Basic
import Mathlib.Algebra.Ring.Nat

/-!
# Numbers in memory

A number takes up as many bytes as its width asks for, of which the first counts least. Read wider
than by the byte, memory yields the number that the bytes from an address on make up; the bytes of a
number make it up again.
-/

namespace GuestMachine

/-! ## Bytes of numbers -/

/-- The number that bytes make up, of which the first counts least. -/
def littleEndian : List UInt8 → Nat
  | [] => 0
  | byte :: bytes => byte.toNat + 256 * littleEndian bytes

theorem littleEndian_append (low high : List UInt8) :
    littleEndian (low ++ high) = littleEndian low + 256 ^ low.length * littleEndian high := by
  induction low with
  | nil => simp [littleEndian]
  | cons byte bytes ih =>
    calc littleEndian (byte :: bytes ++ high)
        = byte.toNat + 256 * (littleEndian bytes + 256 ^ bytes.length * littleEndian high) := by
          rw [← ih]
          rfl
      _ = littleEndian (byte :: bytes) + 256 ^ (byte :: bytes).length * littleEndian high := by
          rw [littleEndian, List.length_cons, Nat.pow_succ', Nat.mul_add, Nat.mul_assoc,
            Nat.add_assoc]

theorem littleEndian_lt (bytes : List UInt8) : littleEndian bytes < 256 ^ bytes.length := by
  induction bytes with
  | nil => exact Nat.one_pos
  | cons byte bytes ih =>
    have hbyte : byte.toNat < 256 := byte.toNat_lt
    rw [littleEndian, List.length_cons, Nat.pow_succ']
    omega

/-- The bytes of a number modulo a power of 256. -/
def bytesOf : (count value : Nat) → List UInt8
  | 0, _ => []
  | count + 1, value => UInt8.ofNat value :: bytesOf count (value / 256)

@[simp]
theorem length_bytesOf (count value : Nat) : (bytesOf count value).length = count := by
  induction count generalizing value with
  | zero => rfl
  | succ count ih => rw [bytesOf, List.length_cons, ih]

theorem bytesOf_append (low high value : Nat) :
    bytesOf low value ++ bytesOf high (value / 256 ^ low) = bytesOf (low + high) value := by
  induction low generalizing value with
  | zero => rw [Nat.pow_zero, Nat.div_one, Nat.zero_add, bytesOf, List.nil_append]
  | succ low ih =>
    rw [Nat.succ_add, bytesOf, bytesOf, List.cons_append, ← ih, Nat.div_div_eq_div_mul,
      Nat.pow_succ']

/-- What is left out of the number does not matter. -/
theorem bytesOf_mod (count value : Nat) :
    bytesOf count (value % 256 ^ count) = bytesOf count value := by
  induction count generalizing value with
  | zero => rfl
  | succ count ih =>
    have hfirst : UInt8.ofNat (value % 256 ^ (count + 1)) = UInt8.ofNat value := by
      rw [← UInt8.toNat_inj, UInt8.toNat_ofNat', UInt8.toNat_ofNat', Nat.pow_succ',
        Nat.mod_mul_right_mod]
    rw [bytesOf, bytesOf, hfirst, Nat.pow_succ', Nat.mod_mul_right_div_self, ih]

theorem littleEndian_bytesOf (count value : Nat) :
    littleEndian (bytesOf count value) = value % 256 ^ count := by
  induction count generalizing value with
  | zero => rw [bytesOf, littleEndian, Nat.pow_zero, Nat.mod_one]
  | succ count ih =>
    calc littleEndian (bytesOf (count + 1) value)
        = value % 256 + 256 * (value / 256 % 256 ^ count) := by
          rw [bytesOf, littleEndian, ih, UInt8.toNat_ofNat']
      _ = value % 256 ^ (count + 1) := by rw [Nat.pow_succ', Nat.mod_mul]

/-- Two bytes make up a word. -/
theorem toNat_word (low high : UInt8) :
    (low.toUInt16 + high.toUInt16 <<< 8).toNat = low.toNat + 256 * high.toNat := by
  have hlow := low.toNat_lt
  have hhigh := high.toNat_lt
  rw [UInt16.toNat_add, UInt16.toNat_shiftLeft, UInt8.toNat_toUInt16, UInt8.toNat_toUInt16,
    Nat.shiftLeft_eq]
  simp only [UInt16.reduceToNat, Nat.reduceMod, Nat.reducePow] at hlow hhigh ⊢
  omega

/-- Two words make up a doubleword. -/
theorem toNat_doubleword (low high : UInt16) :
    (low.toUInt32 + high.toUInt32 <<< 16).toNat = low.toNat + 256 ^ 2 * high.toNat := by
  have hlow := low.toNat_lt
  have hhigh := high.toNat_lt
  rw [UInt32.toNat_add, UInt32.toNat_shiftLeft, UInt16.toNat_toUInt32, UInt16.toNat_toUInt32,
    Nat.shiftLeft_eq]
  simp only [UInt32.reduceToNat, Nat.reduceMod, Nat.reducePow] at hlow hhigh ⊢
  omega

/-- Two doublewords make up a quadword. -/
theorem toNat_quadword (low high : UInt32) :
    (low.toUInt64 + high.toUInt64 <<< 32).toNat = low.toNat + 256 ^ 4 * high.toNat := by
  have hlow := low.toNat_lt
  have hhigh := high.toNat_lt
  rw [UInt64.toNat_add, UInt64.toNat_shiftLeft, UInt32.toNat_toUInt64, UInt32.toNat_toUInt64,
    Nat.shiftLeft_eq]
  simp only [UInt64.reduceToNat, Nat.reduceMod, Nat.reducePow] at hlow hhigh ⊢
  omega

/-! ## Reading -/

namespace Memory

variable (memory : Memory)

/-- The bytes from an address on, modulo 2^32. -/
def window (start count : Nat) : List UInt8 :=
  (List.range' start count).map fun place ↦ memory.getByte (UInt32.ofNat place)

@[simp]
theorem length_window (start count : Nat) : (memory.window start count).length = count := by
  rw [window, List.length_map, List.length_range']

theorem window_append (start low high : Nat) :
    memory.window start low ++ memory.window (start + low) high =
      memory.window start (low + high) := by
  rw [window, window, window, ← List.map_append, List.range'_append_1]

theorem toNat_getWord (start : Nat) : (memory.getWord (UInt32.ofNat start)).toNat =
    littleEndian (memory.window start 2) := by
  have hnext : UInt32.ofNat start + 1 = UInt32.ofNat (start + 1) := (UInt32.ofNat_add start 1).symm
  rw [getWord, hnext, toNat_word]
  rfl

theorem toNat_getDoubleword (start : Nat) : (memory.getDoubleword (UInt32.ofNat start)).toNat =
    littleEndian (memory.window start 4) := by
  have hnext : UInt32.ofNat start + 2 = UInt32.ofNat (start + 2) := (UInt32.ofNat_add start 2).symm
  rw [← memory.window_append start 2 2, littleEndian_append, length_window, ← toNat_getWord,
    ← toNat_getWord, getDoubleword, hnext, toNat_doubleword]

/-- Two doublewords side by side. -/
theorem toNat_getQuadword (start : Nat) :
    ((memory.getDoubleword (UInt32.ofNat start)).toUInt64 +
      (memory.getDoubleword (UInt32.ofNat (start + 4))).toUInt64 <<< 32).toNat =
      littleEndian (memory.window start 8) := by
  rw [← memory.window_append start 4 4, littleEndian_append, length_window, ← toNat_getDoubleword,
    ← toNat_getDoubleword, toNat_quadword]

end Memory

end GuestMachine

import GuestMachine.Segment.Access
import Mathlib.Data.Nat.Bitwise

/-!
# The bits of descriptors and selectors

The fields of a descriptor are numbers in the bits of one word, and what its type allows is a
condition on the type code. Both are stated here without the names of the fields and of the types. A
selector has its privilege level in its two low bits.
-/

namespace GuestMachine

namespace Descriptor

/-- The number that stands in the bits `low` to `high`. -/
def bits (raw : UInt64) (low high : Nat) : Nat := raw.toNat / 2 ^ low % 2 ^ (high + 1 - low)

theorem bits_lt (raw : UInt64) (low high : Nat) : bits raw low high < 2 ^ (high + 1 - low) :=
  Nat.mod_lt _ (Nat.two_pow_pos _)

theorem field_eq_bits (raw : UInt64) (low width : Nat) :
    field raw low (width + 1) = bits raw low (low + width) := by
  rw [field, bits, Nat.shiftRight_eq_div_pow, Nat.one_shiftLeft]
  congr 2
  omega

theorem flag_eq_testBit (raw : UInt64) (bit : Nat) : flag raw bit = raw.toNat.testBit bit := by
  rw [flag, field, Nat.shiftRight_eq_div_pow, Nat.one_shiftLeft, Nat.testBit_eq_decide_div_mod_eq]
  rfl

theorem typeCode_eq_bits (raw : UInt64) : typeCode raw = bits raw 40 44 := field_eq_bits raw 40 4

/-- The readable and the writable bit of the type is bit 41 of the word. -/
theorem testBit_typeCode (raw : UInt64) : (bits raw 40 44).testBit 1 = raw.toNat.testBit 41 := by
  rw [bits, Nat.testBit_mod_two_pow, Nat.testBit_div_two_pow]
  rfl

end Descriptor

namespace SegmentFields

open Descriptor

variable (raw : UInt64)

theorem toNat_base : (ofRaw raw).base.toNat = bits raw 16 39 + 2 ^ 24 * bits raw 56 63 := by
  have hlow := bits_lt raw 16 39
  have hhigh := bits_lt raw 56 63
  simp only [ofRaw, field_eq_bits, Nat.shiftLeft_eq, UInt32.toNat_ofNat', Nat.reduceAdd,
    Nat.reduceSub] at hlow hhigh ⊢
  omega

theorem toNat_rawLimit : (ofRaw raw).rawLimit.toNat = bits raw 0 15 + 2 ^ 16 * bits raw 48 51 := by
  have hlow := bits_lt raw 0 15
  have hhigh := bits_lt raw 48 51
  simp only [ofRaw, field_eq_bits, Nat.shiftLeft_eq, UInt32.toNat_ofNat', Nat.reduceAdd,
    Nat.reduceSub] at hlow hhigh ⊢
  omega

/-- The limit counts pages if bit 55 is set, and then reaches to the end of the last one. -/
theorem toNat_limit : (ofRaw raw).limit.toNat =
    if raw.toNat.testBit 55 then 4096 * (bits raw 0 15 + 2 ^ 16 * bits raw 48 51) + 4095
    else bits raw 0 15 + 2 ^ 16 * bits raw 48 51 := by
  have hlow := bits_lt raw 0 15
  have hhigh := bits_lt raw 48 51
  have hgranularity : (ofRaw raw).granularity = raw.toNat.testBit 55 := flag_eq_testBit raw 55
  rw [limit, hgranularity]
  split
  · rw [UInt32.toNat_add, UInt32.toNat_mul, toNat_rawLimit]
    simp only [Nat.reduceAdd, Nat.reduceSub, UInt32.reduceToNat] at hlow hhigh ⊢
    omega
  · exact toNat_rawLimit raw

theorem toNat_dpl : (ofRaw raw).dpl.toNat = bits raw 45 46 := by
  have hlt := bits_lt raw 45 46
  simp only [ofRaw, field_eq_bits, UInt8.toNat_ofNat', Nat.reduceAdd, Nat.reduceSub] at hlt ⊢
  omega

end SegmentFields

namespace DescriptorType

theorem code_eq_of_ofCode? {code : Nat} {type : DescriptorType} (htype : ofCode? code = some type) :
    type.code = code := by
  have hfound := List.find?_some htype
  exact beq_iff_eq.mp hfound

theorem ofCode?_eq_none_iff {code : Nat} (hcode : code < 2 ^ 5) :
    ofCode? code = none ↔ code ∈ [0x00, 0x08, 0x0A, 0x0D] := by
  revert code
  decide

variable (type : DescriptorType)

theorem isGate_eq :
    type.isGate = decide (type.code ∈ [0x04, 0x05, 0x06, 0x07, 0x0C, 0x0E, 0x0F]) := by
  cases type <;> rfl

theorem isSystem_eq : type.isSystem = decide (type.code < 0x10) := by
  cases type <;> rfl

theorem isSystem_of_isGate {type : DescriptorType} (hgate : type.isGate = true) :
    type.isSystem = true := by
  cases type <;> first | rfl | cases hgate

theorem isReadable_of_isData {type : DescriptorType} (hdata : type.isData = true) :
    type.isReadable = true := by
  cases type <;> first | rfl | cases hdata

theorem isCode_eq : type.isCode = decide (0x18 ≤ type.code) := by
  cases type <;> rfl

theorem isData_eq : type.isData = decide (0x10 ≤ type.code ∧ type.code < 0x18) := by
  cases type <;> rfl

theorem isConforming_eq : type.isConforming = decide (0x1C ≤ type.code) := by
  cases type <;> rfl

theorem isExpandDown_eq :
    type.isExpandDown = decide (0x14 ≤ type.code ∧ type.code ≤ 0x17) := by
  cases type <;> rfl

theorem isReadable_eq :
    type.isReadable = !(decide (0x18 ≤ type.code) && !type.code.testBit 1) := by
  cases type <;> rfl

theorem isWritable_eq : type.isWritable =
    !(decide (0x18 ≤ type.code) ||
      (decide (0x10 ≤ type.code) && decide (type.code < 0x18) && !type.code.testBit 1)) := by
  cases type <;> rfl

/-- The types that only some policies decode, under their codes. -/
def unimplemented : List (Nat × DescriptorType) :=
  [(0x14, readOnlyExpandDownData), (0x15, readOnlyExpandDownAccessedData),
    (0x17, readWriteExpandDownAccessedData), (0x19, executeOnlyAccessedCode),
    (0x1C, executeOnlyConformingCode)]

end DescriptorType

/-! ## Selectors -/

theorem toNat_selectorRpl (selector : UInt16) :
    (selectorRpl selector).toNat = selector.toNat % 4 := by
  have hand : (selector &&& 3).toNat = selector.toNat % 4 := by
    rw [UInt16.toNat_and]
    exact Nat.and_two_pow_sub_one_eq_mod selector.toNat 2
  rw [selectorRpl, UInt16.toNat_toUInt8, hand]
  omega

/-- A mask of the bits from `low` on clears those below. -/
theorem toNat_and_highMask (selector mask : UInt16) (low : Nat)
    (hmask : ∀ bit < 16, mask.toNat.testBit bit = decide (bit ≥ low)) :
    (selector &&& mask).toNat = selector.toNat / 2 ^ low * 2 ^ low := by
  rw [UInt16.toNat_and, ← Nat.shiftLeft_eq, ← Nat.shiftRight_eq_div_pow]
  apply Nat.eq_of_testBit_eq
  intro bit
  rw [Nat.testBit_and, Nat.testBit_shiftLeft, Nat.testBit_shiftRight]
  rcases Nat.lt_or_ge bit 16 with hwithin | hbeyond
  · rw [hmask bit hwithin, Bool.and_comm]
    rcases Nat.lt_or_ge bit low with hcleared | hkept
    · rw [decide_eq_false (Nat.not_le.mpr hcleared), Bool.false_and, Bool.false_and]
    · rw [Nat.add_sub_cancel' hkept]
  · have hnone (place : Nat) (hplace : 16 ≤ place) : selector.toNat.testBit place = false :=
      Nat.testBit_lt_two_pow
        (Nat.lt_of_lt_of_le selector.toNat_lt (Nat.pow_le_pow_right (by decide) hplace))
    rw [hnone bit hbeyond, hnone _ (by omega), Bool.false_and, Bool.and_false]

theorem toNat_selectorBase (selector : UInt16) :
    (selectorBase selector).toNat = selector.toNat / 4 * 4 :=
  toNat_and_highMask selector 0xFFFC 2 (by decide)

/-- A level takes the place of the privilege bits. -/
theorem toNat_selectorBase_or (selector : UInt16) {level : UInt8} (hlevel : level.toNat < 4) :
    (selectorBase selector ||| level.toUInt16).toNat = selector.toNat / 4 * 4 + level.toNat := by
  rw [UInt16.toNat_or, toNat_selectorBase, UInt8.toNat_toUInt16]
  have hjoin := Nat.shiftLeft_add_eq_or_of_lt (i := 2) hlevel (selector.toNat / 4)
  rw [Nat.shiftLeft_eq] at hjoin
  exact hjoin.symm

/-- Every segment but the NULL segment takes on another level, of which the two low bits count. -/
theorem Segment.withLevel_eq_ok {segment : Segment} (hnull : segment.isNull = false)
    (level : UInt8) : ∃ changed, segment.withLevel level = .ok changed ∧
      changed.space = segment.space ∧ changed.kind = segment.kind ∧
      changed.rpl.toNat = level.toNat % 4 ∧
      changed.selector.toNat = segment.selector.toNat / 4 * 4 + level.toNat % 4 := by
  have hlevel : (level &&& 3).toNat = level.toNat % 4 := by
    rw [UInt8.toNat_and]
    exact Nat.and_two_pow_sub_one_eq_mod level.toNat 2
  rw [withLevel, hnull]
  refine ⟨_, rfl, rfl, rfl, hlevel, ?_⟩
  have hlow : (level &&& 3).toNat < 4 := by
    rw [hlevel]
    exact Nat.mod_lt _ (by decide)
  exact (toNat_selectorBase_or segment.selector hlow).trans (by rw [hlevel])

end GuestMachine

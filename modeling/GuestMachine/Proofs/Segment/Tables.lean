import GuestMachine.Proofs.Memory.Numbers
import GuestMachine.Proofs.Segment.Layout
import GuestMachine.Proofs.Segment.Limits
import GuestMachine.Segment.Load

/-!
# Descriptor tables in memory

An entry of a table is the little-endian number in the eight bytes at its place. It is read as two
doublewords, both of which the limit covers if it covers the last of these bytes.
-/

namespace GuestMachine

/-! ## Tables -/

/-- A descriptor table in an address space that there is. -/
structure LoadedTable (spaces : Spaces) where
  space : SpaceId
  memory : Memory
  base : UInt32
  limit : UInt32
  registered : spaces.get space = .ok memory

namespace LoadedTable

variable {spaces : Spaces} (table : LoadedTable spaces)

def segment : Segment := .descriptorTable table.space table.base table.limit

/-- The descriptor of an index, whatever the limit. -/
def entry (index : Nat) : UInt64 :=
  UInt64.ofNat (littleEndian (table.memory.window (table.base.toNat + 8 * index) 8))

theorem translate_segment {offset : UInt32}
    (hwithin : offset.toNat + 3 ≤ table.limit.toNat) (access : Access) :
    table.segment.translate offset 4 access =
      .ok (UInt32.ofNat (table.base.toNat + offset.toNat)) := by
  have hcovers : table.segment.covers offset.toNat (offset.toNat + UInt32.toNat 4 - 1) = true :=
    decide_eq_true hwithin
  have hlimit : table.segment.checkLimit offset 4 = .ok () := by
    rw [Segment.checkLimit_eq _ _ (by decide), if_pos hcovers]
  have hlinear : table.base + offset = UInt32.ofNat (table.base.toNat + offset.toNat) := by
    rw [UInt32.ofNat_add, UInt32.ofNat_toNat, UInt32.ofNat_toNat]
  calc table.segment.translate offset 4 access
      = (fun _ ↦ table.base + offset) <$> table.segment.checkLimit offset 4 := rfl
    _ = .ok (UInt32.ofNat (table.base.toNat + offset.toNat)) := by
      rw [hlimit, hlinear]
      rfl

/-- An entry is read as a whole if the limit covers its last byte. -/
theorem getQuadword_segment {offset : UInt32} {index : Nat} (hoffset : offset.toNat = 8 * index)
    (hwithin : 8 * index + 7 ≤ table.limit.toNat) :
    table.segment.getQuadword spaces offset = .ok (table.entry index) := by
  have hlimit := table.limit.toNat_lt
  have hnext : (offset + 4).toNat = 8 * index + 4 := by
    rw [UInt32.toNat_add, hoffset]
    simp only [UInt32.reduceToNat]
    omega
  have hlow : table.segment.translate offset 4 .read = _ := table.translate_segment (by omega) .read
  have hhigh : table.segment.translate (offset + 4) 4 .read = _ :=
    table.translate_segment (by omega) .read
  have hget : spaces.get table.segment.space = .ok table.memory := table.registered
  rw [hoffset] at hlow
  rw [hnext, ← Nat.add_assoc] at hhigh
  rw [Segment.getQuadword, hlow, hhigh, hget, entry, ← Memory.toNat_getQuadword,
    UInt64.ofNat_toNat]
  rfl

theorem checkAddress_segment (offset : UInt32) : table.segment.checkAddress offset =
    if offset.toNat ≤ table.limit.toNat then .ok () else .error (.exception .protection0) := by
  calc table.segment.checkAddress offset
      = table.segment.checkLimit offset 1 := rfl
    _ = if offset.toNat ≤ table.limit.toNat then .ok ()
        else .error (.exception .protection0) := by
      rw [Segment.checkLimit_eq _ _ (by decide)]
      exact if_congr decide_eq_true_iff rfl rfl

end LoadedTable

/-! ## Selectors -/

namespace Selector

theorem toNat_tableOffset (selector : UInt16) :
    (tableOffset selector).toNat = 8 * (selector.toNat / 8) := by
  have hmask := toNat_and_highMask selector 0xFFF8 3 (by decide)
  rw [tableOffset, UInt16.toNat_toUInt32, hmask, Nat.mul_comm]
  rfl

theorem isLocal_eq (selector : UInt16) : isLocal selector = selector.toNat.testBit 2 := by
  have hand : (selector &&& 4).toNat = (selector.toNat.testBit 2).toNat * 2 ^ 2 := by
    rw [UInt16.toNat_and]
    exact Nat.and_two_pow selector.toNat 2
  rw [isLocal, Bool.eq_iff_iff, bne_iff_ne, Ne, ← UInt16.toNat_inj, hand]
  cases selector.toNat.testBit 2 <;> decide

theorem isNull_eq (selector : UInt16) :
    isNull selector = decide (selector.toNat / 4 * 4 = 0) := by
  rw [isNull, Bool.eq_iff_iff, beq_iff_eq, decide_eq_true_iff, ← UInt16.toNat_inj,
    toNat_selectorBase]
  rfl

end Selector

end GuestMachine

import GuestMachine.Proofs.Segment.Limits
import Mathlib.Algebra.Ring.Nat
import Mathlib.Order.Nat

/-!
# Wide accesses byte by byte

Translation looks only at the first and the last byte of an access. That is enough: what a segment
covers has no gaps, so that a wide access is granted exactly when its offsets fit into 32 bits and
each of its bytes is granted on its own. What is asked before the limit is asked alike for every
byte, so that a wide access is refused for the reason for which its bytes are.
-/

namespace GuestMachine

namespace Segment

/-! ## Covered ranges -/

/-- What a segment covers lies between two bounds, if it covers anything. -/
theorem covers_between (segment : Segment) :
    (∀ first last, segment.covers first last = false) ∨
      ∃ lower upper, ∀ first last,
        segment.covers first last = true ↔ lower ≤ first ∧ last ≤ upper := by
  have upTo (limit first last : Nat) : last ≤ limit ↔ 0 ≤ first ∧ last ≤ limit :=
    ⟨fun hlast ↦ ⟨Nat.zero_le first, hlast⟩, And.right⟩
  cases hkind : segment.kind with
  | null | gate _ =>
    refine Or.inl fun first last ↦ ?_
    rw [covers, hkind]
  | realMode _ | virtual8086 _ _ =>
    refine Or.inr ⟨0, realModeLimit.toNat, fun first last ↦ ?_⟩
    rw [covers, hkind, decide_eq_true_eq]
    exact upTo _ first last
  | descriptorTable base limit =>
    refine Or.inr ⟨0, limit.toNat, fun first last ↦ ?_⟩
    rw [covers, hkind, decide_eq_true_eq]
    exact upTo _ first last
  | descriptor descriptor =>
    simp only [covers, hkind]
    cases descriptor.type.isExpandDown with
    | true =>
      refine Or.inr ⟨descriptor.limit.toNat + 1,
        if descriptor.defaultSize32 then UInt32.size - 1 else UInt16.size - 1, fun first last ↦ ?_⟩
      rw [if_pos rfl, decide_eq_true_eq]
      exact Iff.rfl
    | false =>
      refine Or.inr ⟨0, descriptor.limit.toNat, fun first last ↦ ?_⟩
      rw [if_neg Bool.false_ne_true, decide_eq_true_eq]
      exact upTo _ first last

variable {segment : Segment} {access : Access} {offset size : UInt32}

/-- A range is covered if and only if each place of it is. -/
theorem covers_iff_forall {first last : Nat} (hrange : first ≤ last) :
    segment.covers first last = true ↔
      ∀ place, first ≤ place → place ≤ last → segment.covers place place = true := by
  rcases segment.covers_between with hnothing | ⟨lower, upper, hbetween⟩
  · rw [hnothing]
    refine ⟨fun hcovers ↦ absurd hcovers Bool.false_ne_true, fun hplaces ↦ ?_⟩
    rw [← hnothing first first]
    exact hplaces first le_rfl hrange
  · simp only [hbetween]
    constructor
    · rintro ⟨hlower, hupper⟩ place hfirst hlast
      exact ⟨hlower.trans hfirst, hlast.trans hupper⟩
    · intro hplaces
      exact ⟨(hplaces first le_rfl hrange).1, (hplaces last hrange le_rfl).2⟩

/-! ## Bytes of an access -/

/-- The translation of one byte of an access, as an access of its own. -/
def translateByte (segment : Segment) (offset : UInt32) (access : Access) (index : Nat) :
    Except Error UInt32 :=
  segment.translate (offset + UInt32.ofNat index) 1 access

/-- Within 32 bits the offset of a byte does not wrap. -/
theorem toNat_add_ofNat {index : Nat} (hfits : offset.toNat + index < UInt32.size) :
    (offset + UInt32.ofNat index).toNat = offset.toNat + index := by
  have hindex : index < UInt32.size := (Nat.le_add_left index _).trans_lt hfits
  rw [UInt32.toNat_add, UInt32.toNat_ofNat_of_lt' hindex]
  exact Nat.mod_eq_of_lt hfits

theorem checkLimit_eq_ok_iff_covers (segment : Segment) (offset : UInt32) (hsize : 0 < size) :
    segment.checkLimit offset size = .ok () ↔
      segment.covers offset.toNat (offset.toNat + size.toNat - 1) = true := by
  rw [segment.checkLimit_eq offset hsize]
  split
  · next hcovers => exact ⟨fun _ ↦ hcovers, fun _ ↦ rfl⟩
  · next hcovers => exact ⟨nofun, fun h ↦ absurd h hcovers⟩

/-- The limit lets a wide access through if and only if it lets each byte through and none wraps. -/
theorem checkLimit_eq_ok_iff_forall (segment : Segment) (offset : UInt32) (hsize : 0 < size) :
    segment.checkLimit offset size = .ok () ↔
      offset.toNat + size.toNat - 1 < UInt32.size ∧
        ∀ index < size.toNat, segment.checkLimit (offset + UInt32.ofNat index) 1 = .ok () := by
  have hpositive : 0 < size.toNat := hsize
  have hbyte {index : Nat} (hfits : offset.toNat + index < UInt32.size) :
      segment.checkLimit (offset + UInt32.ofNat index) 1 = .ok () ↔
        segment.covers (offset.toNat + index) (offset.toNat + index) = true := by
    rw [checkLimit_eq_ok_iff_covers _ _ (by decide), toNat_add_ofNat hfits]
    rfl
  have hrange : offset.toNat ≤ offset.toNat + size.toNat - 1 := by omega
  rw [checkLimit_eq_ok_iff_covers _ _ hsize]
  constructor
  · intro hcovers
    have hlast := lt_size_of_covers hcovers
    refine ⟨hlast, fun index hindex ↦ ?_⟩
    rw [hbyte (by omega)]
    exact (covers_iff_forall hrange).mp hcovers _ (by omega) (by omega)
  · rintro ⟨hlast, hbytes⟩
    rw [covers_iff_forall hrange]
    intro place hfirst hplace
    obtain ⟨index, rfl⟩ := Nat.exists_eq_add_of_le hfirst
    exact (hbyte (by omega)).mp (hbytes index (by omega))

/-- What refuses a byte refuses the access. -/
theorem translate_of_translateByte_eq_error (hsize : 0 < size) {index : Nat}
    (hindex : index < size.toNat) {reason : Error}
    (hrefused : segment.translateByte offset access index = .error reason) :
    segment.translate offset size access = .error reason := by
  rcases segment.translate_cases access with ⟨base, -, hbounded⟩ | ⟨other, hother⟩
  · rw [translateByte, hbounded, add_of_checkLimit_eq_error_iff] at hrefused
    rw [hbounded, add_of_checkLimit_eq_error_iff]
    refine ⟨fun hwhole ↦ hrefused.1 ?_, hrefused.2⟩
    exact ((segment.checkLimit_eq_ok_iff_forall offset hsize).mp hwhole).2 index hindex
  · rw [translateByte, hother] at hrefused
    rw [hother, hrefused]

/-- The bytes of an access that is granted follow one another. -/
theorem translateByte_of_translate (hsize : 0 < size) {address : UInt32}
    (hgranted : segment.translate offset size access = .ok address) {index : Nat}
    (hindex : index < size.toNat) :
    segment.translateByte offset access index = .ok (address + UInt32.ofNat index) := by
  rcases segment.translate_cases access with ⟨base, -, hbounded⟩ | ⟨reason, hrefused⟩
  · rw [hbounded, add_of_checkLimit_eq_ok_iff] at hgranted
    obtain ⟨hwhole, rfl⟩ := hgranted
    rw [translateByte, hbounded, add_of_checkLimit_eq_ok_iff]
    refine ⟨?_, (UInt32.add_assoc _ _ _).symm⟩
    exact ((segment.checkLimit_eq_ok_iff_forall offset hsize).mp hwhole).2 index hindex
  · rw [hrefused] at hgranted
    cases hgranted

/-- Where each byte is granted, only the end of the 32-bit offsets can refuse the access. -/
theorem translate_of_translateBytes (hsize : 0 < size)
    (hbytes : ∀ index < size.toNat, offset.toNat + index < UInt32.size →
      ∃ address, segment.translateByte offset access index = .ok address) :
    (offset.toNat + size.toNat - 1 < UInt32.size →
      ∃ address, segment.translate offset size access = .ok address) ∧
    (UInt32.size ≤ offset.toNat + size.toNat - 1 →
      segment.translate offset size access = .error (.exception .protection0)) := by
  have hpositive : 0 < size.toNat := hsize
  have hwhole := segment.checkLimit_eq_ok_iff_forall offset hsize
  rcases segment.translate_cases access with ⟨base, -, hbounded⟩ | ⟨reason, hrefused⟩
  · refine ⟨fun hlast ↦ ⟨base + offset, ?_⟩, fun hlast ↦ ?_⟩
    · rw [hbounded, add_of_checkLimit_eq_ok_iff]
      refine ⟨hwhole.mpr ⟨hlast, fun index hindex ↦ ?_⟩, rfl⟩
      obtain ⟨address, hbyte⟩ := hbytes index hindex (by omega)
      rw [translateByte, hbounded, add_of_checkLimit_eq_ok_iff] at hbyte
      exact hbyte.1
    · rw [hbounded, add_of_checkLimit_eq_error_iff]
      exact ⟨fun hlimit ↦ absurd (hwhole.mp hlimit).1 (Nat.not_lt_of_le hlast), rfl⟩
  · -- The first byte does not wrap, and it would have been refused as well.
    obtain ⟨address, hfirst⟩ := hbytes 0 hpositive offset.toNat_lt_size
    rw [translateByte, hrefused] at hfirst
    cases hfirst

/-- A wide access is granted if and only if its offsets fit into 32 bits and each of its bytes is
granted, and then the bytes follow one another modulo 2^32. It is refused for the reason for which
any of its bytes is, the first of them included, and with the fault that names no selector if it
only exceeds 32 bits. -/
theorem translate_bytewise (segment : Segment) (offset : UInt32) {size : UInt32} (access : Access)
    (hsize : 0 < size) :
    ((∃ address, segment.translate offset size access = .ok address) ↔
      offset.toNat + size.toNat - 1 < 2 ^ 32 ∧
        ∀ index < size.toNat, ∃ address, segment.translateByte offset access index = .ok address) ∧
    (∀ address, segment.translate offset size access = .ok address →
      ∀ index < size.toNat, segment.translateByte offset access index =
        .ok (address + UInt32.ofNat index)) ∧
    (∀ index < size.toNat, ∀ reason, segment.translateByte offset access index = .error reason →
      segment.translate offset size access = .error reason) ∧
    (2 ^ 32 ≤ offset.toNat + size.toNat - 1 →
      (∀ index < size.toNat, offset.toNat + index < 2 ^ 32 →
        ∃ address, segment.translateByte offset access index = .ok address) →
      segment.translate offset size access = .error (.exception .protection0)) := by
  refine ⟨⟨?_, ?_⟩, ?_, ?_, ?_⟩
  · rintro ⟨address, hgranted⟩
    refine ⟨Nat.lt_of_not_le fun hexceeds ↦ ?_, fun index hindex ↦ ?_⟩
    · have hrefused := (translate_of_translateBytes hsize fun index hindex _ ↦
        ⟨_, translateByte_of_translate hsize hgranted hindex⟩).2 hexceeds
      rw [hgranted] at hrefused
      cases hrefused
    · exact ⟨_, translateByte_of_translate hsize hgranted hindex⟩
  · rintro ⟨hfits, hbytes⟩
    exact (translate_of_translateBytes hsize fun index hindex _ ↦ hbytes index hindex).1 hfits
  · intro address hgranted index hindex
    exact translateByte_of_translate hsize hgranted hindex
  · intro index hindex reason hrefused
    exact translate_of_translateByte_eq_error hsize hindex hrefused
  · intro hexceeds hbytes
    exact (translate_of_translateBytes hsize hbytes).2 hexceeds

/-- Writable data above the limit FF. Its base is 512 bytes before the end of linear addresses. -/
def dataAbove : Segment where
  space := 0
  selector := 0x10
  rpl := 0
  kind := .descriptor {
    type := .readWriteExpandDownData
    base := 0xFFFFFE00
    rawLimit := 0xFF
    limit := 0xFF
    dpl := 0
    present := true
    defaultSize32 := true
    granularity := false
    available := false
    raw := 0 }

/-- The third byte of an access is at address 0. The first bytes of another one lie below, and the
last bytes of a third one behind the end of the offsets. -/
theorem translate_bytewise_wrapping :
    (0 : UInt32) < 4 ∧
      (dataAbove.translate 0x1FE 4 .write = .ok 0xFFFFFFFE ∧
        dataAbove.translateByte 0x1FE .write 2 = .ok 0) ∧
      (dataAbove.translateByte 0xFE .write 1 = .error (.exception .protection0) ∧
        dataAbove.translate 0xFE 4 .write = .error (.exception .protection0)) ∧
      2 ^ 32 ≤ (0xFFFFFFFE : UInt32).toNat + (4 : UInt32).toNat - 1 ∧
      dataAbove.translate 0xFFFFFFFE 4 .write = .error (.exception .protection0) := by
  have hsize : (0 : UInt32) < 4 := by decide
  have hexceeds : 2 ^ 32 ≤ (0xFFFFFFFE : UInt32).toNat + (4 : UInt32).toNat - 1 := by decide
  obtain ⟨-, hfollow, -⟩ := dataAbove.translate_bytewise 0x1FE .write hsize
  obtain ⟨-, -, hrefused, -⟩ := dataAbove.translate_bytewise 0xFE .write hsize
  obtain ⟨-, -, -, hbehind⟩ := dataAbove.translate_bytewise 0xFFFFFFFE .write hsize
  refine ⟨hsize, ⟨rfl, ?_⟩, ⟨rfl, ?_⟩, hexceeds, ?_⟩
  · exact hfollow 0xFFFFFFFE rfl 2 (by decide)
  · exact hrefused 1 (by decide) _ rfl
  · apply hbehind hexceeds
    rintro (_ | _ | index) - hfits
    · exact ⟨_, rfl⟩
    · exact ⟨_, rfl⟩
    · have hoffset : (0xFFFFFFFE : UInt32).toNat = 2 ^ 32 - 2 := rfl
      omega

end Segment

end GuestMachine

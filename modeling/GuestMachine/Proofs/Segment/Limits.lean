import GuestMachine.Segment.Access

/-!
# What can refuse an access

An access to at least one byte is within the limit exactly when the segment covers its bytes, and is
refused with the fault that names no selector otherwise. On a segment with a descriptor the limit is
looked at last: a descriptor that is present and grants the access leaves nothing else to refuse it.
-/

namespace GuestMachine

namespace Segment

variable {segment : Segment}

/-! ## Limits -/

theorem lt_size_of_covers {first last : Nat} (hcovers : segment.covers first last = true) :
    last < UInt32.size := by
  have below (limit : UInt32) (hlast : last ≤ limit.toNat) : last < UInt32.size :=
    Nat.lt_of_le_of_lt hlast limit.toNat_lt_size
  unfold covers at hcovers
  cases hkind : segment.kind with
  | null => simp [hkind] at hcovers
  | gate gate => simp [hkind] at hcovers
  | realMode base => exact below _ (by simpa [hkind] using hcovers)
  | virtual8086 base isCode => exact below _ (by simpa [hkind] using hcovers)
  | descriptorTable base limit => exact below limit (by simpa [hkind] using hcovers)
  | descriptor descriptor =>
    simp only [hkind] at hcovers
    split at hcovers
    · have hupper := (of_decide_eq_true hcovers).2
      split at hupper <;> simp only [UInt32.size, UInt16.size] at hupper ⊢ <;> omega
    · exact below _ (of_decide_eq_true hcovers)

/-- No offset of a covered range runs over the end of the 32-bit offsets. -/
theorem checkLimit_eq (segment : Segment) (offset : UInt32) {size : UInt32} (hsize : 0 < size) :
    segment.checkLimit offset size =
      if segment.covers offset.toNat (offset.toNat + size.toNat - 1) then .ok ()
      else .error (.exception .protection0) := by
  have hpositive : size ≠ 0 := by
    rintro rfl
    exact absurd hsize (by decide)
  by_cases hcovers : segment.covers offset.toNat (offset.toNat + size.toNat - 1) = true
  · rw [checkLimit, if_pos (Or.inr ⟨lt_size_of_covers hcovers, hcovers⟩), if_pos hcovers]
  · rw [checkLimit, if_neg, if_neg hcovers]
    rintro (hzero | ⟨-, hwithin⟩)
    · exact hpositive hzero
    · exact hcovers hwithin

theorem checkLimit_ok_or_protection0 (segment : Segment) (offset size : UInt32) :
    segment.checkLimit offset size = .ok () ∨
      segment.checkLimit offset size = .error (.exception .protection0) := by
  dsimp only [checkLimit]
  split
  · exact Or.inl rfl
  · exact Or.inr rfl

/-- An address that only the limit may refuse. -/
theorem add_of_checkLimit_eq_ok_iff {base offset size address : UInt32} :
    (fun _ ↦ base + offset) <$> segment.checkLimit offset size = .ok address ↔
      segment.checkLimit offset size = .ok () ∧ base + offset = address := by
  rcases segment.checkLimit_ok_or_protection0 offset size with hlimit | hlimit <;> rw [hlimit]
  · exact ⟨fun h ↦ ⟨rfl, Except.ok.inj h⟩, fun h ↦ congrArg Except.ok h.2⟩
  · exact ⟨nofun, nofun⟩

theorem add_of_checkLimit_eq_error_iff {base offset size : UInt32} {reason : Error} :
    (fun _ ↦ base + offset) <$> segment.checkLimit offset size = .error reason ↔
      segment.checkLimit offset size ≠ .ok () ∧ .exception .protection0 = reason := by
  rcases segment.checkLimit_ok_or_protection0 offset size with hlimit | hlimit <;> rw [hlimit]
  · exact ⟨nofun, fun h ↦ absurd rfl h.1⟩
  · exact ⟨fun h ↦ ⟨nofun, Except.error.inj h⟩, fun h ↦ congrArg Except.error h.2⟩

/-! ## Accesses through a descriptor -/

/-- The privilege that a descriptor asks for suffices. Conforming code asks for none. -/
def Admits (segment : Segment) (descriptor : DescriptorSegment) : Prop :=
  descriptor.type.isSystem = true ∨ descriptor.type.isConforming = true ∨
    segment.rpl ≤ descriptor.dpl

variable {descriptor : DescriptorSegment}

theorem translate_of_not_present (hkind : segment.kind = .descriptor descriptor)
    (hpresent : descriptor.present = false) (offset size : UInt32) (access : Access) :
    segment.translate offset size access = .error (.exception (.notPresent segment.selector)) := by
  simp only [translate, hkind, hpresent]
  rfl

theorem translate_of_not_admits (hkind : segment.kind = .descriptor descriptor)
    (hpresent : descriptor.present = true) (hadmits : ¬ segment.Admits descriptor)
    (offset size : UInt32) (access : Access) : segment.translate offset size access =
      .error (.exception (.protectionOf segment.selector)) := by
  simp only [Admits, not_or, Bool.not_eq_true, UInt8.not_le] at hadmits
  simp only [translate, hkind, hpresent, hadmits.1, hadmits.2.1, hadmits.2.2]
  rfl

/-- The checks of presence and privilege are passed. -/
theorem translate_of_admits (hkind : segment.kind = .descriptor descriptor)
    (hpresent : descriptor.present = true) (hadmits : segment.Admits descriptor)
    (offset size : UInt32) (access : Access) : segment.translate offset size access =
      if descriptor.type.permits access then
        (fun _ ↦ descriptor.base + offset) <$> segment.checkLimit offset size
      else .error (.exception .protection0) := by
  have hprivilege : (!descriptor.type.isSystem && !descriptor.type.isConforming &&
      decide (descriptor.dpl < segment.rpl)) = false := by
    rcases hadmits with hsystem | hconforming | hlevel
    · rw [hsystem]
      rfl
    · rw [hconforming, Bool.not_true, Bool.and_false, Bool.false_and]
    · rw [decide_eq_false (UInt8.not_lt.mpr hlevel), Bool.and_false]
  simp only [translate, hkind, hpresent, hprivilege]
  cases descriptor.type.permits access with
  | false => rfl
  | true =>
    rcases checkLimit_ok_or_protection0 segment offset size with hlimit | hlimit
    · rw [hlimit]
      rfl
    · rw [hlimit]
      rfl

/-! ## What is asked before the limit -/

/-- An access is refused whatever its offset and size, or only the limit is left to refuse it. -/
theorem translate_cases (segment : Segment) (access : Access) :
    (∃ base, segment.base = .ok base ∧ ∀ offset size, segment.translate offset size access =
        (fun _ ↦ base + offset) <$> segment.checkLimit offset size) ∨
      ∃ reason, ∀ offset size, segment.translate offset size access = .error reason := by
  cases hkind : segment.kind with
  | null =>
    refine Or.inr ⟨.exception .protection0, fun offset size ↦ ?_⟩
    rw [translate, hkind]
  | gate gate =>
    refine Or.inr ⟨.exception (.protectionOf segment.selector), fun offset size ↦ ?_⟩
    rw [translate, hkind]
  | realMode base | virtual8086 base _ | descriptorTable base _ =>
    refine Or.inl ⟨base, by rw [Segment.base, hkind], fun offset size ↦ ?_⟩
    rw [translate, hkind]
    rfl
  | descriptor descriptor =>
    cases hpresent : descriptor.present with
    | false =>
      refine Or.inr ⟨.exception (.notPresent segment.selector), fun offset size ↦ ?_⟩
      exact translate_of_not_present hkind hpresent offset size access
    | true =>
      by_cases hadmits : segment.Admits descriptor
      · cases hpermits : descriptor.type.permits access with
        | false =>
          refine Or.inr ⟨.exception .protection0, fun offset size ↦ ?_⟩
          rw [translate_of_admits hkind hpresent hadmits, hpermits, if_neg Bool.false_ne_true]
        | true =>
          refine Or.inl ⟨descriptor.base, by rw [Segment.base, hkind], fun offset size ↦ ?_⟩
          rw [translate_of_admits hkind hpresent hadmits, if_pos hpermits]
      · refine Or.inr ⟨.exception (.protectionOf segment.selector), fun offset size ↦ ?_⟩
        exact translate_of_not_admits hkind hpresent hadmits offset size access

end Segment

end GuestMachine

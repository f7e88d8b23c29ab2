import GuestMachine.Segment.Load
import GuestMachine.Proofs.Segment.Translation

/-!
# Loaded segments

Loading a segment register checks type, privilege and presence once. The checks that are made again
at each access then pass, as long as the access is of a kind that the register is for: only the
limit can refuse it. A selector of any table content and under either policy leads to this.
-/

namespace GuestMachine

namespace Segment

/-- A present descriptor gives way to accesses of a kind. -/
structure Grants (segment : Segment) (descriptor : DescriptorSegment) (access : Access) : Prop where
  kind : segment.kind = .descriptor descriptor
  present : descriptor.present = true
  admits : segment.Admits descriptor
  permits : descriptor.type.permits access = true

/-- Whether an access of this kind is refused is a matter of the limit alone, and the fault is the
one of the limit. -/
def IsBoundByLimitOnly (segment : Segment) (access : Access) : Prop :=
  ∀ offset size,
    (segment.checkLimit offset size = .ok () ∧
      ∃ address, segment.translate offset size access = .ok address) ∨
    (segment.checkLimit offset size = .error (.exception .protection0) ∧
      segment.translate offset size access = .error (.exception .protection0))

theorem Grants.isBoundByLimitOnly {segment : Segment} {descriptor : DescriptorSegment}
    {access : Access} (hgrants : segment.Grants descriptor access) :
    segment.IsBoundByLimitOnly access := by
  intro offset size
  rw [translate_of_admits hgrants.kind hgrants.present hgrants.admits, if_pos hgrants.permits]
  rcases checkLimit_ok_or_protection0 segment offset size with hlimit | hlimit
  · rw [hlimit]
    exact Or.inl ⟨rfl, descriptor.base + offset, rfl⟩
  · rw [hlimit]
    exact Or.inr ⟨rfl, rfl⟩

end Segment

namespace DescriptorTables

open Segment

variable {tables : DescriptorTables} {spaces : Spaces} {policy : DescriptorPolicy}
  {selector : UInt16} {cpl : UInt8} {segment : Segment}

theorem fetchSegment_eq_ok (hfetch : tables.fetchSegment spaces policy selector = .ok segment) :
    ∃ type raw, segment = ofKind tables.globalTable.space selector (.ofRaw type raw) := by
  rw [fetchSegment] at hfetch
  cases hraw : tables.fetch spaces selector with
  | error reason =>
    rw [hraw] at hfetch
    cases hfetch
  | ok raw =>
    rw [hraw] at hfetch
    have hdecoded := ofDescriptor_eq tables.globalTable.space selector raw policy
    have hsegment : ofDescriptor tables.globalTable.space selector raw policy = .ok segment :=
      hfetch
    split at hdecoded
    · rw [hdecoded] at hsegment
      cases hsegment
    · obtain ⟨type, -, hok⟩ := hdecoded
      rw [hok] at hsegment
      exact ⟨type, raw, (Except.ok.inj hsegment).symm⟩

theorem loadData_of_descriptor {d : DescriptorSegment} (hnull : Selector.isNull selector = false)
    (hfetch : tables.fetchSegment spaces policy selector = .ok segment)
    (hkind : segment.kind = .descriptor d) : tables.loadData spaces policy selector cpl =
      if d.type.isSystem || (d.type.isCode && !d.type.isReadable) then blame selector
      else if !d.type.isConforming && d.dpl < max cpl segment.rpl then blame selector
      else if !d.present then .error (.exception (.notPresent selector))
      else .ok segment := by
  rw [loadData, hnull, hfetch]
  simp only [bind, Except.bind, type?, dpl, requestedLevel, isNull, isPresent, hkind]
  rfl

theorem loadStack_of_descriptor {d : DescriptorSegment} (hnull : Selector.isNull selector = false)
    (hlevel : selectorRpl selector = cpl)
    (hfetch : tables.fetchSegment spaces policy selector = .ok segment)
    (hkind : segment.kind = .descriptor d) : tables.loadStack spaces policy selector cpl =
      if !(d.type.isData && d.type.isWritable) then blame selector
      else if d.dpl ≠ cpl then blame selector
      else if !d.present then .error (.exception (.stackFault selector))
      else .ok segment := by
  rw [loadStack, hnull, hfetch, if_neg (not_not_intro hlevel)]
  simp only [bind, Except.bind, type?, dpl, isPresent, hkind]
  rfl

theorem loadCode_of_descriptor {d : DescriptorSegment} (hnull : Selector.isNull selector = false)
    (hfetch : tables.fetchSegment spaces policy selector = .ok segment)
    (hkind : segment.kind = .descriptor d) : tables.loadCode spaces policy selector cpl =
      if !d.type.isCode then blame selector
      else if (if d.type.isConforming then cpl < d.dpl else d.dpl ≠ cpl ∨ cpl < segment.rpl) then
        blame selector
      else if !d.present then .error (.exception (.notPresent selector))
      else segment.withLevel cpl := by
  rw [loadCode, hnull, hfetch]
  simp only [bind, Except.bind, type?, dpl, requestedLevel, isNull, isPresent, hkind]
  rfl

theorem load_of_fetch_eq_error (register : SegmentRegister) {reason : Error}
    (hnull : Selector.isNull selector = false)
    (hfetch : tables.fetchSegment spaces policy selector = .error reason) :
    ∃ other, tables.load spaces policy register selector cpl = .error other := by
  cases register with
  | data =>
    rw [load, loadData, hnull, hfetch]
    exact ⟨reason, rfl⟩
  | stack =>
    rw [load, loadStack, hnull, hfetch]
    by_cases hlevel : selectorRpl selector = cpl
    · rw [if_neg (not_not_intro hlevel)]
      exact ⟨reason, rfl⟩
    · rw [if_pos hlevel]
      exact ⟨_, rfl⟩
  | code =>
    rw [load, loadCode, hnull, hfetch]
    exact ⟨reason, rfl⟩

/-- No register takes a gate. -/
theorem load_of_gate (register : SegmentRegister) {gate : GateSegment}
    (hnull : Selector.isNull selector = false)
    (hfetch : tables.fetchSegment spaces policy selector = .ok segment)
    (hkind : segment.kind = .gate gate) (hgate : gate.type.isGate = true) :
    tables.load spaces policy register selector cpl = blame selector := by
  have hsystem : gate.type.isSystem = true := DescriptorType.isSystem_of_isGate hgate
  have hbit : gate.type.code.testBit 4 = false := by
    rwa [DescriptorType.isSystem, Bool.not_eq_true'] at hsystem
  cases register with
  | data =>
    rw [load, loadData, hnull, hfetch]
    simp only [bind, Except.bind, type?, hkind, DescriptorType.isSystem, hbit]
    rfl
  | stack =>
    have hdata : gate.type.isData = false := by rw [DescriptorType.isData, hbit, Bool.false_and]
    rw [load, loadStack, hnull, hfetch]
    by_cases hlevel : selectorRpl selector = cpl
    · rw [if_neg (not_not_intro hlevel)]
      simp only [bind, Except.bind, type?, hkind, hdata]
      rfl
    · rw [if_pos hlevel]
      rfl
  | code =>
    have hcode : gate.type.isCode = false := by rw [DescriptorType.isCode, hbit, Bool.false_and]
    rw [load, loadCode, hnull, hfetch]
    simp only [bind, Except.bind, type?, hkind, hcode]
    rfl

/-- A load that succeeds has fetched a segment with a descriptor. -/
theorem exists_descriptor_of_load (register : SegmentRegister)
    (hnull : Selector.isNull selector = false)
    (hload : tables.load spaces policy register selector cpl = .ok segment) :
    ∃ d, tables.fetchSegment spaces policy selector =
      .ok (ofKind tables.globalTable.space selector (.descriptor d)) := by
  cases hfetch : tables.fetchSegment spaces policy selector with
  | error reason =>
    obtain ⟨other, hrefused⟩ := load_of_fetch_eq_error register hnull hfetch
    rw [hrefused] at hload
    cases hload
  | ok fetched =>
    obtain ⟨type, raw, rfl⟩ := fetchSegment_eq_ok hfetch
    cases hgate : type.isGate with
    | false =>
      rw [SegmentKind.ofRaw, hgate]
      exact ⟨_, rfl⟩
    | true =>
      have hkind : (ofKind tables.globalTable.space selector (.ofRaw type raw)).kind =
          .gate (.ofRaw type raw) := if_pos hgate
      rw [load_of_gate register hnull hfetch hkind hgate] at hload
      cases hload

/-! ## What a load has checked -/

/-- A check that did not end in an error was passed. -/
theorem passed_of_eq_ok {α : Type} {refused : Prop} [Decidable refused] {reason : Error}
    {rest : Except Error α} {value : α}
    (hcheck : (if refused then .error reason else rest) = .ok value) :
    ¬ refused ∧ rest = .ok value := by
  by_cases hrefused : refused
  · rw [if_pos hrefused] at hcheck
    cases hcheck
  · rw [if_neg hrefused] at hcheck
    exact ⟨hrefused, hcheck⟩

theorem level_le_of_not_lt_max {level other least : UInt8} (hleast : ¬ least < max other level) :
    level ≤ least := by
  have hmax : level ≤ max other level := by
    show level ≤ if other ≤ level then level else other
    split
    · exact UInt8.le_refl level
    · exact UInt8.le_of_lt (UInt8.not_le.mp ‹_›)
  exact UInt8.le_trans hmax (UInt8.not_lt.mp hleast)

theorem loadData_grants (hload : tables.loadData spaces policy selector cpl = .ok segment)
    (hsegment : segment ≠ .null) : ∃ d, segment.Grants d .read := by
  cases hnull : Selector.isNull selector with
  | true =>
    rw [loadData, hnull] at hload
    exact absurd (Except.ok.inj hload).symm hsegment
  | false =>
    obtain ⟨d, hfetch⟩ := exists_descriptor_of_load .data hnull hload
    rw [loadData_of_descriptor hnull hfetch rfl] at hload
    obtain ⟨htype, hload⟩ := passed_of_eq_ok hload
    obtain ⟨hlevel, hload⟩ := passed_of_eq_ok hload
    obtain ⟨hpresent, hload⟩ := passed_of_eq_ok hload
    obtain rfl := Except.ok.inj hload
    refine ⟨d, rfl, by simpa using hpresent, ?_, ?_⟩
    · cases hconforming : d.type.isConforming with
      | true => exact Or.inr (Or.inl hconforming)
      | false =>
        rw [hconforming, Bool.not_false, Bool.true_and, decide_eq_true_eq] at hlevel
        exact Or.inr (Or.inr (level_le_of_not_lt_max hlevel))
    · cases hreadable : d.type.isReadable with
      | true => exact hreadable
      | false =>
        have hcode : d.type.isCode = true := by
          rw [DescriptorType.isReadable, Bool.or_eq_false_iff, Bool.not_eq_false'] at hreadable
          exact hreadable.1
        rw [hcode, hreadable, Bool.not_false, Bool.and_true, Bool.or_true] at htype
        exact absurd rfl htype

theorem loadStack_grants (hload : tables.loadStack spaces policy selector cpl = .ok segment) :
    ∃ d, segment.Grants d .read ∧ segment.Grants d .write := by
  cases hnull : Selector.isNull selector with
  | true =>
    rw [loadStack, hnull] at hload
    cases hload
  | false =>
    obtain ⟨d, hfetch⟩ := exists_descriptor_of_load .stack hnull hload
    have hselector : selectorRpl selector = cpl := by
      by_contra hother
      rw [loadStack, hnull, if_pos hother] at hload
      cases hload
    rw [loadStack_of_descriptor hnull hselector hfetch rfl] at hload
    obtain ⟨htype, hload⟩ := passed_of_eq_ok hload
    obtain ⟨hlevel, hload⟩ := passed_of_eq_ok hload
    obtain ⟨hpresent, hload⟩ := passed_of_eq_ok hload
    obtain rfl := Except.ok.inj hload
    have htype : d.type.isData = true ∧ d.type.isWritable = true := by simpa using htype
    have hadmits : Admits (ofKind tables.globalTable.space selector (.descriptor d)) d :=
      Or.inr (Or.inr (UInt8.le_of_eq (hselector.trans (not_not.mp hlevel).symm)))
    have hpresent : d.present = true := by simpa using hpresent
    exact ⟨d, ⟨rfl, hpresent, hadmits, DescriptorType.isReadable_of_isData htype.1⟩,
      ⟨rfl, hpresent, hadmits, htype.2⟩⟩

theorem loadCode_grants (hcpl : cpl ≤ 3)
    (hload : tables.loadCode spaces policy selector cpl = .ok segment) :
    (∃ d, segment.Grants d .execute) ∧ segment.rpl = cpl ∧ selectorRpl segment.selector = cpl := by
  cases hnull : Selector.isNull selector with
  | true =>
    rw [loadCode, hnull] at hload
    cases hload
  | false =>
    obtain ⟨d, hfetch⟩ := exists_descriptor_of_load .code hnull hload
    rw [loadCode_of_descriptor hnull hfetch rfl] at hload
    obtain ⟨htype, hload⟩ := passed_of_eq_ok hload
    obtain ⟨hlevel, hload⟩ := passed_of_eq_ok hload
    obtain ⟨hpresent, hload⟩ := passed_of_eq_ok hload
    have hsome : (ofKind tables.globalTable.space selector (.descriptor d)).isNull = false := rfl
    obtain ⟨changed, hchanged, -, hkind, hrpl, hselector⟩ := withLevel_eq_ok hsome cpl
    obtain rfl : changed = segment := Except.ok.inj (hchanged.symm.trans hload)
    -- The level of the selector keeps two bits only.
    have hlow : cpl.toNat % 4 = cpl.toNat :=
      Nat.mod_eq_of_lt (Nat.lt_succ_of_le (UInt8.le_iff_toNat_le.mp hcpl))
    have hcarried : changed.rpl = cpl := UInt8.toNat_inj.mp (hrpl.trans hlow)
    have hcode : d.type.isCode = true := by simpa using htype
    refine ⟨⟨d, hkind, by simpa using hpresent, ?_, hcode⟩, hcarried, ?_⟩
    · cases hconforming : d.type.isConforming with
      | true => exact Or.inr (Or.inl hconforming)
      | false =>
        rw [hconforming, if_neg Bool.false_ne_true, not_or, not_not] at hlevel
        exact Or.inr (Or.inr (UInt8.le_of_eq (hcarried.trans hlevel.1.symm)))
    · apply UInt8.toNat_inj.mp
      rw [toNat_selectorRpl, hselector]
      omega

/-- A segment that a register was loaded with is never refused for its presence, its privilege or
its type by the accesses that the register is for. -/
theorem load_isBoundByLimitOnly (tables : DescriptorTables) (spaces : Spaces)
    (policy : DescriptorPolicy) (selector : UInt16) {cpl : UInt8} (hcpl : cpl ≤ 3) :
    (∀ segment, tables.load spaces policy .data selector cpl = .ok segment → segment ≠ .null →
      segment.IsBoundByLimitOnly .read) ∧
    (∀ segment, tables.load spaces policy .stack selector cpl = .ok segment →
      segment.IsBoundByLimitOnly .read ∧ segment.IsBoundByLimitOnly .write) ∧
    (∀ segment, tables.load spaces policy .code selector cpl = .ok segment →
      segment.IsBoundByLimitOnly .execute ∧ segment.rpl = cpl ∧
        selectorRpl segment.selector = cpl) := by
  refine ⟨fun segment hload hsegment ↦ ?_, fun segment hload ↦ ?_, fun segment hload ↦ ?_⟩
  · obtain ⟨d, hread⟩ := loadData_grants hload hsegment
    exact hread.isBoundByLimitOnly
  · obtain ⟨d, hread, hwrite⟩ := loadStack_grants hload
    exact ⟨hread.isBoundByLimitOnly, hwrite.isBoundByLimitOnly⟩
  · obtain ⟨⟨d, hexecute⟩, hlevel⟩ := loadCode_grants hcpl hload
    exact ⟨hexecute.isBoundByLimitOnly, hlevel⟩

/-- A global table with conforming code of level 0 and writable data of level 3, behind the entry
that is never used. -/
def ringSpaces : Spaces :=
  ⟨#[.rom #[0, 0, 0, 0, 0, 0, 0, 0, 0xFF, 0xFF, 0, 0, 0, 0x9E, 0xCF, 0,
    0xFF, 0xFF, 0, 0, 0, 0xF2, 0xCF, 0]]⟩

def ringTables : DescriptorTables := { globalTable := .descriptorTable 0 0 23 }

theorem load_isBoundByLimitOnly_ring3 : (3 : UInt8) ≤ 3 ∧
    (∃ segment, ringTables.load ringSpaces .fatal .data 0x13 3 = .ok segment ∧ segment ≠ .null ∧
      segment.IsBoundByLimitOnly .read) ∧
    (∃ segment, ringTables.load ringSpaces .fatal .stack 0x13 3 = .ok segment ∧
      segment.IsBoundByLimitOnly .read ∧ segment.IsBoundByLimitOnly .write) ∧
    (∃ segment, ringTables.load ringSpaces .fatal .code 0x08 3 = .ok segment ∧
      segment.IsBoundByLimitOnly .execute ∧ segment.rpl = 3 ∧ segment.selector = 0x0B) := by
  have hlevel : (3 : UInt8) ≤ 3 := by decide
  have hbound (selector : UInt16) :=
    load_isBoundByLimitOnly ringTables ringSpaces .fatal selector hlevel
  refine ⟨hlevel, ⟨_, rfl, ?_, ?_⟩, ⟨_, rfl, ?_⟩, ⟨_, rfl, ?_, ?_, ?_⟩⟩
  · decide
  · exact (hbound 0x13).1 _ rfl (by decide)
  · exact (hbound 0x13).2.1 _ rfl
  · exact ((hbound 0x08).2.2 _ rfl).1
  · decide
  · decide

end DescriptorTables

end GuestMachine

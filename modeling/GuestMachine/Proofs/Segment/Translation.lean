import GuestMachine.Proofs.Segment.Layout
import GuestMachine.Proofs.Segment.Limits

/-!
# From a descriptor to linear addresses

Two tables of rules say on the bits of a descriptor what it is decoded to and what an access through
it comes to. In each of them the first rule that applies decides. An access that no rule refuses
reaches the base plus the offset, modulo 2^32.
-/

namespace GuestMachine

namespace Descriptor

/-! ## Rules -/

/-- A condition, and the error that it leads to. -/
abbrev Rule := Bool × Error

/-- The error of the first rule that applies. -/
def firstMatch (rules : List Rule) : Option Error := (rules.find? Prod.fst).map Prod.snd

theorem firstMatch_cons (applies : Bool) (reason : Error) (rules : List Rule) :
    firstMatch ((applies, reason) :: rules) =
      if applies then some reason else firstMatch rules := by
  cases applies <;> rfl

/-- A type code that some policies decode, under a policy that does not. -/
def unimplementedRules (code : Nat) (policy : DescriptorPolicy) : List Rule :=
  DescriptorType.unimplemented.map fun (other, type) ↦
    (decide (code = other ∧ policy = .fatal), .internal (.unimplementedSegmentType type))

/-- What refuses a segment. -/
def decodingRules (raw : UInt64) (policy : DescriptorPolicy) : List Rule :=
  (decide (bits raw 40 44 ∈ [0x00, 0x08, 0x0A, 0x0D]), .exception (.generalProtection 0)) ::
    unimplementedRules (bits raw 40 44) policy

/-- Code may be unreadable and is never writable, data may be read-only, and only code is
executed. -/
def forbids (raw : UInt64) : Access → Bool
  | .read => decide (0x18 ≤ bits raw 40 44) && !raw.toNat.testBit 41
  | .write => decide (0x18 ≤ bits raw 40 44) ||
      (decide (0x10 ≤ bits raw 40 44) && decide (bits raw 40 44 < 0x18) && !raw.toNat.testBit 41)
  | .execute => decide (bits raw 40 44 < 0x18)

/-- The limit in bytes. -/
def byteLimit (raw : UInt64) : Nat :=
  let stored := bits raw 0 15 + 2 ^ 16 * bits raw 48 51
  if raw.toNat.testBit 55 then 4096 * stored + 4095 else stored

/-- Expand-down data lies above its limit, other segments up to it. -/
def reaches (raw : UInt64) (offset size : Nat) : Bool :=
  if 0x14 ≤ bits raw 40 44 ∧ bits raw 40 44 ≤ 0x17 then
    decide (byteLimit raw < offset ∧
      offset + size - 1 ≤ if raw.toNat.testBit 54 then 2 ^ 32 - 1 else 65535)
  else
    decide (offset + size - 1 ≤ byteLimit raw)

/-- What refuses an access, with a selector and a requested level that need not come from it. -/
def accessRules (raw : UInt64) (selector level offset size : Nat) (access : Access) : List Rule :=
  let blamed := UInt32.ofNat (selector / 4 * 4)
  [(decide (bits raw 40 44 ∈ [0x04, 0x05, 0x06, 0x07, 0x0C, 0x0E, 0x0F]),
      .exception (.generalProtection blamed)),
    (!raw.toNat.testBit 47, .exception (.coded .segmentNotPresent blamed)),
    (decide (0x10 ≤ bits raw 40 44 ∧ ¬ 0x1C ≤ bits raw 40 44 ∧ bits raw 45 46 < level),
      .exception (.generalProtection blamed)),
    (forbids raw access, .exception (.generalProtection 0)),
    (!reaches raw offset size, .exception (.generalProtection 0))]

def linear (raw : UInt64) (offset : Nat) : UInt32 :=
  UInt32.ofNat (bits raw 16 39 + 2 ^ 24 * bits raw 56 63 + offset)

/-- The linear address of an access, or why it is refused. -/
def translation (raw : UInt64) (selector level offset size : Nat) (access : Access) :
    Except Error UInt32 :=
  match firstMatch (accessRules raw selector level offset size access) with
  | some reason => .error reason
  | none => .ok (linear raw offset)

/-! ## Decoding -/

theorem firstMatch_unimplementedRules (type : DescriptorType) (policy : DescriptorPolicy) :
    firstMatch (unimplementedRules type.code policy) =
      if type.isUnimplemented ∧ policy = .fatal then
        some (.internal (.unimplementedSegmentType type))
      else none := by
  cases policy <;> cases type <;> rfl

end Descriptor

open Descriptor

/-- The kind of segment that a descriptor of the given type describes. -/
def SegmentKind.ofRaw (type : DescriptorType) (raw : UInt64) : SegmentKind :=
  if type.isGate then .gate (.ofRaw type raw) else .descriptor (.ofRaw type raw)

namespace Segment

theorem ofDescriptor_eq (space : SpaceId) (selector : UInt16) (raw : UInt64)
    (policy : DescriptorPolicy) :
    match firstMatch (decodingRules raw policy) with
    | some reason => ofDescriptor space selector raw policy = .error reason
    | none => ∃ type, type.code = bits raw 40 44 ∧
        ofDescriptor space selector raw policy = .ok (ofKind space selector (.ofRaw type raw)) := by
  have hbound : bits raw 40 44 < 2 ^ 5 := bits_lt raw 40 44
  rw [decodingRules, firstMatch_cons, ofDescriptor, typeCode_eq_bits]
  cases htype : DescriptorType.ofCode? (bits raw 40 44) with
  | none =>
    rw [decide_eq_true ((DescriptorType.ofCode?_eq_none_iff hbound).mp htype)]
    rfl
  | some type =>
    have hcode := DescriptorType.code_eq_of_ofCode? htype
    have hmeant : bits raw 40 44 ∉ [0x00, 0x08, 0x0A, 0x0D] := by
      rw [← DescriptorType.ofCode?_eq_none_iff hbound, htype]
      exact Option.some_ne_none type
    rw [decide_eq_false hmeant, if_neg Bool.false_ne_true, ← hcode, firstMatch_unimplementedRules]
    by_cases hrefused : type.isUnimplemented ∧ policy = .fatal
    · simp only [if_pos hrefused]
    · simp only [if_neg hrefused]
      refine ⟨type, rfl, ?_⟩
      unfold SegmentKind.ofRaw
      split <;> rfl

/-! ## Access -/

section

variable {segment : Segment} {type : DescriptorType} {raw : UInt64}

theorem permits_ofRaw (hcode : type.code = bits raw 40 44) (access : Access) :
    type.permits access = !forbids raw access := by
  cases access with
  | read => rw [DescriptorType.permits, type.isReadable_eq, hcode, testBit_typeCode, forbids]
  | write => rw [DescriptorType.permits, type.isWritable_eq, hcode, testBit_typeCode, forbids]
  | execute =>
    rw [DescriptorType.permits, type.isCode_eq, hcode, forbids, ← decide_not]
    exact decide_eq_decide.mpr Nat.not_lt.symm

theorem covers_ofRaw (hkind : segment.kind = .descriptor (.ofRaw type raw))
    (hcode : type.code = bits raw 40 44) (offset size : Nat) :
    segment.covers offset (offset + size - 1) = reaches raw offset size := by
  have hlimit : (DescriptorSegment.ofRaw type raw).limit.toNat = byteLimit raw :=
    SegmentFields.toNat_limit raw
  have hsize32 : (DescriptorSegment.ofRaw type raw).defaultSize32 = raw.toNat.testBit 54 :=
    flag_eq_testBit raw 54
  have hdown : (DescriptorSegment.ofRaw type raw).type.isExpandDown =
      decide (0x14 ≤ bits raw 40 44 ∧ bits raw 40 44 ≤ 0x17) := by
    rw [← hcode]
    exact type.isExpandDown_eq
  simp only [covers, hkind, hdown, hlimit, hsize32, decide_eq_true_eq]
  rfl

theorem admits_ofRaw (hcode : type.code = bits raw 40 44) {level : Nat}
    (hlevel : segment.rpl.toNat = level) : segment.Admits (.ofRaw type raw) ↔
      ¬ (0x10 ≤ bits raw 40 44 ∧ ¬ 0x1C ≤ bits raw 40 44 ∧ bits raw 45 46 < level) := by
  have hdpl : (DescriptorSegment.ofRaw type raw).dpl.toNat = bits raw 45 46 :=
    SegmentFields.toNat_dpl raw
  have htype : (DescriptorSegment.ofRaw type raw).type = type := rfl
  rw [Admits, htype, type.isSystem_eq, type.isConforming_eq, hcode, decide_eq_true_eq,
    decide_eq_true_eq, UInt8.le_iff_toNat_le, hdpl, hlevel]
  omega

theorem base_add_ofRaw (offset : UInt32) :
    (DescriptorSegment.ofRaw type raw).base + offset = linear raw offset.toNat := by
  apply UInt32.toNat_inj.mp
  have hbase : (DescriptorSegment.ofRaw type raw).base.toNat =
      bits raw 16 39 + 2 ^ 24 * bits raw 56 63 := SegmentFields.toNat_base raw
  rw [UInt32.toNat_add, hbase, linear, UInt32.toNat_ofNat']

/-- The checks of an access are the rules, in their order. -/
theorem translate_ofRaw (hkind : segment.kind = .ofRaw type raw)
    (hcode : type.code = bits raw 40 44) {selector level : Nat}
    (hselector : segment.selector.toNat / 4 * 4 = selector / 4 * 4)
    (hlevel : segment.rpl.toNat = level) (offset : UInt32) {size : UInt32} (hsize : 0 < size)
    (access : Access) : segment.translate offset size access =
      translation raw selector level offset.toNat size.toNat access := by
  have hblamed : (selectorBase segment.selector).toUInt32 = UInt32.ofNat (selector / 4 * 4) := by
    apply UInt32.toNat_inj.mp
    have hlt := segment.selector.toNat_lt
    rw [UInt16.toNat_toUInt32, toNat_selectorBase, UInt32.toNat_ofNat', ← hselector]
    omega
  simp only [translation, accessRules, firstMatch_cons]
  rw [← hcode, ← type.isGate_eq, hcode]
  cases hgate : type.isGate with
  | true =>
    rw [SegmentKind.ofRaw, if_pos hgate] at hkind
    simp only [translate, hkind, Fault.protectionOf, hblamed, if_true]
  | false =>
    rw [SegmentKind.ofRaw, hgate, if_neg Bool.false_ne_true] at hkind
    have hflag : (DescriptorSegment.ofRaw type raw).present = raw.toNat.testBit 47 :=
      flag_eq_testBit raw 47
    cases hpresent : raw.toNat.testBit 47 with
    | false =>
      rw [translate_of_not_present hkind (hflag.trans hpresent), Fault.notPresent, hblamed]
      rfl
    | true =>
      by_cases hadmits : segment.Admits (.ofRaw type raw)
      · rw [translate_of_admits hkind (hflag.trans hpresent) hadmits,
          decide_eq_false ((admits_ofRaw hcode hlevel).mp hadmits), checkLimit_eq _ _ hsize,
          covers_ofRaw hkind hcode, base_add_ofRaw]
        have hpermits : (DescriptorSegment.ofRaw type raw).type.permits access =
          !forbids raw access := permits_ofRaw hcode access
        rw [hpermits]
        cases forbids raw access <;> cases reaches raw offset.toNat size.toNat <;> rfl
      · rw [translate_of_not_admits hkind (hflag.trans hpresent) hadmits, Fault.protectionOf,
          hblamed, decide_eq_true (not_not.mp (mt (admits_ofRaw hcode hlevel).mpr hadmits))]
        rfl

end

/-- Decoding a descriptor and then translating an access gives what the rules say, with the level of
the selector or with one that is set later, which also takes its place in the selector. -/
theorem translate_ofDescriptor (space : SpaceId) (selector : UInt16) (raw : UInt64)
    (policy : DescriptorPolicy) :
    match firstMatch (decodingRules raw policy) with
    | some reason => ofDescriptor space selector raw policy = .error reason
    | none => ∃ segment, ofDescriptor space selector raw policy = .ok segment ∧
        ∀ (offset size : UInt32) (access : Access), 0 < size →
          segment.translate offset size access = translation raw selector.toNat
            (selector.toNat % 4) offset.toNat size.toNat access ∧
          ∀ level, ∃ changed, segment.withLevel level = .ok changed ∧
            changed.selector.toNat = selector.toNat / 4 * 4 + level.toNat % 4 ∧
            changed.translate offset size access = translation raw selector.toNat
              (level.toNat % 4) offset.toNat size.toNat access := by
  have hdecoded := ofDescriptor_eq space selector raw policy
  cases hmatch : firstMatch (decodingRules raw policy) with
  | some reason =>
    rw [hmatch] at hdecoded
    exact hdecoded
  | none =>
    rw [hmatch] at hdecoded
    obtain ⟨type, hcode, hsegment⟩ := hdecoded
    refine ⟨_, hsegment, fun offset size access hsize ↦ ⟨?_, fun level ↦ ?_⟩⟩
    · exact translate_ofRaw rfl hcode rfl (toNat_selectorRpl selector) offset hsize access
    · have hnull : (ofKind space selector (.ofRaw type raw)).isNull = false := by
        rw [ofKind, SegmentKind.ofRaw]
        split <;> rfl
      obtain ⟨changed, hchanged, -, hkind, hrpl, hselector⟩ := withLevel_eq_ok hnull level
      refine ⟨changed, hchanged, hselector, ?_⟩
      have hbase : changed.selector.toNat / 4 * 4 = selector.toNat / 4 * 4 := by
        have hsame : (ofKind space selector (.ofRaw type raw)).selector = selector := rfl
        rw [hselector, hsame]
        omega
      exact translate_ofRaw hkind hcode hbase hrpl offset hsize access

/-- Writable expand-down data of the highest level with limit 0xFFF covers 0x1000 to 0xFFFF. At
level 3 it is refused. -/
theorem translate_ofDescriptor_expandDown : ∃ segment,
    ofDescriptor 0 0x10 0x0000_9600_0000_0FFF .fatal = .ok segment ∧
    segment.translate 0xFFFE 2 .write = .ok 0xFFFE ∧
    segment.translate 0x0FFF 2 .write = .error (.exception .protection0) ∧
    ∃ changed, segment.withLevel 3 = .ok changed ∧ changed.selector.toNat = 0x13 ∧
      changed.translate 0xFFFE 2 .write = .error (.exception (.protectionOf 0x13)) := by
  obtain ⟨segment, hsegment, haccess⟩ :=
    translate_ofDescriptor 0 0x10 0x0000_9600_0000_0FFF .fatal
  obtain ⟨hwithin, hlevel⟩ := haccess 0xFFFE 2 .write (by decide)
  obtain ⟨changed, hchanged, hselector, hrefused⟩ := hlevel 3
  obtain ⟨houtside, -⟩ := haccess 0x0FFF 2 .write (by decide)
  exact ⟨segment, hsegment, hwithin, houtside, changed, hchanged, hselector, hrefused⟩

end Segment

end GuestMachine

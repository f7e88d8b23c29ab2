import GuestMachine.Proofs.Saved.Value
import GuestMachine.Saved.Segment

/-!
# Saving and restoring a segment

A segment is read back from what it is saved as, whatever its fields hold: nothing is derived from
them or checked against the descriptor. What has been read can be saved and read again, since the
number of a space that was read has the width of one.
-/

namespace GuestMachine

open Saved

theorem DescriptorType.readsBack (type : DescriptorType) : ReadsBack ofSaved? toSaved type := by
  cases type <;> rfl

/-! ## Kinds -/

theorem DescriptorSegment.readsBack (segment : DescriptorSegment) :
    ReadsBack ofSaved? toSaved segment := by
  obtain ⟨fields, hfields, hread⟩ := exists_fields?_record
    ["descriptor_type", "base", "raw_limit", "limit", "dpl", "present", "default_size_32",
      "granularity", "available", "descriptor"]
    [("descriptor_type", segment.type.toSaved), ("base", .nat segment.base.toNat),
      ("raw_limit", .nat segment.rawLimit.toNat), ("limit", .nat segment.limit.toNat),
      ("dpl", .nat segment.dpl.toNat), ("present", .bool segment.present),
      ("default_size_32", .bool segment.defaultSize32),
      ("granularity", .bool segment.granularity), ("available", .bool segment.available),
      ("descriptor", .nat segment.raw.toNat)] (by simp)
  have htype : fields.read "descriptor_type" DescriptorType.ofSaved? = some segment.type :=
    Fields.read_of_eq_some (hread _ _ (by simp)) segment.type.readsBack
  have hbase : fields.read "base" readUInt32 = some segment.base :=
    Fields.read_of_eq_some (hread _ _ (by simp)) (readsBack_uint32 segment.base)
  have hrawLimit : fields.read "raw_limit" readUInt32 = some segment.rawLimit :=
    Fields.read_of_eq_some (hread _ _ (by simp)) (readsBack_uint32 segment.rawLimit)
  have hlimit : fields.read "limit" readUInt32 = some segment.limit :=
    Fields.read_of_eq_some (hread _ _ (by simp)) (readsBack_uint32 segment.limit)
  have hdpl : fields.read "dpl" readUInt8 = some segment.dpl :=
    Fields.read_of_eq_some (hread _ _ (by simp)) (readsBack_uint8 segment.dpl)
  have hpresent : fields.read "present" readBool = some segment.present :=
    Fields.read_of_eq_some (hread _ _ (by simp)) (readsBack_bool segment.present)
  have hdefault : fields.read "default_size_32" readBool = some segment.defaultSize32 :=
    Fields.read_of_eq_some (hread _ _ (by simp)) (readsBack_bool segment.defaultSize32)
  have hgranularity : fields.read "granularity" readBool = some segment.granularity :=
    Fields.read_of_eq_some (hread _ _ (by simp)) (readsBack_bool segment.granularity)
  have havailable : fields.read "available" readBool = some segment.available :=
    Fields.read_of_eq_some (hread _ _ (by simp)) (readsBack_bool segment.available)
  have hraw : fields.read "descriptor" readUInt64 = some segment.raw :=
    Fields.read_of_eq_some (hread _ _ (by simp)) (readsBack_uint64 segment.raw)
  simp only [ReadsBack, ofSaved?, toSaved, hfields, Option.bind_eq_bind, Option.bind_some, htype,
    hbase, hrawLimit, hlimit, hdpl, hpresent, hdefault, hgranularity, havailable, hraw]
  rfl

theorem GateSegment.readsBack (gate : GateSegment) : ReadsBack ofSaved? toSaved gate := by
  obtain ⟨fields, hfields, hread⟩ := exists_fields?_record
    ["descriptor_type", "target_selector", "target_offset", "parameter_count", "dpl", "present",
      "descriptor"]
    [("descriptor_type", gate.type.toSaved),
      ("target_selector", .nat gate.targetSelector.toNat),
      ("target_offset", .nat gate.targetOffset.toNat),
      ("parameter_count", .nat gate.parameterCount.toNat), ("dpl", .nat gate.dpl.toNat),
      ("present", .bool gate.present), ("descriptor", .nat gate.raw.toNat)] (by simp)
  have htype : fields.read "descriptor_type" DescriptorType.ofSaved? = some gate.type :=
    Fields.read_of_eq_some (hread _ _ (by simp)) gate.type.readsBack
  have hselector : fields.read "target_selector" readUInt16 = some gate.targetSelector :=
    Fields.read_of_eq_some (hread _ _ (by simp)) (readsBack_uint16 gate.targetSelector)
  have hoffset : fields.read "target_offset" readUInt32 = some gate.targetOffset :=
    Fields.read_of_eq_some (hread _ _ (by simp)) (readsBack_uint32 gate.targetOffset)
  have hcount : fields.read "parameter_count" readUInt8 = some gate.parameterCount :=
    Fields.read_of_eq_some (hread _ _ (by simp)) (readsBack_uint8 gate.parameterCount)
  have hdpl : fields.read "dpl" readUInt8 = some gate.dpl :=
    Fields.read_of_eq_some (hread _ _ (by simp)) (readsBack_uint8 gate.dpl)
  have hpresent : fields.read "present" readBool = some gate.present :=
    Fields.read_of_eq_some (hread _ _ (by simp)) (readsBack_bool gate.present)
  have hraw : fields.read "descriptor" readUInt64 = some gate.raw :=
    Fields.read_of_eq_some (hread _ _ (by simp)) (readsBack_uint64 gate.raw)
  simp only [ReadsBack, ofSaved?, toSaved, hfields, Option.bind_eq_bind, Option.bind_some, htype,
    hselector, hoffset, hcount, hdpl, hpresent, hraw]
  rfl

namespace SegmentKind

/-- A kind with a record for its content is told by the label of that record. -/
theorem ofSaved?_labelled (label : String) (items : List (String × Value)) :
    ofSaved? (.record [(label, .record items)]) = ofLabelled? label (.record items) := by
  unfold ofSaved?
  split <;> simp_all

theorem readsBack_realMode (base : UInt32) : ReadsBack ofSaved? toSaved (realMode base) := by
  obtain ⟨fields, hfields, hread⟩ := exists_recordFields?_record ["base"]
    [("base", .nat base.toNat)] (by simp)
  have hbase : fields.read "base" readUInt32 = some base :=
    Fields.read_of_eq_some (hread _ _ (by simp)) (readsBack_uint32 base)
  simp only [ReadsBack, toSaved, ofSaved?_labelled, ofLabelled?, hfields, Option.bind_eq_bind,
    Option.bind_some, hbase]
  rfl

theorem readsBack_virtual8086 (base : UInt32) (isCode : Bool) :
    ReadsBack ofSaved? toSaved (virtual8086 base isCode) := by
  obtain ⟨fields, hfields, hread⟩ := exists_recordFields?_record ["base", "is_code"]
    [("base", .nat base.toNat), ("is_code", .bool isCode)] (by simp)
  have hbase : fields.read "base" readUInt32 = some base :=
    Fields.read_of_eq_some (hread _ _ (by simp)) (readsBack_uint32 base)
  have hcode : fields.read "is_code" readBool = some isCode :=
    Fields.read_of_eq_some (hread _ _ (by simp)) (readsBack_bool isCode)
  simp only [ReadsBack, toSaved, ofSaved?_labelled, ofLabelled?, hfields, Option.bind_eq_bind,
    Option.bind_some, hbase, hcode]
  rfl

theorem readsBack_descriptorTable (base limit : UInt32) :
    ReadsBack ofSaved? toSaved (descriptorTable base limit) := by
  obtain ⟨fields, hfields, hread⟩ := exists_recordFields?_record ["base", "limit"]
    [("base", .nat base.toNat), ("limit", .nat limit.toNat)] (by simp)
  have hbase : fields.read "base" readUInt32 = some base :=
    Fields.read_of_eq_some (hread _ _ (by simp)) (readsBack_uint32 base)
  have hlimit : fields.read "limit" readUInt32 = some limit :=
    Fields.read_of_eq_some (hread _ _ (by simp)) (readsBack_uint32 limit)
  simp only [ReadsBack, toSaved, ofSaved?_labelled, ofLabelled?, hfields, Option.bind_eq_bind,
    Option.bind_some, hbase, hlimit]
  rfl

theorem readsBack (kind : SegmentKind) : ReadsBack ofSaved? toSaved kind := by
  cases kind with
  | null => rfl
  | realMode base => exact readsBack_realMode base
  | virtual8086 base isCode => exact readsBack_virtual8086 base isCode
  | descriptorTable base limit => exact readsBack_descriptorTable base limit
  | descriptor segment => exact congrArg (Option.map descriptor) segment.readsBack
  | gate segment => exact congrArg (Option.map gate) segment.readsBack

end SegmentKind

/-! ## Segments -/

namespace Segment

theorem readsBack {segment : Segment} (hspace : segment.space < UInt32.size) :
    ReadsBack ofSaved? toSaved segment := by
  obtain ⟨fields, hfields, hread⟩ := exists_fields?_record ["space", "selector", "rpl", "kind"]
    [("space", .nat segment.space), ("selector", .nat segment.selector.toNat),
      ("rpl", .nat segment.rpl.toNat), ("kind", segment.kind.toSaved)] (by simp)
  have hspace : fields.read "space" (readBelow UInt32.size) = some segment.space :=
    Fields.read_of_eq_some (hread _ _ (by simp)) (readsBack_below hspace)
  have hselector : fields.read "selector" readUInt16 = some segment.selector :=
    Fields.read_of_eq_some (hread _ _ (by simp)) (readsBack_uint16 segment.selector)
  have hrpl : fields.read "rpl" readUInt8 = some segment.rpl :=
    Fields.read_of_eq_some (hread _ _ (by simp)) (readsBack_uint8 segment.rpl)
  have hkind : fields.read "kind" SegmentKind.ofSaved? = some segment.kind :=
    Fields.read_of_eq_some (hread _ _ (by simp)) segment.kind.readsBack
  simp only [ReadsBack, ofSaved?, toSaved, hfields, Option.bind_eq_bind, Option.bind_some, hspace,
    hselector, hrpl, hkind]
  rfl

/-- The number of a space that was read has 32 bits. -/
theorem space_lt_of_ofSaved? {value : Value} {segment : Segment}
    (hread : ofSaved? value = some segment) : segment.space < UInt32.size := by
  obtain ⟨fields, -, hread⟩ := Option.bind_eq_some_iff.mp hread
  obtain ⟨space, hspace, hread⟩ := Option.bind_eq_some_iff.mp hread
  obtain ⟨selector, -, hread⟩ := Option.bind_eq_some_iff.mp hread
  obtain ⟨rpl, -, hread⟩ := Option.bind_eq_some_iff.mp hread
  obtain ⟨kind, -, hread⟩ := Option.bind_eq_some_iff.mp hread
  obtain rfl := Option.some.inj hread
  obtain ⟨part, -, hpart⟩ := Option.bind_eq_some_iff.mp hspace
  exact readBelow_lt hpart

/-- Saving and restoring changes nothing: every segment whose space has a number of 32 bits is read
back as it was, descriptor and levels included, and so is everything that can be read at all. -/
theorem restore_exact :
    (∀ segment : Segment, segment.space < UInt32.size →
      ofSaved? segment.toSaved = some segment) ∧
    ∀ (value : Value) (segment : Segment), ofSaved? value = some segment →
      ofSaved? segment.toSaved = some segment := by
  refine ⟨fun segment hspace ↦ readsBack hspace, fun value segment hread ↦ ?_⟩
  exact readsBack (space_lt_of_ofSaved? hread)

/-- A gate that carries the type of a data segment, and levels that are none. -/
def dataGate : Segment where
  space := 7
  selector := 0x1B
  rpl := 200
  kind := .gate ⟨.readWriteData, 8, 0xFFFFFFFF, 255, 9, true, 0xFFFFFFFFFFFFFFFF⟩

/-- The fields of a segment in a list, with its kind as a record. -/
def listedSegment : Value :=
  .list [.nat 7, .nat 0x1B, .nat 200, .record [("Null", .null)]]

theorem restore_exact_dataGate :
    ofSaved? dataGate.toSaved = some dataGate ∧
    ofSaved? listedSegment = some { dataGate with kind := .null } ∧
    ofSaved? { dataGate with kind := .null }.toSaved = some { dataGate with kind := .null } := by
  have hlisted : ofSaved? listedSegment = some { dataGate with kind := .null } := by rfl
  exact ⟨restore_exact.1 dataGate (by decide), hlisted, restore_exact.2 _ _ hlisted⟩

end Segment

end GuestMachine

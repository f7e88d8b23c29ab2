import GuestMachine.Saved.Value
import GuestMachine.Segment.Basic

/-!
# Saved segments

A segment is saved with all its fields, and its kind as a name or as a record with the one field
that the name labels. The fields of a kind that belong to no descriptor are always named. Nothing is
derived or checked on reading: a level may be any byte, and a descriptor may carry the type of a
gate.
-/

namespace GuestMachine

open Saved

namespace DescriptorType

def toSaved (type : DescriptorType) : Value := .text type.name

def ofSaved? : Reader DescriptorType := readName ofName?

end DescriptorType

namespace DescriptorSegment

def toSaved (segment : DescriptorSegment) : Value := .record [
  ("descriptor_type", segment.type.toSaved),
  ("base", .nat segment.base.toNat),
  ("raw_limit", .nat segment.rawLimit.toNat),
  ("limit", .nat segment.limit.toNat),
  ("dpl", .nat segment.dpl.toNat),
  ("present", .bool segment.present),
  ("default_size_32", .bool segment.defaultSize32),
  ("granularity", .bool segment.granularity),
  ("available", .bool segment.available),
  ("descriptor", .nat segment.raw.toNat)]

def ofSaved? : Reader DescriptorSegment := fun value ↦ do
  let fields ← fields? ["descriptor_type", "base", "raw_limit", "limit", "dpl", "present",
    "default_size_32", "granularity", "available", "descriptor"] value
  return {
    type := ← fields.read "descriptor_type" DescriptorType.ofSaved?
    base := ← fields.read "base" readUInt32
    rawLimit := ← fields.read "raw_limit" readUInt32
    limit := ← fields.read "limit" readUInt32
    dpl := ← fields.read "dpl" readUInt8
    present := ← fields.read "present" readBool
    defaultSize32 := ← fields.read "default_size_32" readBool
    granularity := ← fields.read "granularity" readBool
    available := ← fields.read "available" readBool
    raw := ← fields.read "descriptor" readUInt64 }

end DescriptorSegment

namespace GateSegment

def toSaved (gate : GateSegment) : Value := .record [
  ("descriptor_type", gate.type.toSaved),
  ("target_selector", .nat gate.targetSelector.toNat),
  ("target_offset", .nat gate.targetOffset.toNat),
  ("parameter_count", .nat gate.parameterCount.toNat),
  ("dpl", .nat gate.dpl.toNat),
  ("present", .bool gate.present),
  ("descriptor", .nat gate.raw.toNat)]

def ofSaved? : Reader GateSegment := fun value ↦ do
  let fields ← fields? ["descriptor_type", "target_selector", "target_offset", "parameter_count",
    "dpl", "present", "descriptor"] value
  return {
    type := ← fields.read "descriptor_type" DescriptorType.ofSaved?
    targetSelector := ← fields.read "target_selector" readUInt16
    targetOffset := ← fields.read "target_offset" readUInt32
    parameterCount := ← fields.read "parameter_count" readUInt8
    dpl := ← fields.read "dpl" readUInt8
    present := ← fields.read "present" readBool
    raw := ← fields.read "descriptor" readUInt64 }

end GateSegment

namespace SegmentKind

def toSaved : SegmentKind → Value
  | null => .text "Null"
  | realMode base => .record [("RealMode", .record [("base", .nat base.toNat)])]
  | virtual8086 base isCode =>
    .record [("Virtual8086", .record [("base", .nat base.toNat), ("is_code", .bool isCode)])]
  | descriptorTable base limit =>
    .record [("DescriptorTable",
      .record [("base", .nat base.toNat), ("limit", .nat limit.toNat)])]
  | descriptor segment => .record [("Descriptor", segment.toSaved)]
  | gate segment => .record [("Gate", segment.toSaved)]

/-- The kind with the given label and content. -/
def ofLabelled? (label : String) (content : Value) : Option SegmentKind :=
  match label with
  | "RealMode" => do
    let fields ← recordFields? ["base"] content
    return .realMode (← fields.read "base" readUInt32)
  | "Virtual8086" => do
    let fields ← recordFields? ["base", "is_code"] content
    return .virtual8086 (← fields.read "base" readUInt32) (← fields.read "is_code" readBool)
  | "DescriptorTable" => do
    let fields ← recordFields? ["base", "limit"] content
    return .descriptorTable (← fields.read "base" readUInt32) (← fields.read "limit" readUInt32)
  | "Descriptor" => .descriptor <$> DescriptorSegment.ofSaved? content
  | "Gate" => .gate <$> GateSegment.ofSaved? content
  | _ => none

def ofSaved? : Reader SegmentKind
  | .text "Null" | .record [("Null", .null)] => some .null
  | .record [(label, content)] => ofLabelled? label content
  | _ => none

end SegmentKind

namespace Segment

def toSaved (segment : Segment) : Value := .record [
  ("space", .nat segment.space),
  ("selector", .nat segment.selector.toNat),
  ("rpl", .nat segment.rpl.toNat),
  ("kind", segment.kind.toSaved)]

def ofSaved? : Reader Segment := fun value ↦ do
  let fields ← fields? ["space", "selector", "rpl", "kind"] value
  return {
    space := ← fields.read "space" (readBelow UInt32.size)
    selector := ← fields.read "selector" readUInt16
    rpl := ← fields.read "rpl" readUInt8
    kind := ← fields.read "kind" SegmentKind.ofSaved? }

end Segment

end GuestMachine

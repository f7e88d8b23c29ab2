import GuestMachine.Error

/-!
# Segments

A segment is what a segment register holds: nothing, a real-mode or virtual-8086 window, a
descriptor table, or a decoded descriptor. Its properties are read off its kind. Asking the NULL
segment or a gate for a property that it lacks is an internal error, not a fault.
-/

namespace GuestMachine

/-- The limit of a segment outside protected mode. -/
def realModeLimit : UInt32 := 0xFFFF

/-- A code, data or system segment of protected mode. -/
structure DescriptorSegment where
  type : DescriptorType
  base : UInt32
  rawLimit : UInt32
  /-- The limit in bytes. -/
  limit : UInt32
  dpl : UInt8
  present : Bool
  defaultSize32 : Bool
  granularity : Bool
  available : Bool
  raw : UInt64
  deriving DecidableEq, Repr

structure GateSegment where
  type : DescriptorType
  targetSelector : UInt16
  targetOffset : UInt32
  parameterCount : UInt8
  dpl : UInt8
  present : Bool
  raw : UInt64
  deriving DecidableEq, Repr

inductive SegmentKind where
  | null
  | realMode (base : UInt32)
  | virtual8086 (base : UInt32) (isCode : Bool)
  | descriptorTable (base limit : UInt32)
  | descriptor (segment : DescriptorSegment)
  | gate (gate : GateSegment)
  deriving DecidableEq, Repr

structure Segment where
  space : SpaceId
  selector : UInt16
  rpl : UInt8
  kind : SegmentKind
  deriving DecidableEq, Repr

/-- The two privilege bits of a selector. -/
def selectorRpl (selector : UInt16) : UInt8 := (selector &&& 3).toUInt8

namespace Segment

/-! ## Construction -/

/-- The NULL segment, through which nothing can be accessed. -/
def null : Segment := ⟨0, 0, 0, .null⟩

def ofKind (space : SpaceId) (selector : UInt16) (kind : SegmentKind) : Segment :=
  ⟨space, selector, selectorRpl selector, kind⟩

def realMode (space : SpaceId) (selector : UInt16) : Segment :=
  ofKind space selector (.realMode (selector.toUInt32 * 16))

/-- Virtual-8086 code always runs at privilege level 3. -/
def virtual8086 (space : SpaceId) (selector : UInt16) (isCode : Bool) : Segment :=
  { ofKind space selector (.virtual8086 (selector.toUInt32 * 16) isCode) with rpl := 3 }

def descriptorTable (space : SpaceId) (base limit : UInt32) : Segment :=
  ofKind space 0 (.descriptorTable base limit)

end Segment

def GateSegment.ofRaw (type : DescriptorType) (raw : UInt64) : GateSegment :=
  let fields := GateFields.ofRaw raw
  { type
    targetSelector := fields.selector
    targetOffset :=
      if type.isGate32 then fields.offsetLow.toUInt32 + fields.offsetHigh.toUInt32 <<< 16
      else fields.offsetLow.toUInt32
    parameterCount := fields.parameterCount
    dpl := fields.dpl
    present := fields.present
    raw }

def DescriptorSegment.ofRaw (type : DescriptorType) (raw : UInt64) : DescriptorSegment :=
  let fields := SegmentFields.ofRaw raw
  { type
    base := fields.base
    rawLimit := fields.rawLimit
    limit := fields.limit
    dpl := fields.dpl
    present := fields.present
    defaultSize32 := fields.defaultSize32
    granularity := fields.granularity
    available := fields.available
    raw }

namespace Segment

/-- Decodes a descriptor. A reserved type is a fault; a type that the policy does not emulate is an
internal error. -/
def ofDescriptor (space : SpaceId) (selector : UInt16) (raw : UInt64) (policy : DescriptorPolicy) :
    Except Error Segment :=
  match DescriptorType.ofCode? (Descriptor.typeCode raw) with
  | none => .error (.exception .protection0)
  | some type =>
    if type.isUnimplemented ∧ policy = .fatal then
      .error (.internal (.unimplementedSegmentType type))
    else if type.isGate then
      .ok (ofKind space selector (.gate (.ofRaw type raw)))
    else
      .ok (ofKind space selector (.descriptor (.ofRaw type raw)))

/-! ## Properties -/

def isNull (segment : Segment) : Bool :=
  match segment.kind with
  | .null => true
  | _ => false

def isPresent (segment : Segment) : Bool :=
  match segment.kind with
  | .descriptor descriptor => descriptor.present
  | .gate gate => gate.present
  | _ => true

def isSystem (segment : Segment) : Bool :=
  match segment.kind with
  | .descriptor descriptor => descriptor.type.isSystem
  | .gate _ => true
  | _ => false

def type? (segment : Segment) : Option DescriptorType :=
  match segment.kind with
  | .descriptor descriptor => some descriptor.type
  | .gate gate => some gate.type
  | _ => none

def lacks {α : Type} (property : SegmentProperty) : Except Error α :=
  .error (.internal (.nullSegment property))

/-- The type code. Segments without a descriptor behave as accessed read/write data, or as accessed
execute/read code. -/
def typeCode (segment : Segment) : Except Error Nat :=
  match segment.kind with
  | .null => .error (.exception .protection0)
  | .realMode _ | .descriptorTable _ _ | .virtual8086 _ false =>
    .ok DescriptorType.readWriteAccessedData.code
  | .virtual8086 _ true => .ok DescriptorType.executeReadAccessedCode.code
  | .descriptor descriptor => .ok descriptor.type.code
  | .gate gate => .ok gate.type.code

def base (segment : Segment) : Except Error UInt32 :=
  match segment.kind with
  | .null => lacks .base
  | .realMode base | .virtual8086 base _ | .descriptorTable base _ => .ok base
  | .descriptor descriptor => .ok descriptor.base
  | .gate _ => .error (.internal (.gateNotAddressable .base))

/-- The limit in bytes. -/
def limit (segment : Segment) : Except Error UInt32 :=
  match segment.kind with
  | .null => lacks .limit
  | .realMode _ | .virtual8086 _ _ => .ok realModeLimit
  | .descriptorTable _ limit => .ok limit
  | .descriptor descriptor => .ok descriptor.limit
  | .gate _ => .error (.internal (.gateNotAddressable .limit))

/-- The limit as a descriptor stores it; for segments without one the limit in bytes. -/
def rawLimit (segment : Segment) : Except Error UInt32 :=
  match segment.kind with
  | .null => lacks .rawLimit
  | .descriptor descriptor => .ok descriptor.rawLimit
  | _ => segment.limit

def dpl (segment : Segment) : Except Error UInt8 :=
  match segment.kind with
  | .null => lacks .dpl
  | .realMode _ | .descriptorTable _ _ => .ok 0
  | .virtual8086 _ _ => .ok 3
  | .descriptor descriptor => .ok descriptor.dpl
  | .gate gate => .ok gate.dpl

/-- The requested privilege level, which the NULL segment does not have. -/
def requestedLevel (segment : Segment) : Except Error UInt8 :=
  if segment.isNull then lacks .rpl else .ok segment.rpl

/-- Changes the requested privilege level, and with it the privilege bits of the selector. -/
def withLevel (segment : Segment) (rpl : UInt8) : Except Error Segment :=
  if segment.isNull then lacks .setRpl
  else
    let rpl := rpl &&& 3
    .ok { segment with rpl, selector := selectorBase segment.selector ||| rpl.toUInt16 }

/-- Points the segment at another address space. -/
def withSpace (segment : Segment) (space : SpaceId) : Segment := { segment with space }

def defaultSize32 (segment : Segment) : Except Error Bool :=
  match segment.kind with
  | .null => lacks .defaultSize32
  | .realMode _ | .virtual8086 _ _ | .descriptorTable _ _ => .ok false
  | .descriptor descriptor => .ok descriptor.defaultSize32
  | .gate gate => .ok gate.type.isGate32

/-- Where a gate leads: selector, offset and number of parameters. -/
def gateTarget? (segment : Segment) : Option (UInt16 × UInt32 × UInt8) :=
  match segment.kind with
  | .gate gate => some (gate.targetSelector, gate.targetOffset, gate.parameterCount)
  | _ => none

end Segment

end GuestMachine

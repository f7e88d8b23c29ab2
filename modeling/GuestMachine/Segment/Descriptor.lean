/-!
# Descriptors

A descriptor is a 64-bit word that describes a segment or a gate. This module cuts it into its
fields, in both layouts, and names the 28 meaningful values of its five-bit type code. What a type
allows is read off the bits of its code: bit 4 tells memory from system descriptors, bit 3 code
from data, bit 2 conforming code and expand-down data, bit 1 readable code and writable data.
-/

namespace GuestMachine

namespace Descriptor

/-- The field of `width` bits that starts at bit `low`. -/
def field (raw : UInt64) (low width : Nat) : Nat := (raw.toNat >>> low) % 1 <<< width

def flag (raw : UInt64) (bit : Nat) : Bool := field raw bit 1 == 1

/-- The system bit and the type nibble. -/
def typeCode (raw : UInt64) : Nat := field raw 40 5

end Descriptor

/-- The fields of a descriptor that describes a segment. -/
structure SegmentFields where
  base : UInt32
  rawLimit : UInt32
  nibble : Nat
  memory : Bool
  dpl : UInt8
  present : Bool
  available : Bool
  long : Bool
  defaultSize32 : Bool
  granularity : Bool
  deriving DecidableEq, Repr

namespace SegmentFields

open Descriptor in
def ofRaw (raw : UInt64) : SegmentFields where
  base := UInt32.ofNat (field raw 16 24 + field raw 56 8 <<< 24)
  rawLimit := UInt32.ofNat (field raw 0 16 + field raw 48 4 <<< 16)
  nibble := field raw 40 4
  memory := flag raw 44
  dpl := UInt8.ofNat (field raw 45 2)
  present := flag raw 47
  available := flag raw 52
  long := flag raw 53
  defaultSize32 := flag raw 54
  granularity := flag raw 55

/-- The limit in bytes: with the granularity flag the 20-bit limit counts pages of 4096. -/
def limit (fields : SegmentFields) : UInt32 :=
  if fields.granularity then fields.rawLimit * 4096 + 4095 else fields.rawLimit

end SegmentFields

/-- The fields of a descriptor that describes a gate. -/
structure GateFields where
  offsetLow : UInt16
  offsetHigh : UInt16
  selector : UInt16
  parameterCount : UInt8
  nibble : Nat
  memory : Bool
  dpl : UInt8
  present : Bool
  deriving DecidableEq, Repr

open Descriptor in
def GateFields.ofRaw (raw : UInt64) : GateFields where
  offsetLow := UInt16.ofNat (field raw 0 16)
  offsetHigh := UInt16.ofNat (field raw 48 16)
  selector := UInt16.ofNat (field raw 16 16)
  parameterCount := UInt8.ofNat (field raw 32 5)
  nibble := field raw 40 4
  memory := flag raw 44
  dpl := UInt8.ofNat (field raw 45 2)
  present := flag raw 47

/-- The meaning of a type code. The codes 0, 8, 10 and 13 are reserved and mean nothing. -/
inductive DescriptorType where
  | available16BitTss
  | ldt
  | busy16BitTss
  | callGate16Bit
  | taskGate
  | interruptGate16Bit
  | trapGate16Bit
  | available32BitTss
  | busy32BitTss
  | callGate32Bit
  | interruptGate32Bit
  | trapGate32Bit
  | readOnlyData
  | readOnlyAccessedData
  | readWriteData
  | readWriteAccessedData
  | readOnlyExpandDownData
  | readOnlyExpandDownAccessedData
  | readWriteExpandDownData
  | readWriteExpandDownAccessedData
  | executeOnlyCode
  | executeOnlyAccessedCode
  | executeReadCode
  | executeReadAccessedCode
  | executeOnlyConformingCode
  | executeOnlyConformingAccessedCode
  | executeReadConformingCode
  | executeReadConformingAccessedCode
  deriving DecidableEq, Repr, Inhabited

namespace DescriptorType

def all : List DescriptorType :=
  [available16BitTss, ldt, busy16BitTss, callGate16Bit, taskGate, interruptGate16Bit,
    trapGate16Bit, available32BitTss, busy32BitTss, callGate32Bit, interruptGate32Bit,
    trapGate32Bit, readOnlyData, readOnlyAccessedData, readWriteData, readWriteAccessedData,
    readOnlyExpandDownData, readOnlyExpandDownAccessedData, readWriteExpandDownData,
    readWriteExpandDownAccessedData, executeOnlyCode, executeOnlyAccessedCode, executeReadCode,
    executeReadAccessedCode, executeOnlyConformingCode, executeOnlyConformingAccessedCode,
    executeReadConformingCode, executeReadConformingAccessedCode]

def code : DescriptorType → Nat
  | available16BitTss => 0x01
  | ldt => 0x02
  | busy16BitTss => 0x03
  | callGate16Bit => 0x04
  | taskGate => 0x05
  | interruptGate16Bit => 0x06
  | trapGate16Bit => 0x07
  | available32BitTss => 0x09
  | busy32BitTss => 0x0B
  | callGate32Bit => 0x0C
  | interruptGate32Bit => 0x0E
  | trapGate32Bit => 0x0F
  | readOnlyData => 0x10
  | readOnlyAccessedData => 0x11
  | readWriteData => 0x12
  | readWriteAccessedData => 0x13
  | readOnlyExpandDownData => 0x14
  | readOnlyExpandDownAccessedData => 0x15
  | readWriteExpandDownData => 0x16
  | readWriteExpandDownAccessedData => 0x17
  | executeOnlyCode => 0x18
  | executeOnlyAccessedCode => 0x19
  | executeReadCode => 0x1A
  | executeReadAccessedCode => 0x1B
  | executeOnlyConformingCode => 0x1C
  | executeOnlyConformingAccessedCode => 0x1D
  | executeReadConformingCode => 0x1E
  | executeReadConformingAccessedCode => 0x1F

def ofCode? (code : Nat) : Option DescriptorType := all.find? (·.code == code)

def name : DescriptorType → String
  | available16BitTss => "Available16BitTss"
  | ldt => "Ldt"
  | busy16BitTss => "Busy16BitTss"
  | callGate16Bit => "CallGate16Bit"
  | taskGate => "TaskGate"
  | interruptGate16Bit => "InterruptGate16Bit"
  | trapGate16Bit => "TrapGate16Bit"
  | available32BitTss => "Available32BitTss"
  | busy32BitTss => "Busy32BitTss"
  | callGate32Bit => "CallGate32Bit"
  | interruptGate32Bit => "InterruptGate32Bit"
  | trapGate32Bit => "TrapGate32Bit"
  | readOnlyData => "ReadOnlyData"
  | readOnlyAccessedData => "ReadOnlyAccessedData"
  | readWriteData => "ReadWriteData"
  | readWriteAccessedData => "ReadWriteAccessedData"
  | readOnlyExpandDownData => "ReadOnlyExpandDownData"
  | readOnlyExpandDownAccessedData => "ReadOnlyExpandDownAccessedData"
  | readWriteExpandDownData => "ReadWriteExpandDownData"
  | readWriteExpandDownAccessedData => "ReadWriteExpandDownAccessedData"
  | executeOnlyCode => "ExecuteOnlyCode"
  | executeOnlyAccessedCode => "ExecuteOnlyAccessedCode"
  | executeReadCode => "ExecuteReadCode"
  | executeReadAccessedCode => "ExecuteReadAccessedCode"
  | executeOnlyConformingCode => "ExecuteOnlyConformingCode"
  | executeOnlyConformingAccessedCode => "ExecuteOnlyConformingAccessedCode"
  | executeReadConformingCode => "ExecuteReadConformingCode"
  | executeReadConformingAccessedCode => "ExecuteReadConformingAccessedCode"

def ofName? (name : String) : Option DescriptorType := all.find? (·.name == name)

def text : DescriptorType → String
  | available16BitTss => "16-bit TSS (Available)"
  | ldt => "LDT"
  | busy16BitTss => "16-bit TSS (Busy)"
  | callGate16Bit => "16-bit Call Gate"
  | taskGate => "Task Gate"
  | interruptGate16Bit => "16-bit Interrupt Gate"
  | trapGate16Bit => "16-bit Trap Gate"
  | available32BitTss => "32-bit TSS (Available)"
  | busy32BitTss => "32-bit TSS (Busy)"
  | callGate32Bit => "32-bit Call Gate"
  | interruptGate32Bit => "32-bit Interrupt Gate"
  | trapGate32Bit => "32-bit Trap Gate"
  | readOnlyData => "Data Segment: Read-Only"
  | readOnlyAccessedData => "Data Segment: Read-Only, Accessed"
  | readWriteData => "Data Segment: Read/Write"
  | readWriteAccessedData => "Data Segment: Read/Write, Accessed"
  | readOnlyExpandDownData => "Data Segment: Read-Only, Expand-Down"
  | readOnlyExpandDownAccessedData => "Data Segment: Read-Only, Expand-Down, Accessed"
  | readWriteExpandDownData => "Data Segment: Read/Write, Expand-Down"
  | readWriteExpandDownAccessedData => "Data Segment: Read/Write, Expand-Down, Accessed"
  | executeOnlyCode => "Code Segment: Execute-Only"
  | executeOnlyAccessedCode => "Code Segment: Execute-Only, Accessed"
  | executeReadCode => "Code Segment: Execute/Read"
  | executeReadAccessedCode => "Code Segment: Execute/Read, Accessed"
  | executeOnlyConformingCode => "Code Segment: Execute-Only, Conforming"
  | executeOnlyConformingAccessedCode => "Code Segment: Execute-Only, Conforming, Accessed"
  | executeReadConformingCode => "Code Segment: Execute/Read, Conforming"
  | executeReadConformingAccessedCode => "Code Segment: Execute/Read, Conforming, Accessed"

/-- Types that are only decoded where the policy emulates them. -/
def isUnimplemented : DescriptorType → Bool
  | readOnlyExpandDownData | readOnlyExpandDownAccessedData | readWriteExpandDownAccessedData
  | executeOnlyAccessedCode | executeOnlyConformingCode => true
  | _ => false

def isGate : DescriptorType → Bool
  | callGate16Bit | taskGate | interruptGate16Bit | trapGate16Bit
  | callGate32Bit | interruptGate32Bit | trapGate32Bit => true
  | _ => false

def isGate32 : DescriptorType → Bool
  | callGate32Bit | interruptGate32Bit | trapGate32Bit => true
  | _ => false

def isSystem (type : DescriptorType) : Bool := !type.code.testBit 4

def isCode (type : DescriptorType) : Bool := type.code.testBit 4 && type.code.testBit 3

def isData (type : DescriptorType) : Bool := type.code.testBit 4 && !type.code.testBit 3

def isConforming (type : DescriptorType) : Bool := type.isCode && type.code.testBit 2

def isExpandDown (type : DescriptorType) : Bool := type.isData && type.code.testBit 2

/-- All but code is readable; code is so with its readable bit. -/
def isReadable (type : DescriptorType) : Bool := !type.isCode || type.code.testBit 1

/-- System descriptors are writable, code never is, and data is so with its writable bit. -/
def isWritable (type : DescriptorType) : Bool :=
  !type.isCode && (type.isSystem || type.code.testBit 1)

end DescriptorType

/-- How to treat the descriptor types that are not implemented by default. -/
inductive DescriptorPolicy where
  | fatal
  | emulate
  deriving DecidableEq, Repr, Inhabited

namespace DescriptorPolicy

def name : DescriptorPolicy → String
  | fatal => "Fatal"
  | emulate => "Emulate"

def text : DescriptorPolicy → String
  | fatal => "fatal"
  | emulate => "emulate"

/-- Reads a policy as a user writes it, in any case. -/
def ofText? (text : String) : Option DescriptorPolicy :=
  match text.map Char.toLower with
  | "fatal" => some fatal
  | "emulate" => some emulate
  | _ => none

end DescriptorPolicy

end GuestMachine

import GuestMachine.Text.Hex

/-!
# Processor exceptions

The faults a guest can observe. Each kind has a fixed vector and mnemonic; a fault may carry an
error code. Faults that name a selector report it with the two privilege bits cleared.
-/

namespace GuestMachine

inductive ExceptionKind where
  | divideError
  | debug
  | nonMaskableInterrupt
  | breakpoint
  | overflow
  | boundRange
  | invalidOpcode
  | deviceNotAvailable
  | doubleFault
  | invalidTss
  | segmentNotPresent
  | stackSegment
  | generalProtection
  | pageFault
  | floatingPoint
  | alignmentCheck
  deriving DecidableEq, Repr, Inhabited

namespace ExceptionKind

def all : List ExceptionKind :=
  [divideError, debug, nonMaskableInterrupt, breakpoint, overflow, boundRange, invalidOpcode,
    deviceNotAvailable, doubleFault, invalidTss, segmentNotPresent, stackSegment,
    generalProtection, pageFault, floatingPoint, alignmentCheck]

def vector : ExceptionKind → Nat
  | divideError => 0
  | debug => 1
  | nonMaskableInterrupt => 2
  | breakpoint => 3
  | overflow => 4
  | boundRange => 5
  | invalidOpcode => 6
  | deviceNotAvailable => 7
  | doubleFault => 8
  | invalidTss => 10
  | segmentNotPresent => 11
  | stackSegment => 12
  | generalProtection => 13
  | pageFault => 14
  | floatingPoint => 16
  | alignmentCheck => 17

def mnemonic : ExceptionKind → String
  | divideError => "#DE"
  | debug => "#DB"
  | nonMaskableInterrupt => "NMI"
  | breakpoint => "#BP"
  | overflow => "#OF"
  | boundRange => "#BR"
  | invalidOpcode => "#UD"
  | deviceNotAvailable => "#NM"
  | doubleFault => "#DF"
  | invalidTss => "#TS"
  | segmentNotPresent => "#NP"
  | stackSegment => "#SS"
  | generalProtection => "#GP"
  | pageFault => "#PF"
  | floatingPoint => "#MF"
  | alignmentCheck => "#AC"

def name : ExceptionKind → String
  | divideError => "DivideError"
  | debug => "Debug"
  | nonMaskableInterrupt => "NonMaskableInterrupt"
  | breakpoint => "Breakpoint"
  | overflow => "Overflow"
  | boundRange => "BoundRange"
  | invalidOpcode => "InvalidOpcode"
  | deviceNotAvailable => "DeviceNotAvailable"
  | doubleFault => "DoubleFault"
  | invalidTss => "InvalidTss"
  | segmentNotPresent => "SegmentNotPresent"
  | stackSegment => "StackSegment"
  | generalProtection => "GeneralProtection"
  | pageFault => "PageFault"
  | floatingPoint => "FloatingPoint"
  | alignmentCheck => "AlignmentCheck"

def ofName? (name : String) : Option ExceptionKind := all.find? (·.name == name)

end ExceptionKind

/-- A processor exception. The code is kept, as zero, also where the fault reports none. -/
structure Fault where
  kind : ExceptionKind
  code : UInt32
  hasCode : Bool
  deriving DecidableEq, Repr, Inhabited

/-- A selector without its two privilege bits. -/
def selectorBase (selector : UInt16) : UInt16 := selector &&& 0xFFFC

namespace Fault

def coded (kind : ExceptionKind) (code : UInt32) : Fault := ⟨kind, code, true⟩

def plain (kind : ExceptionKind) : Fault := ⟨kind, 0, false⟩

def generalProtection (code : UInt32) : Fault := coded .generalProtection code

/-- The fault of every violation that no selector is to blame for. -/
def protection0 : Fault := generalProtection 0

def undefinedOpcode : Fault := plain .invalidOpcode

def protectionOf (selector : UInt16) : Fault := generalProtection (selectorBase selector).toUInt32

def notPresent (selector : UInt16) : Fault :=
  coded .segmentNotPresent (selectorBase selector).toUInt32

def stackFault (selector : UInt16) : Fault := coded .stackSegment (selectorBase selector).toUInt32

def vector (fault : Fault) : Nat := fault.kind.vector

def text (fault : Fault) : String :=
  let code := if fault.hasCode then "(" ++ Hex.marked 1 fault.code.toNat ++ ")" else ""
  fault.kind.mnemonic ++ code ++ " [vector " ++ toString fault.vector ++ "]"

end Fault

end GuestMachine

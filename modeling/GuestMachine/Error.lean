import GuestMachine.Mode
import GuestMachine.Fault
import GuestMachine.Segment.Descriptor

/-!
# Errors

An operation of the machine fails either with a fault, which the guest can observe, or with an
internal error, which ends the run. Internal errors name their cause; the wording is in
`InternalError.message`.
-/

namespace GuestMachine

/-- Names an address space by its place in the table of spaces. -/
abbrev SpaceId := Nat

/-- Names a timer by its place in the clock's table of timers. -/
abbrev TimerId := Nat

/-- A property of a segment that some segments do not have. -/
inductive SegmentProperty where
  | base
  | limit
  | rawLimit
  | dpl
  | rpl
  | setRpl
  | defaultSize32
  deriving DecidableEq, Repr, Inhabited

def SegmentProperty.text : SegmentProperty → String
  | base => "base"
  | limit => "limit"
  | rawLimit => "raw_limit"
  | dpl => "dpl"
  | rpl => "rpl"
  | setRpl => "set_rpl"
  | defaultSize32 => "default_size_32"

inductive InternalError where
  | noBlockProduced (mode : Mode)
  | nullSegment (property : SegmentProperty)
  | unimplementedSegmentType (type : DescriptorType)
  | gateNotAddressable (property : SegmentProperty)
  | unknownAddressSpace (id : SpaceId)
  | unknownTimer (id : TimerId)
  deriving DecidableEq, Repr

def InternalError.message : InternalError → String
  | noBlockProduced mode => "can't find nor make a suitable " ++ mode.text ++ " mode code block"
  | nullSegment property => "NULL segment " ++ property.text ++ "()"
  | unimplementedSegmentType type =>
    "unimplemented segment type " ++ Hex.marked 2 type.code ++ ": " ++ type.text
  | gateNotAddressable property => "gate descriptor has no " ++ property.text
  | unknownAddressSpace id =>
    "no address space registered for AddressSpaceId(" ++ toString id ++ ")"
  | unknownTimer id => "no timer registered for TimerId(" ++ toString id ++ ")"

inductive Error where
  | exception (fault : Fault)
  | internal (cause : InternalError)
  deriving DecidableEq, Repr

namespace Error

def message : Error → String
  | exception fault => "processor exception: " ++ fault.text
  | internal cause => "internal error: " ++ cause.message

/-- Internal errors end the run; exceptions are for the guest. -/
def isFatal : Error → Bool
  | exception _ => false
  | internal _ => true

end Error

end GuestMachine

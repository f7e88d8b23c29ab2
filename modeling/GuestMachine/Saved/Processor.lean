import GuestMachine.Block.Op
import GuestMachine.Config.Core
import GuestMachine.Saved.Value

/-!
# Saved modes, tiers, faults and core options

Alternatives are saved under their names. Reading is case-sensitive and knows two further names:
`v86` for the virtual-8086 mode, and the capitalised names of the policies. Core options that are
absent take their defaults, and are not validated.
-/

namespace GuestMachine

open Saved

namespace Mode

def savedName : Mode → String
  | real => "real"
  | protectedMode => "protected"
  | virtual8086 => "virtual8086"

def ofSavedName? : String → Option Mode
  | "real" => some real
  | "protected" => some protectedMode
  | "virtual8086" | "v86" => some virtual8086
  | _ => none

def toSaved (mode : Mode) : Value := .text mode.savedName

def ofSaved? : Reader Mode := readName ofSavedName?

end Mode

namespace Tier

def toSaved (tier : Tier) : Value := .text tier.text

def ofSaved? : Reader Tier := readName ofText?

end Tier

namespace DescriptorPolicy

def ofSavedName? : String → Option DescriptorPolicy
  | "fatal" | "Fatal" => some fatal
  | "emulate" | "Emulate" => some emulate
  | _ => none

def toSaved (policy : DescriptorPolicy) : Value := .text policy.text

def ofSaved? : Reader DescriptorPolicy := readName ofSavedName?

end DescriptorPolicy

namespace ExceptionKind

def toSaved (kind : ExceptionKind) : Value := .text kind.name

def ofSaved? : Reader ExceptionKind := readName ofName?

end ExceptionKind

namespace Fault

def toSaved (fault : Fault) : Value := .record [
  ("kind", fault.kind.toSaved),
  ("error_code", .nat fault.code.toNat),
  ("has_error_code", .bool fault.hasCode)]

def ofSaved? : Reader Fault := fun value ↦ do
  let fields ← fields? ["kind", "error_code", "has_error_code"] value
  return {
    kind := ← fields.read "kind" ExceptionKind.ofSaved?
    code := ← fields.read "error_code" readUInt32
    hasCode := ← fields.read "has_error_code" readBool }

end Fault

namespace CoreOptions

def toSaved (options : CoreOptions) : Value := .record [
  ("block_limit", .nat options.blockLimit),
  ("hot_threshold", options.hotThreshold.elim .null fun threshold ↦ .nat threshold.toNat),
  ("unimplemented_segments", options.unimplementedSegments.toSaved)]

def ofSaved? : Reader CoreOptions := fun value ↦ do
  let fields ← fields? ["block_limit", "hot_threshold", "unimplemented_segments"] value
  let defaults : CoreOptions := {}
  return {
    blockLimit := ← fields.readOr "block_limit" (readBelow UInt64.size) defaults.blockLimit
    hotThreshold := ← fields.readOr "hot_threshold" (readOption readUInt32) defaults.hotThreshold
    unimplementedSegments := ←
      fields.readOr "unimplemented_segments" DescriptorPolicy.ofSaved?
        defaults.unimplementedSegments }

end CoreOptions

end GuestMachine

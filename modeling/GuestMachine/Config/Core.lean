import GuestMachine.Segment.Descriptor

/-!
# Core options

The options of the block pipeline and of segment loading. A block limit below two or a threshold of
zero is refused where the options are put to use, not where they are read, so that a later source
can still repair them.
-/

namespace GuestMachine

structure CoreOptions where
  /-- The largest number of instructions in a block. -/
  blockLimit : Nat := 1000
  /-- The number of executions after which a block is promoted, if any. -/
  hotThreshold : Option UInt32 := none
  unimplementedSegments : DescriptorPolicy := .fatal
  deriving DecidableEq, Repr, Inhabited

inductive OptionError where
  | blockLimit (limit : Nat)
  | hotThreshold
  deriving DecidableEq, Repr

def minBlockLimit : Nat := 2

def OptionError.message : OptionError → String
  | blockLimit limit =>
    "block_limit must be at least " ++ toString minBlockLimit ++ ", got " ++ toString limit
  | hotThreshold => "hot_threshold must be non-zero when set"

namespace CoreOptions

def validate (options : CoreOptions) : Except OptionError Unit :=
  if options.blockLimit < minBlockLimit then
    .error (.blockLimit options.blockLimit)
  else if options.hotThreshold = some 0 then
    .error .hotThreshold
  else
    .ok ()

theorem validate_eq_ok_iff {options : CoreOptions} :
    options.validate = .ok () ↔
      minBlockLimit ≤ options.blockLimit ∧ options.hotThreshold ≠ some 0 := by
  unfold validate
  split
  · simp; omega
  · split <;> simp_all

end CoreOptions

end GuestMachine

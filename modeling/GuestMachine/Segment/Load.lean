import GuestMachine.Segment.Access

/-!
# Loading segment registers

A selector names a descriptor in the global or the local table. Loading it into a register fetches
and decodes the descriptor and then checks that its type, privilege and presence suit the register.
The faults that arise name the selector.
-/

namespace GuestMachine

/-- The tables that a selector may index. The local one is NULL where none is loaded. -/
structure DescriptorTables where
  globalTable : Segment
  localTable : Segment := .null
  deriving DecidableEq, Repr

namespace Selector

/-- Selectors that name nothing, whatever their privilege bits. -/
def isNull (selector : UInt16) : Bool := selectorBase selector == 0

def isLocal (selector : UInt16) : Bool := selector &&& 4 != 0

/-- Where the descriptor stands in its table. -/
def tableOffset (selector : UInt16) : UInt32 := (selector &&& 0xFFF8).toUInt32

end Selector

/-- The register that a selector is loaded into. -/
inductive SegmentRegister where
  | data
  | stack
  | code
  deriving DecidableEq, Repr

namespace DescriptorTables

def blame {α : Type} (selector : UInt16) : Except Error α :=
  .error (.exception (.protectionOf selector))

/-- Reads the descriptor that a selector names. Any fault on the way is blamed on the selector. -/
def fetch (tables : DescriptorTables) (spaces : Spaces) (selector : UInt16) :
    Except Error UInt64 :=
  let table := if Selector.isLocal selector then tables.localTable else tables.globalTable
  let offset := Selector.tableOffset selector
  if table.isNull then
    blame selector
  else
    match table.checkAddress (offset + 7) with
    | .error _ => blame selector
    | .ok () =>
      match table.getQuadword spaces offset with
      | .ok raw => .ok raw
      | .error (.internal cause) => .error (.internal cause)
      | .error (.exception _) => blame selector

/-- The segment that a selector names, in the address space of the global table. -/
def fetchSegment (tables : DescriptorTables) (spaces : Spaces) (policy : DescriptorPolicy)
    (selector : UInt16) : Except Error Segment := do
  let raw ← tables.fetch spaces selector
  Segment.ofDescriptor tables.globalTable.space selector raw policy

/-- Loads a data segment register. A null selector gives the NULL segment. -/
def loadData (tables : DescriptorTables) (spaces : Spaces) (policy : DescriptorPolicy)
    (selector : UInt16) (cpl : UInt8) : Except Error Segment := do
  if Selector.isNull selector then
    return .null
  let segment ← tables.fetchSegment spaces policy selector
  match segment.type? with
  | none => blame selector
  | some type =>
    if type.isSystem || (type.isCode && !type.isReadable) then
      blame selector
    else do
      let dpl ← segment.dpl
      let rpl ← segment.requestedLevel
      if !type.isConforming && dpl < max cpl rpl then
        blame selector
      else if !segment.isPresent then
        .error (.exception (.notPresent selector))
      else
        return segment

/-- Loads the stack segment register, which takes writable data at the current level only. -/
def loadStack (tables : DescriptorTables) (spaces : Spaces) (policy : DescriptorPolicy)
    (selector : UInt16) (cpl : UInt8) : Except Error Segment := do
  if Selector.isNull selector then
    throw (.exception .protection0)
  if selectorRpl selector ≠ cpl then
    blame selector
  let segment ← tables.fetchSegment spaces policy selector
  match segment.type? with
  | none => blame selector
  | some type =>
    if !(type.isData && type.isWritable) then
      blame selector
    else do
      let dpl ← segment.dpl
      if dpl ≠ cpl then
        blame selector
      else if !segment.isPresent then
        .error (.exception (.stackFault selector))
      else
        return segment

/-- Loads the code segment register for a direct far transfer without a change of level. The segment
then carries the current level. -/
def loadCode (tables : DescriptorTables) (spaces : Spaces) (policy : DescriptorPolicy)
    (selector : UInt16) (cpl : UInt8) : Except Error Segment := do
  if Selector.isNull selector then
    throw (.exception .protection0)
  let segment ← tables.fetchSegment spaces policy selector
  match segment.type? with
  | none => blame selector
  | some type =>
    if !type.isCode then
      blame selector
    else do
      let dpl ← segment.dpl
      let rpl ← segment.requestedLevel
      let denied := if type.isConforming then cpl < dpl else dpl ≠ cpl ∨ cpl < rpl
      if denied then
        blame selector
      else if !segment.isPresent then
        .error (.exception (.notPresent selector))
      else
        segment.withLevel cpl

def load (tables : DescriptorTables) (spaces : Spaces) (policy : DescriptorPolicy)
    (register : SegmentRegister) : (selector : UInt16) → (cpl : UInt8) → Except Error Segment :=
  match register with
  | .data => tables.loadData spaces policy
  | .stack => tables.loadStack spaces policy
  | .code => tables.loadCode spaces policy

end DescriptorTables

end GuestMachine

import GuestMachine.Text.Hex

/-!
# Guest memory

A region is a run of bytes addressed from zero. Reads past its end see an open bus and writes past
its end are dropped. Writable regions count the stores to each page of 4096 bytes; the sum of the
counts over a range tells a reader of code whether the bytes it saw may have changed. Wider
accesses are little-endian and wrap at the end of the 32-bit address range.
-/

namespace GuestMachine

/-- Why a bounded access to a region was refused. -/
inductive RangeError where
  | outOfRange (offset size : Nat)
  | copyOutOfRange (location length size : Nat)
  deriving DecidableEq, Repr

def RangeError.message : RangeError → String
  | outOfRange offset size =>
    "read or seek out of range: offset " ++ Hex.marked 8 offset ++ " in region of size " ++
      Hex.marked 1 size
  | copyOutOfRange location length size =>
    "copy of " ++ toString length ++ " bytes to " ++ Hex.marked 8 location ++
      " exceeds region of size " ++ Hex.marked 1 size

/-- What a read sees where no memory answers. -/
def openBus : UInt8 := 0xFF

def pageSize : Nat := 4096

def pageOf (offset : Nat) : Nat := offset / pageSize

/-- The number of pages that a region of the given size touches. -/
def pageCount (size : Nat) : Nat := (size + (pageSize - 1)) / pageSize

/-! ## Writable regions -/

/-- A writable region, with a version for each of its pages. -/
structure Ram where
  bytes : Array UInt8
  versions : Array UInt64
  size_versions : versions.size = pageCount bytes.size

namespace Ram

def ofBytes (bytes : Array UInt8) : Ram where
  bytes := bytes
  versions := Array.replicate (pageCount bytes.size) 0
  size_versions := Array.size_replicate

def zeroed (size : Nat) : Ram := ofBytes (Array.replicate size 0)

def size (ram : Ram) : Nat := ram.bytes.size

def getByte (ram : Ram) (address : UInt32) : UInt8 := ram.bytes.getD address.toNat openBus

/-- Stores a byte and makes its page newer; outside the region nothing happens. -/
def setByte (ram : Ram) (address : UInt32) (byte : UInt8) : Ram :=
  if address.toNat < ram.size then
    { bytes := ram.bytes.setIfInBounds address.toNat byte
      versions := ram.versions.modify (pageOf address.toNat) (· + 1)
      size_versions := by simp [ram.size_versions] }
  else
    ram

/-- Copies bytes into the region, as a whole or not at all. Each page that receives a byte becomes
newer by one. -/
def copyFrom (ram : Ram) (source : Array UInt8) (location : Nat) : Except RangeError Ram :=
  if fits : location + source.size ≤ ram.size then
    .ok {
      bytes := ram.bytes.extract 0 location ++ source ++
        ram.bytes.extract (location + source.size) ram.size
      versions := ram.versions.mapIdx fun page version ↦
        if 0 < source.size ∧ pageOf location ≤ page ∧ page ≤ pageOf (location + source.size - 1)
        then version + 1 else version
      size_versions := by
        have fits : location + source.size ≤ ram.bytes.size := fits
        simp only [Array.size_mapIdx, ram.size_versions, Array.size_append, Array.size_extract]
        congr 1
        simp only [size]
        omega }
  else
    .error (.copyOutOfRange location source.size ram.size)

/-- The version of a page, zero for a page that the region does not have. -/
def pageVersion (ram : Ram) (page : Nat) : UInt64 := ram.versions.getD page 0

/-- The sum of the versions of the pages that overlap a range. -/
def codeVersion (ram : Ram) (address : UInt32) (length : Nat) : UInt64 :=
  if length = 0 then 0
  else
    let first := pageOf address.toNat
    let last := pageOf (address.toNat + length - 1)
    (ram.versions.extract first (last + 1)).foldl (· + ·) 0

end Ram

/-! ## Regions -/

inductive Memory where
  | ram (region : Ram)
  | rom (bytes : Array UInt8)

namespace Memory

def bytes : Memory → Array UInt8
  | ram region => region.bytes
  | rom bytes => bytes

def size (memory : Memory) : Nat := memory.bytes.size

def getByte (memory : Memory) (address : UInt32) : UInt8 :=
  memory.bytes.getD address.toNat openBus

/-- Stores a byte; a read-only region ignores it. -/
def setByte (memory : Memory) (address : UInt32) (byte : UInt8) : Memory :=
  match memory with
  | .ram region => .ram (region.setByte address byte)
  | .rom bytes => .rom bytes

/-- A value that changes whenever a byte of the range may have been written. -/
def codeVersion (memory : Memory) (address : UInt32) (length : Nat) : UInt64 :=
  match memory with
  | .ram region => region.codeVersion address length
  | .rom _ => 0

def isReadOnly : Memory → Bool
  | ram _ => false
  | rom _ => true

def getWord (memory : Memory) (address : UInt32) : UInt16 :=
  (memory.getByte address).toUInt16 + (memory.getByte (address + 1)).toUInt16 <<< 8

def getDoubleword (memory : Memory) (address : UInt32) : UInt32 :=
  (memory.getWord address).toUInt32 + (memory.getWord (address + 2)).toUInt32 <<< 16

def setWord (memory : Memory) (address : UInt32) (word : UInt16) : Memory :=
  (memory.setByte address word.toUInt8).setByte (address + 1) (word >>> 8).toUInt8

def setDoubleword (memory : Memory) (address : UInt32) (word : UInt32) : Memory :=
  (memory.setWord address word.toUInt16).setWord (address + 2) (word >>> 16).toUInt16

end Memory

end GuestMachine

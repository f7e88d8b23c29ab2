import GuestMachine.Memory.Basic
import GuestMachine.Error

/-!
# Address spaces

The table that owns every region. Segments name a region by its place in the table, so that they
can be saved, restored and pointed at another region.
-/

namespace GuestMachine

structure Spaces where
  regions : Array Memory := #[]

namespace Spaces

def size (spaces : Spaces) : Nat := spaces.regions.size

def insert (spaces : Spaces) (memory : Memory) : SpaceId × Spaces :=
  (spaces.size, ⟨spaces.regions.push memory⟩)

def get (spaces : Spaces) (id : SpaceId) : Except Error Memory :=
  match spaces.regions[id]? with
  | some memory => .ok memory
  | none => .error (.internal (.unknownAddressSpace id))

/-- Changes one region. -/
def modify (spaces : Spaces) (id : SpaceId) (change : Memory → Memory) : Except Error Spaces :=
  if id < spaces.size then
    .ok ⟨spaces.regions.modify id change⟩
  else
    .error (.internal (.unknownAddressSpace id))

end Spaces

end GuestMachine

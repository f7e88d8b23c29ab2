/-!
# Saved values

The tree of values that state is saved as, and the reading of its parts. Numbers are exact integers;
a number with a fraction can be told apart and is never accepted. A record is read by the names of
its fields, whatever their order and whatever else it holds. A list stands for a record that has a
type of its own; its items are the fields in the order in which the type declares them.
-/

namespace GuestMachine

namespace Saved

inductive Value where
  | null
  | bool (value : Bool)
  | integer (value : Int)
  /-- A number that is not written as an integer. -/
  | fraction
  | text (value : String)
  | list (items : List Value)
  | record (fields : List (String × Value))
  deriving Repr, Inhabited

def Value.nat (n : Nat) : Value := .integer n

/-- Reads a value of type `α`, if it is one. -/
abbrev Reader (α : Type) := Value → Option α

/-! ## Plain values -/

def readBool : Reader Bool
  | .bool value => some value
  | _ => none

/-- Reads an integer from zero up to, but not including, `bound`. -/
def readBelow (bound : Nat) : Reader Nat
  | .integer value => if 0 ≤ value ∧ value < bound then some value.toNat else none
  | _ => none

def readUInt8 : Reader UInt8 := fun value ↦ UInt8.ofNat <$> readBelow UInt8.size value

def readUInt16 : Reader UInt16 := fun value ↦ UInt16.ofNat <$> readBelow UInt16.size value

def readUInt32 : Reader UInt32 := fun value ↦ UInt32.ofNat <$> readBelow UInt32.size value

def readUInt64 : Reader UInt64 := fun value ↦ UInt64.ofNat <$> readBelow UInt64.size value

/-- Reads a value that may be null. -/
def readOption {α : Type} (reader : Reader α) : Reader (Option α)
  | .null => some none
  | value => some <$> reader value

def readList {α : Type} (reader : Reader α) : Reader (List α)
  | .list items => items.mapM reader
  | _ => none

/-- Reads one of several named alternatives, written as its name or as a record that gives the name
a null. -/
def readName {α : Type} (ofName? : String → Option α) : Reader α
  | .text name => ofName? name
  | .record [(name, .null)] => ofName? name
  | _ => none

/-! ## Records -/

/-- The fields of a record. -/
abbrev Fields := String → Option Value

/-- The fields of a record that declares the given names. None of them may occur twice. -/
def recordFields? (names : List String) : Value → Option Fields
  | .record fields =>
    if names.all fun name ↦ decide ((fields.filter (·.1 == name)).length ≤ 1) then
      some fun name ↦ fields.lookup name
    else
      none
  | _ => none

/-- The fields of a record that declares the given names, or of the list that stands for it. -/
def fields? (names : List String) : Value → Option Fields
  | .list items =>
    if items.length ≤ names.length then some fun name ↦ (names.zip items).lookup name else none
  | value => recordFields? names value

/-- Reads a field that has to be there. -/
def Fields.read {α : Type} (fields : Fields) (name : String) (reader : Reader α) : Option α := do
  reader (← fields name)

/-- Reads a field that may be absent. -/
def Fields.readOr {α : Type} (fields : Fields) (name : String) (reader : Reader α) (other : α) :
    Option α :=
  match fields name with
  | some value => reader value
  | none => some other

end Saved

end GuestMachine

import GuestMachine.Toml.Value

/-!
# Reading tables

The values of a table by their keys, and the reading of plain values. An array may stand for a table
and then gives the values in order; a date-time counts as a table without keys.
-/

namespace GuestMachine.Toml

/-- The values of the keys of a table. -/
abbrev Fields := String → Option Value

/-- The fields of a value that stands for a table with the given keys. An array has to give at least
the first `required` of them. -/
def Value.fields? (keys : List String) (required : Nat) : Value → Option Fields
  | .table _ entries => some fun key ↦ entries.lookup key
  | .dateTime => some fun _ ↦ none
  | .array items =>
    if required ≤ items.length then some fun key ↦ (keys.zip items).lookup key else none
  | _ => none

/-- Reads the value of a key, if there is one. -/
def Fields.read {α : Type} (fields : Fields) (key : String) (reader : Value → Option α) :
    Option (Option α) :=
  match fields key with
  | some value => some <$> reader value
  | none => some none

def readText : Value → Option String
  | .text value => some value
  | _ => none

def readBoolean : Value → Option Bool
  | .boolean value => some value
  | _ => none

/-- Reads an integer from zero up to, but not including, `bound`. -/
def readBelow (bound : Nat) : Value → Option Nat
  | .integer value => if 0 ≤ value ∧ value < bound then some value.toNat else none
  | _ => none

def readUInt32 (value : Value) : Option UInt32 := UInt32.ofNat <$> readBelow UInt32.size value

/-- Reads one of several named alternatives, written as its name or as a table with the name as its
only key and nothing in it. -/
def readName {α : Type} (ofName? : String → Option α) : Value → Option α
  | .text name | .table _ [(name, .table _ [])] | .table _ [(name, .array [])] => ofName? name
  | _ => none

end GuestMachine.Toml

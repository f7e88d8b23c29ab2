/-!
# Tables of a document

The values of a TOML document. A table remembers how it came about, because that decides what may
still be added to it: a table with a header of its own is closed to dotted keys, an inline table is
closed to everything, and the parent of a table with a header may get a header later. Of floats and
date-times only the fact is kept.
-/

namespace GuestMachine.Toml

/-- How a table came about. -/
inductive Origin where
  /-- By its own header. -/
  | header
  /-- As the parent of a table with a header. -/
  | implied
  /-- By a dotted key. -/
  | dotted
  /-- Written out in braces. -/
  | inline
  deriving DecidableEq, Repr

inductive Value where
  | text (value : String)
  | integer (value : Int)
  | float
  | boolean (value : Bool)
  | dateTime
  | array (items : List Value)
  | table (origin : Origin) (entries : List (String × Value))
  /-- The tables that share a header in double brackets, latest first. -/
  | tables (latestFirst : List (List (String × Value)))
  deriving Repr, Inhabited

abbrev Table := List (String × Value)

/-- A dotted key. -/
structure Path where
  parents : List String
  key : String
  deriving DecidableEq, Repr

namespace Table

/-- Adds an entry under a new key. -/
def add (table : Table) (key : String) (value : Value) : Option Table :=
  if (table.lookup key).isSome then none else some (table ++ [(key, value)])

/-- Replaces the value of a key. -/
def replace (table : Table) (key : String) (value : Value) : Table :=
  table.map fun entry ↦ if entry.1 == key then (key, value) else entry

/-- Whether a walk that makes tables of the given origin may enter an existing table. -/
def mayEnter (making : Origin) : Origin → Bool
  | .header => making != .dotted
  | .implied | .dotted => true
  | .inline => false

/-- Changes the table at the end of a walk, which makes the tables that are missing on its way. An
array of tables is entered through its latest table. -/
def walk (making : Origin) (change : Origin → Table → Option Table) :
    List String → Origin → Table → Option Table
  | [], origin, table => change origin table
  | key :: path, _, table =>
    match table.lookup key with
    | none => do
      let inner ← walk making change path making []
      return table ++ [(key, .table making inner)]
    | some (.table origin inner) =>
      if mayEnter making origin then do
        let inner ← walk making change path origin inner
        return table.replace key (.table origin inner)
      else
        none
    | some (.tables (latest :: earlier)) => do
      let latest ← walk making change path .header latest
      return table.replace key (.tables (latest :: earlier))
    | some _ => none

/-- Gives the value at a dotted key. The tables on the way have to be made by dotted keys. -/
def assign (path : Path) (value : Value) (table : Table) : Option Table :=
  walk .dotted
    (fun origin table ↦
      if path.parents.isEmpty || origin == .dotted then table.add path.key value else none)
    path.parents .header table

/-- Opens the table with the given header. -/
def openTable (path : Path) (table : Table) : Option Table :=
  walk .implied
    (fun _ table ↦
      match table.lookup path.key with
      | none => some (table ++ [(path.key, .table .header [])])
      | some (.table .implied inner) => some (table.replace path.key (.table .header inner))
      | some _ => none)
    path.parents .header table

/-- Adds a table to the array with the given header. -/
def openElement (path : Path) (table : Table) : Option Table :=
  walk .implied
    (fun _ table ↦
      match table.lookup path.key with
      | none => some (table ++ [(path.key, .tables [[]])])
      | some (.tables earlier) => some (table.replace path.key (.tables ([] :: earlier)))
      | some _ => none)
    path.parents .header table

end Table

/-! ## Documents -/

inductive Statement where
  | header (path : Path)
  | element (path : Path)
  | assignment (path : Path) (value : Value)
  deriving Repr

/-- Carries out statements in order; assignments go to the table that was opened last. -/
def Table.build : List Statement → (opened : List String) → Table → Option Table
  | [], _, table => some table
  | .header path :: rest, _, table => do
    build rest (path.parents ++ [path.key]) (← table.openTable path)
  | .element path :: rest, _, table => do
    build rest (path.parents ++ [path.key]) (← table.openElement path)
  | .assignment path value :: rest, opened, table => do
    let table ← walk .implied (fun _ inner ↦ inner.assign path value) opened .header table
    build rest opened table

/-- The table that the statements of a document describe. -/
def Table.ofStatements? (statements : List Statement) : Option Table := build statements [] []

end GuestMachine.Toml

import GuestMachine.Toml.Number

/-!
# Documents

The syntax of a TOML document: lines that are blank, open a table or give the value at a key, and
the values that may stand there. Only arrays may extend over several lines. The nesting of values
and the length of keys are limited.
-/

namespace GuestMachine.Toml

open GuestMachine.Toml.Parser

/-- The largest number of arrays and inline tables that a value may be nested in. -/
def maxNesting : Nat := 79

/-- The largest number of parts of a dotted key. -/
def maxParts : Nat := 79

/-! ## Between the tokens -/

def skipBlanks : Parser Unit := modify (·.dropWhile isBlank)

/-- Takes the rest of a line, which may only hold a comment. -/
def endLine : Parser Unit := do
  skipBlanks
  if ← accept '#' then
    let _ ← takeWhile isPlain
  match ← get with
  | [] => return
  | source =>
    let rest ← newline? source
    set rest

/-- Drops blanks, newlines and comments. -/
def dropGap : (inComment : Bool) → List Char → List Char
  | _, '\n' :: rest => dropGap false rest
  | _, '\r' :: '\n' :: rest => dropGap false rest
  | true, c :: rest => if isPlain c then dropGap true rest else c :: rest
  | false, c :: rest =>
    if isBlank c then dropGap false rest
    else if c = '#' then dropGap true rest
    else c :: rest
  | _, [] => []

def skipGap : Parser Unit := modify (dropGap false)

/-! ## Keys -/

def isBare (c : Char) : Bool := c.isAlphanum || c == '_' || c == '-'

/-- Takes one part of a key, quoted or bare. -/
def scanPart : Parser String := do
  match ← peek? with
  | some '"' | some '\'' => scanLine
  | _ =>
    let part ← takeWhile isBare
    guard !part.isEmpty
    return String.ofList part

/-- Takes a key of at most `room` parts. -/
def scanPath : (room : Nat) → Parser Path
  | 0 => failure
  | room + 1 => do
    skipBlanks
    let part ← scanPart
    skipBlanks
    if ← accept '.' then
      let path ← scanPath room
      return { path with parents := part :: path.parents }
    else
      return ⟨[], part⟩

/-! ## Values -/

/-- Takes the items of an array and its closing bracket. Each round takes at least one character. -/
def scanItems (item : Parser Value) : (fuel : Nat) → Parser (List Value)
  | 0 => failure
  | fuel + 1 => do
    skipGap
    if ← accept ']' then return []
    let value ← item
    skipGap
    if ← accept ',' then
      return value :: (← scanItems item fuel)
    else
      expect ']'
      return [value]

/-- Takes a key, an equals sign and a value. -/
def scanPair (item : Parser Value) : Parser (Path × Value) := do
  let path ← scanPath maxParts
  expect '='
  skipBlanks
  return (path, ← item)

/-- Takes the pairs of an inline table and its closing brace, which must not follow a comma. -/
def scanPairs (item : Parser Value) : (fuel : Nat) → Parser (List (Path × Value))
  | 0 => failure
  | fuel + 1 => do
    let pair ← scanPair item
    skipBlanks
    if ← accept ',' then
      return pair :: (← scanPairs item fuel)
    else
      expect '\x7d'
      return [pair]

/-- The inline table with the given pairs. -/
def inlineTable? (pairs : List (Path × Value)) : Option Value :=
  (.table .inline ·) <$> pairs.foldlM (fun table (path, value) ↦ Table.assign path value table) []

/-- Takes the rest of an array or of an inline table. -/
def scanNested (item : Parser Value) (opening : Char) : Parser Value := do
  let _ ← one (· == opening)
  let fuel := (← get).length
  if opening == '[' then
    return .array (← scanItems item fuel)
  else
    skipBlanks
    if ← accept '\x7d' then
      return .table .inline []
    else
      inlineTable? (← scanPairs item fuel)

def scanWord (word : String) (value : Value) : Parser Value := do
  for c in word.toList do expect c
  return value

/-- Takes a value, by its first character. Arrays and inline tables are left to `nested`. -/
def scanByOpening (nested : Char → Parser Value) : Parser Value := do
  match ← peek? with
  | some '"' | some '\'' => .text <$> scanText
  | some 't' => scanWord "true" (.boolean true)
  | some 'f' => scanWord "false" (.boolean false)
  | some c => if c == '[' || c == '\x7b' then nested c else scanNumeral
  | none => failure

/-- Takes a value in which arrays and inline tables are nested at most `room` deep. -/
def scanValue : (room : Nat) → Parser Value
  | 0 => scanByOpening fun _ ↦ failure
  | room + 1 => scanByOpening (scanNested (scanValue room))

/-! ## Lines -/

/-- Takes a header with its brackets. -/
def scanHeader : Parser Statement := do
  expect '['
  if ← accept '[' then
    let path ← scanPath maxParts
    expect ']'
    expect ']'
    return .element path
  else
    let path ← scanPath maxParts
    expect ']'
    return .header path

/-- Takes all lines. Each of them takes at least one character. -/
def scanLines : (fuel : Nat) → Parser (List Statement)
  | 0 => return []
  | fuel + 1 => do
    skipBlanks
    match ← peek? with
    | none => return []
    | some c =>
      if c == '#' || c == '\n' || c == '\r' then
        endLine
        scanLines fuel
      else
        let statement ←
          if c == '[' then scanHeader
          else do
            let (path, value) ← scanPair (scanValue maxNesting)
            pure (.assignment path value)
        endLine
        return statement :: (← scanLines fuel)

/-- The table that a document describes. A byte order mark may precede it. -/
def Table.parse? (document : String) : Option Table := do
  let source := document.toList
  let source := if source.head? == some '\ufeff' then source.drop 1 else source
  let (statements, rest) ← (scanLines (source.length + 1)).run source
  guard rest.isEmpty
  Table.ofStatements? statements

end GuestMachine.Toml

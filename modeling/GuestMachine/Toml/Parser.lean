/-!
# Reading characters

The few operations that the syntax of a document is read with. Each takes characters from the front
and fails, or returns a value and leaves the rest.
-/

namespace GuestMachine.Toml

/-- Reads from characters and returns those that are left. -/
abbrev Parser := StateT (List Char) Option

namespace Parser

def peek? : Parser (Option Char) := fun source ↦ some (source.head?, source)

/-- Takes the next character, if it satisfies a condition. -/
def acceptIf (condition : Char → Bool) : Parser Bool := fun source ↦
  match source with
  | next :: rest => some (if condition next then (true, rest) else (false, source))
  | [] => some (false, [])

def accept (c : Char) : Parser Bool := acceptIf (· == c)

/-- Takes one character that satisfies a condition. -/
def one (condition : Char → Bool) : Parser Char
  | next :: rest => if condition next then some (next, rest) else none
  | [] => none

def expect (c : Char) : Parser Unit := do
  let _ ← one (· == c)

/-- Takes the characters up to the first that does not satisfy a condition. -/
def takeWhile (condition : Char → Bool) : Parser (List Char) := fun source ↦
  some (source.takeWhile condition, source.dropWhile condition)

end Parser

end GuestMachine.Toml

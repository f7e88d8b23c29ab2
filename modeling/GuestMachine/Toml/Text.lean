/-!
# Quoted text

The four ways in which TOML quotes text: with double or single quotes, on one line or on several.
A quoted text is a sequence of lexemes; each of them stands for some characters, or ends the text.
On several lines up to two quotes are text, also right before the three that end it.
-/

namespace GuestMachine.Toml

def isBlank (c : Char) : Bool := c == ' ' || c == '\t'

/-- The characters of comments and texts: all but the control characters, of which the tab is
allowed. -/
def isPlain (c : Char) : Bool := c == '\t' || (decide (' ' ≤ c) && c != '\x7f')

/-- Drops a newline, if there is one. -/
def newline? : List Char → Option (List Char)
  | '\n' :: rest | '\r' :: '\n' :: rest => some rest
  | _ => none

/-- A piece of quoted text that takes up its first character and `more` further ones. -/
inductive Lexeme where
  | part (text : List Char) (more : Nat)
  | close (text : List Char) (more : Nat)
  deriving DecidableEq, Repr

/-- Joins lexemes up to the one that ends the text. The first `skip` characters were taken up by the
lexeme before. -/
def collect (lexeme : List Char → Option Lexeme) :
    (skip : Nat) → List Char → (latestFirst : List Char) → Option (String × List Char)
  | _, [], _ => none
  | skip + 1, _ :: rest, latestFirst => collect lexeme skip rest latestFirst
  | 0, c :: rest, latestFirst =>
    match lexeme (c :: rest) with
    | some (.part text more) => collect lexeme more rest (text.reverse ++ latestFirst)
    | some (.close text more) =>
      some (String.ofList (latestFirst.reverse ++ text), rest.drop more)
    | none => none

/-! ## Escapes -/

def digitValue (c : Char) : Nat :=
  if c.isDigit then c.toNat - '0'.toNat else c.toUpper.toNat - 'A'.toNat + 10

def isHexDigit (c : Char) : Bool :=
  c.isDigit || (decide ('A' ≤ c.toUpper) && decide (c.toUpper ≤ 'F'))

/-- The number with the given digits. -/
def numberOf (radix : Nat) (digits : List Char) : Nat :=
  digits.foldl (fun n c ↦ n * radix + digitValue c) 0

/-- The character whose code is given by the first `count` digits, if there is such a character. -/
def coded? (count : Nat) (source : List Char) : Option Char :=
  let digits := source.take count
  let code := numberOf 16 digits
  if digits.length = count ∧ digits.all isHexDigit ∧ code.isValidChar then
    some (Char.ofNat code)
  else
    none

def named? : Char → Option Char
  | 'b' => some '\x08'
  | 't' => some '\t'
  | 'n' => some '\n'
  | 'f' => some '\x0c'
  | 'r' => some '\r'
  | '"' => some '"'
  | '\\' => some '\\'
  | _ => none

/-- What a backslash and the characters after it stand for. -/
def escape : List Char → Option Lexeme
  | 'u' :: rest => (fun c ↦ .part [c] 5) <$> coded? 4 rest
  | 'U' :: rest => (fun c ↦ .part [c] 9) <$> coded? 8 rest
  | c :: _ => (fun c ↦ .part [c] 1) <$> named? c
  | [] => none

/-! ## The four kinds of text -/

def basicLine : List Char → Option Lexeme
  | '"' :: _ => some (.close [] 0)
  | '\\' :: rest => escape rest
  | c :: _ => if isPlain c then some (.part [c] 0) else none
  | [] => none

def literalLine : List Char → Option Lexeme
  | '\'' :: _ => some (.close [] 0)
  | c :: _ => if isPlain c then some (.part [c] 0) else none
  | [] => none

/-- A run of quotes in a text of several lines. -/
def quotes (quote : Char) (source : List Char) : Lexeme :=
  let run := (source.takeWhile (· == quote)).length
  if run < 3 then
    .part [quote] 0
  else
    .close (List.replicate (min run 5 - 3) quote) (min run 5 - 1)

/-- A newline, in either spelling, or a plain character. -/
def lineContent : List Char → Option Lexeme
  | '\n' :: _ => some (.part ['\n'] 0)
  | '\r' :: '\n' :: _ => some (.part ['\n'] 1)
  | c :: _ => if isPlain c then some (.part [c] 0) else none
  | [] => none

/-- The number of characters up to the first that is neither blank nor part of a newline. -/
def gap : List Char → Nat
  | '\r' :: '\n' :: rest => gap rest + 2
  | c :: rest => if isBlank c || c == '\n' then gap rest + 1 else 0
  | [] => 0

/-- A backslash at the end of a line drops it and all blanks and newlines that follow. -/
def basicLines : List Char → Option Lexeme
  | '\\' :: rest =>
    if (newline? (rest.dropWhile isBlank)).isSome then some (.part [] (gap rest)) else escape rest
  | source@(c :: _) => if c == '"' then some (quotes '"' source) else lineContent source
  | [] => none

def literalLines : List Char → Option Lexeme
  | source@(c :: _) => if c == '\'' then some (quotes '\'' source) else lineContent source
  | [] => none

/-- Reads a text on one line. -/
def scanLine : List Char → Option (String × List Char)
  | '"' :: rest => collect basicLine 0 rest []
  | '\'' :: rest => collect literalLine 0 rest []
  | _ => none

/-- Reads a text in any of the four kinds. A newline right after the opening of a text of several
lines does not belong to it. -/
def scanText : List Char → Option (String × List Char)
  | '"' :: '"' :: '"' :: rest => collect basicLines 0 ((newline? rest).getD rest) []
  | '\'' :: '\'' :: '\'' :: rest => collect literalLines 0 ((newline? rest).getD rest) []
  | source => scanLine source

end GuestMachine.Toml

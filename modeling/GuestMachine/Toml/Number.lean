import GuestMachine.Toml.Parser
import GuestMachine.Toml.Text
import GuestMachine.Toml.Value

/-!
# Numbers and dates

Integers in four radices, of which only decimal ones take a sign, floats, and dates with times. An
integer has 64 bits with sign. A float that rounds to positive infinity is refused; a date has to
exist in the calendar. Underscores may stand between digits, except in dates.
-/

namespace GuestMachine.Toml

open GuestMachine.Toml.Parser

/-! ## Digits -/

/-- Takes digits, between which single underscores may stand. -/
def splitDigits (isDigit : Char → Bool) : List Char → List Char × List Char
  | [] => ([], [])
  | c :: rest =>
    if isDigit c then
      let (digits, rest) := splitDigits isDigit rest
      (c :: digits, rest)
    else if c = '_' ∧ rest.head?.any isDigit then
      splitDigits isDigit rest
    else
      ([], c :: rest)

/-- Takes at least one digit. -/
def scanDigits (isDigit : Char → Bool) : Parser (List Char) := fun source ↦
  if source.head?.any isDigit then some (splitDigits isDigit source) else none

/-- Takes a sign, if there is one, and says whether it is a minus. -/
def scanSign : Parser Bool := do
  if ← accept '-' then return true
  let _ ← accept '+'
  return false

/-- Takes a decimal number without superfluous zeros. -/
def scanDecimal : Parser (List Char) := do
  if ← accept '0' then return ['0']
  scanDigits Char.isDigit

/-! ## Integers -/

/-- A number as an integer, if it fits. -/
def integer? (value : Int) : Option Value :=
  if Int64.minValue.toInt ≤ value ∧ value ≤ Int64.maxValue.toInt then some (.integer value)
  else none

def radixOf? : List Char → Option (Nat × (Char → Bool) × List Char)
  | '0' :: 'x' :: rest => some (16, isHexDigit, rest)
  | '0' :: 'o' :: rest => some (8, fun c ↦ decide ('0' ≤ c) && decide (c ≤ '7'), rest)
  | '0' :: 'b' :: rest => some (2, fun c ↦ c == '0' || c == '1', rest)
  | _ => none

/-! ## Floats -/

/-- Half a unit above the largest float: what reaches it rounds to infinity. -/
def overflowBound : Nat := 1 <<< 1024 - 1 <<< 970

/-- Whether `mantissa * 10 ^ exponent` rounds to infinity. Far from the bound the number of digits
decides. -/
def overflows (mantissa : Nat) (exponent : Int) : Bool :=
  let digits : Int := (Nat.toDigits 10 mantissa).length
  if mantissa = 0 ∨ digits + exponent ≤ 308 then false
  else if digits + exponent ≥ 310 then true
  else decide (overflowBound * Nat.pow 10 (-exponent).toNat ≤ mantissa * Nat.pow 10 exponent.toNat)

/-- Takes the digits after a point, if there is one. -/
def scanFraction : Parser (Option (List Char)) := do
  if ← accept '.' then some <$> scanDigits Char.isDigit else return none

def scanExponent : Parser (Option Int) := do
  if ← acceptIf fun c ↦ c == 'e' || c == 'E' then
    let minus ← scanSign
    let value : Int := numberOf 10 (← scanDigits Char.isDigit)
    return some (if minus then -value else value)
  else
    return none

/-- Takes a decimal integer or a float. -/
def scanNumber : Parser Value := do
  let minus ← scanSign
  match ← peek? with
  | some 'i' =>
    for c in ['i', 'n', 'f'] do expect c
    return .float
  | some 'n' =>
    for c in ['n', 'a', 'n'] do expect c
    return .float
  | _ =>
    let digits ← scanDecimal
    let fraction ← scanFraction
    let exponent ← scanExponent
    if fraction.isNone && exponent.isNone then
      let value : Int := numberOf 10 digits
      integer? (if minus then -value else value)
    else
      let places := fraction.getD []
      if !minus && overflows (numberOf 10 (digits ++ places)) (exponent.getD 0 - places.length) then
        failure
      else
        return .float

/-! ## Dates and times -/

/-- Takes exactly `count` digits. -/
def scanField : (count : Nat) → Parser (List Char)
  | 0 => return []
  | count + 1 => do return (← one Char.isDigit) :: (← scanField count)

/-- Takes a number of exactly `count` digits that lies in a range. -/
def scanWithin (count lowest highest : Nat) : Parser Unit := do
  let value := numberOf 10 (← scanField count)
  guard (lowest ≤ value ∧ value ≤ highest)

def isLeapYear (year : Nat) : Bool :=
  year % 4 == 0 && (year % 100 != 0 || year % 400 == 0)

def daysIn (year month : Nat) : Nat :=
  match month with
  | 2 => if isLeapYear year then 29 else 28
  | 4 | 6 | 9 | 11 => 30
  | _ => 31

def scanDate : Parser Unit := do
  let year := numberOf 10 (← scanField 4)
  expect '-'
  let month := numberOf 10 (← scanField 2)
  guard (1 ≤ month ∧ month ≤ 12)
  expect '-'
  scanWithin 2 1 (daysIn year month)

/-- Takes a time of day, which may be that of a leap second. -/
def scanTime : Parser Unit := do
  scanWithin 2 0 23
  expect ':'
  scanWithin 2 0 59
  expect ':'
  scanWithin 2 0 60
  if ← accept '.' then
    let _ ← one Char.isDigit
    let _ ← takeWhile Char.isDigit

def scanOffset : Parser Unit := do
  if ← acceptIf fun c ↦ c == 'Z' || c == 'z' then return
  if ← acceptIf fun c ↦ c == '+' || c == '-' then
    scanWithin 2 0 23
    expect ':'
    scanWithin 2 0 59

/-- Whether exactly `count` digits and then the given mark come next. -/
def startsWithField (count : Nat) (mark : Char) (source : List Char) : Bool :=
  (source.takeWhile Char.isDigit).length == count && source[count]? == some mark

def startsWithTime (source : List Char) : Bool := startsWithField 2 ':' source

/-- Takes the time after a date, if there is one. -/
def scanTimeAfterDate : Parser Unit := do
  match ← get with
  | c :: rest =>
    if (c == 'T' || c == 't' || c == ' ') && startsWithTime rest then
      set rest
      scanTime
      scanOffset
  | [] => return

def scanDateTime : Parser Value := do
  if startsWithTime (← get) then
    scanTime
  else
    scanDate
    scanTimeAfterDate
  return .dateTime

/-! ## Numbers and dates -/

def scanNumeral : Parser Value := do
  let source ← get
  if startsWithTime source || startsWithField 4 '-' source then
    scanDateTime
  else
    match radixOf? source with
    | some (radix, isDigit, rest) =>
      set rest
      integer? (numberOf radix (← scanDigits isDigit))
    | none => scanNumber

end GuestMachine.Toml

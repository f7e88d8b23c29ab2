import GuestMachine.Config.Settings

/-!
# Command line arguments

An argument is a name, a word or neither, which its form alone decides. Options take a value, in the
word after their name or after an equals sign; flags take none. Each may be given once, under any of
its names. Nothing else may be given, but two dashes may end the arguments. A request for help
counts wherever it stands before them and makes all other mistakes irrelevant.
-/

namespace GuestMachine

/-- An argument by its form. -/
inductive Argument where
  /-- The name of an option or a flag, with the value that is attached to it. -/
  | named (name : String) (value : Option String)
  /-- Several letters after one dash, which cannot be told apart. -/
  | letters
  /-- Two dashes. -/
  | close
  /-- A value for the name before it. -/
  | word (text : String)
  deriving DecidableEq, Repr

namespace Argument

/-- Cuts an argument at its first equals sign. -/
def splitValue (text : String) : String × Option String :=
  let source := text.toList
  let name := String.ofList (source.takeWhile (· != '='))
  match source.dropWhile (· != '=') with
  | _ :: value => (name, some (String.ofList value))
  | [] => (name, none)

/-- What follows one dash. A letter that is written in one byte takes all behind it as its value if
there is an equals sign; a longer letter makes a word of it. A letter alone is a name. -/
def ofLetters (letter : Char) (rest : List Char) : Argument :=
  let name := String.ofList ['-', letter]
  if rest.isEmpty then .named name none
  else if !rest.contains '=' then .letters
  else if letter.utf8Size = 1 then .named name (some (String.ofList rest))
  else .word (String.ofList ('-' :: letter :: rest))

def ofText (text : String) : Argument :=
  match text.toList with
  | ['-', '-'] => .close
  | '-' :: '-' :: _ =>
    let (name, value) := splitValue text
    .named name value
  | '-' :: letter :: rest => ofLetters letter rest
  | _ => .word text

/-- Whether an argument asks for help or for the version. -/
def isHelp : Argument → Bool
  | named name _ => ["--help", "--version", "-h", "-V"].contains name
  | _ => false

end Argument

structure Arguments where
  configFile : Option String := none
  settings : Settings := {}
  deriving DecidableEq, Repr, Inhabited

inductive ArgumentError where
  | help
  | usage
  deriving DecidableEq, Repr

namespace Arguments

/-! ## Values -/

/-- Reads a number of decimal digits after an optional plus sign. -/
def readNat? (text : String) : Option Nat :=
  let digits :=
    match text.toList with
    | '+' :: rest => rest
    | source => source
  if !digits.isEmpty && digits.all Char.isDigit then
    some (digits.foldl (fun n c ↦ n * 10 + (c.toNat - '0'.toNat)) 0)
  else
    none

/-- Reads a number from zero up to, but not including, `bound`. -/
def readBelow? (bound : Nat) (text : String) : Option Nat :=
  (readNat? text).filter fun n ↦ decide (n < bound)

def readUInt32? (text : String) : Option UInt32 := UInt32.ofNat <$> readBelow? UInt32.size text

/-- Fills a slot that is still empty. -/
def fill {α : Type} (slot value : Option α) : Option (Option α) :=
  if slot.isSome then none else some <$> value

/-! ## Options and flags -/

/-- Takes note of an option with its value. -/
def setOption (arguments : Arguments) (name text : String) : Option Arguments := do
  let settings := arguments.settings
  match name with
  | "--config_file" | "--configfile" =>
    return { arguments with configFile := ← fill arguments.configFile (some text) }
  | "--image" =>
    return { arguments with settings.image := ← fill settings.image (some text) }
  | "--load-address" =>
    return { arguments with
      settings.loadAddress := ← fill settings.loadAddress (readUInt32? text) }
  | "--mode" =>
    return { arguments with settings.mode := ← fill settings.mode (Mode.ofText? text) }
  | "--max-blocks" =>
    return { arguments with
      settings.maxBlocks := ← fill settings.maxBlocks (readBelow? UInt64.size text) }
  | "--block-limit" =>
    return { arguments with
      settings.blockLimit := ← fill settings.blockLimit (readBelow? UInt64.size text) }
  | "--hot-threshold" =>
    return { arguments with
      settings.hotThreshold := ← fill settings.hotThreshold (readUInt32? text) }
  | "--unimplemented-segments" =>
    return { arguments with
      settings.unimplementedSegments := ←
        fill settings.unimplementedSegments (DescriptorPolicy.ofText? text) }
  | "--timer-period" =>
    return { arguments with
      settings.timerPeriod := ← fill settings.timerPeriod (readBelow? UInt64.size text) }
  | "--trace_file" | "--tracefile" =>
    return { arguments with settings.traceFile := ← fill settings.traceFile (some text) }
  | _ => none

/-- Takes note of a flag, if that is what the name means. -/
def setFlag? (arguments : Arguments) (name : String) : Option (Option Arguments) :=
  let raise (flag : Bool) (raised : Arguments) : Option Arguments :=
    if flag then none else some raised
  match name with
  | "--code32" =>
    some (raise arguments.settings.code32 { arguments with settings.code32 := true })
  | "--trace-console" =>
    some (raise arguments.settings.traceConsole { arguments with settings.traceConsole := true })
  | _ => none

/-! ## The command line -/

def read : List Argument → Arguments → Option Arguments
  | [], arguments => some arguments
  | [.close], arguments => some arguments
  | .named name (some value) :: rest, arguments => do
    read rest (← arguments.setOption name value)
  | .named name none :: rest, arguments =>
    match arguments.setFlag? name with
    | some raised => do read rest (← raised)
    | none =>
      match rest with
      | .word value :: rest => do read rest (← arguments.setOption name value)
      | _ => none
  | _, _ => none

/-- What a command line asks for. -/
def parse (commandLine : List String) : Except ArgumentError Arguments :=
  let given := commandLine.map Argument.ofText
  if (given.takeWhile (· ≠ .close)).any Argument.isHelp then
    .error .help
  else
    match read given {} with
    | some arguments => .ok arguments
    | none => .error .usage

end Arguments

end GuestMachine

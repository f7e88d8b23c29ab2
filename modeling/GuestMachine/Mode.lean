/-!
# Processor modes

The three modes a guest instruction stream can be read in, and the operand size each of them
starts from. Only protected mode takes its default size from the code segment.
-/

namespace GuestMachine

/-- The processor mode that guest code is decoded for. -/
inductive Mode where
  | real
  | protectedMode
  | virtual8086
  deriving DecidableEq, Repr, Inhabited

namespace Mode

def name : Mode → String
  | real => "Real"
  | protectedMode => "Protected"
  | virtual8086 => "Virtual8086"

def text : Mode → String
  | real => "real"
  | protectedMode => "protected"
  | virtual8086 => "v86"

/-- The letter that stands for the mode in a trace. -/
def letter : Mode → Char
  | real => 'R'
  | protectedMode => 'P'
  | virtual8086 => 'V'

/-- Reads a mode as a user writes it: in any case, and virtual-8086 under either name. -/
def ofText? (text : String) : Option Mode :=
  match text.map Char.toLower with
  | "real" => some real
  | "protected" => some protectedMode
  | "v86" | "virtual8086" => some virtual8086
  | _ => none

/-- Whether operands are 32 bits wide by default, given the size flag of the code segment. -/
def defaultSize32 (mode : Mode) (codeSize32 : Bool) : Bool :=
  match mode with
  | protectedMode => codeSize32
  | real | virtual8086 => false

end Mode

end GuestMachine

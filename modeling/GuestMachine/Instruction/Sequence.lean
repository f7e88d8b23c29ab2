import GuestMachine.Instruction.Decode

/-!
# Instruction sequences

A block of code is a sequence of instructions, decoded one after another up to the first that ends
a block. An instruction that holds off interrupts belongs together with its successor: it is the
last of a sequence only if it is the only one.
-/

namespace GuestMachine

namespace Instruction

/-- How decoding a sequence ended: what was decoded, latest first, and the error that cut it off. -/
structure Run where
  latestFirst : List Instruction
  cut : Option RangeError
  cursor : Cursor

/-- Decodes at most `room` further instructions, up to the first that ends a block. A last one that
holds off interrupts is not taken unless it stands alone. -/
def run (mode : Mode) (size32 : Bool) : Nat → List Instruction → Cursor → Run
  | 0, taken, cursor => ⟨taken, none, cursor⟩
  | room + 1, taken, cursor =>
    match decode mode size32 cursor with
    | .error reason cursor => ⟨taken, some reason, cursor⟩
    | .ok instruction cursor =>
      if instruction.flow.isShadow && room == 0 && !taken.isEmpty then
        ⟨taken, none, cursor⟩
      else if instruction.flow.isTerminator then
        ⟨instruction :: taken, none, cursor⟩
      else
        run mode size32 room (instruction :: taken) cursor

/-- Drops instructions that hold off interrupts from the end, latest first, but keeps one. -/
def dropShadows : List Instruction → List Instruction
  | last :: previous :: earlier =>
    if last.flow.isShadow then dropShadows (previous :: earlier) else last :: previous :: earlier
  | short => short

/-- Decodes the instructions of one block, at most `limit` and at least one of them. It fails if
the region ends within the first instruction, or within the successor of a first instruction that
holds off interrupts. -/
def decodeBlock (mode : Mode) (size32 : Bool) (limit : Nat) : Scan (List Instruction) :=
  fun cursor ↦
    let result := run mode size32 (max limit 1) [] cursor
    match result.latestFirst, result.cut with
    | [], some reason => .error reason result.cursor
    | [only], some reason =>
      if only.flow.isShadow then .error reason result.cursor else .ok [only] result.cursor
    | taken, _ => .ok (dropShadows taken).reverse result.cursor

end Instruction

end GuestMachine

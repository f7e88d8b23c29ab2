/-!
# Hexadecimal text

Natural numbers as hexadecimal digits, most significant first. Upper-case digits appear in
addresses and error codes, lower-case pairs in digests. Padding only ever adds zeros on the left,
so a number that is wider than its field is written in full.
-/

namespace GuestMachine.Hex

/-- The upper-case digits of a number, without leading zeros. -/
def digits (n : Nat) : List Char := (Nat.toDigits 16 n).map Char.toUpper

/-- The digits of a number, filled with zeros up to `width`. -/
def padded (width n : Nat) : String :=
  let ds := digits n
  String.ofList (List.replicate (width - ds.length) '0' ++ ds)

/-- A number with its base mark and at least `width` digits. -/
def marked (width n : Nat) : String := "0x" ++ padded width n

/-- A byte as two lower-case digits. -/
def pair (byte : UInt8) : List Char :=
  [Nat.digitChar (byte.toNat / 16), Nat.digitChar (byte.toNat % 16)]

/-- Bytes as lower-case digit pairs. -/
def ofBytes (bytes : List UInt8) : String := String.ofList (bytes.flatMap pair)

end GuestMachine.Hex

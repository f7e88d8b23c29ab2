import GuestMachine.Text.Hex

/-!
# Numbers in text and text in bytes

A number can be read back from its digits, and zeros on the left do not change what is read. Digits
are letters and decimal digits, so that a space or the end of a line ends a number. The bytes of text
that is put together are those of its parts.
-/

namespace GuestMachine

namespace Hex

/-! ## Reading digits -/

/-- The value of an upper-case digit. -/
def digitValue (c : Char) : Nat :=
  if c.isDigit then c.toNat - '0'.toNat else c.toNat - 'A'.toNat + 10

/-- The number that digits stand for, most significant first. -/
def valueOf (digits : List Char) : Nat := digits.foldl (fun n c ↦ 16 * n + digitValue c) 0

theorem digitValue_toUpper_digitChar :
    ∀ digit < 16, digitValue (Nat.digitChar digit).toUpper = digit := by decide

theorem valueOf_digits (n : Nat) : valueOf (digits n) = n := by
  induction n using Nat.strongRecOn with
  | _ n ih =>
    rw [digits, Nat.toDigits_eq_if (by decide)]
    split
    · next hsmall =>
      simp [valueOf, digitValue_toUpper_digitChar n hsmall]
    · next hlarge =>
      have hhigh := ih (n / 16) (by omega)
      rw [digits, valueOf] at hhigh
      rw [List.map_append, valueOf, List.foldl_append, hhigh]
      simp only [List.map_cons, List.map_nil, List.foldl_cons, List.foldl_nil,
        digitValue_toUpper_digitChar (n % 16) (Nat.mod_lt n (by decide))]
      omega

theorem valueOf_replicate_append (zeros : Nat) (digits : List Char) :
    valueOf (List.replicate zeros '0' ++ digits) = valueOf digits := by
  induction zeros with
  | zero => rfl
  | succ zeros ih =>
    rw [List.replicate_succ, List.cons_append, ← ih]
    rfl

theorem valueOf_padded (width n : Nat) : valueOf (padded width n).toList = n := by
  rw [padded, String.toList_ofList, valueOf_replicate_append, valueOf_digits]

/-- Padding leaves numbers apart. -/
theorem padded_injective (width : Nat) : Function.Injective (padded width) := by
  intro left right hsame
  rw [← valueOf_padded width left, hsame, valueOf_padded]

/-! ## Characters of numbers -/

theorem isAlphanum_toUpper_digitChar :
    ∀ digit < 16, (Nat.digitChar digit).toUpper.isAlphanum = true := by decide

theorem isAlphanum_of_mem_digits {c : Char} {n : Nat} (hc : c ∈ digits n) :
    c.isAlphanum = true := by
  induction n using Nat.strongRecOn with
  | _ n ih =>
    rw [digits, Nat.toDigits_eq_if (by decide)] at hc
    split at hc
    · next hsmall =>
      obtain rfl := List.mem_singleton.mp hc
      exact isAlphanum_toUpper_digitChar n hsmall
    · next hlarge =>
      rw [List.map_append, List.mem_append] at hc
      rcases hc with hhigh | hlow
      · exact ih (n / 16) (by omega) hhigh
      · obtain rfl := List.mem_singleton.mp hlow
        exact isAlphanum_toUpper_digitChar (n % 16) (Nat.mod_lt n (by decide))

theorem isAlphanum_of_mem_padded {c : Char} {width n : Nat} (hc : c ∈ (padded width n).toList) :
    c.isAlphanum = true := by
  rw [padded, String.toList_ofList, List.mem_append] at hc
  rcases hc with hzero | hdigit
  · rw [List.eq_of_mem_replicate hzero]
    rfl
  · exact isAlphanum_of_mem_digits hdigit

theorem not_mem_padded {c : Char} (hc : c.isAlphanum = false) (width n : Nat) :
    c ∉ (padded width n).toList := by
  intro hmem
  rw [isAlphanum_of_mem_padded hmem] at hc
  cases hc

end Hex

namespace Decimal

/-- The decimal digits of a number. -/
def digits (n : Nat) : List Char := Nat.toDigits 10 n

theorem toList_toString (n : Nat) : (toString n).toList = digits n := by
  rw [Nat.toString_eq_ofList_toDigits, String.toList_ofList, digits]

theorem digits_injective : Function.Injective digits := by
  intro left right hsame
  rw [← Nat.ofDigitChars_ten_toDigits (n := left), ← digits, hsame, digits,
    Nat.ofDigitChars_ten_toDigits]

theorem not_mem_digits {c : Char} (hc : c.isAlphanum = false) (n : Nat) : c ∉ digits n := by
  intro hmem
  have hdigit : c.isDigit = true := Nat.isDigit_of_mem_toDigits (by decide) (by decide) hmem
  rw [Char.isAlphanum, hdigit, Bool.or_true] at hc
  cases hc

end Decimal

/-! ## Bytes of text -/

theorem byteList_loop_eq (bytes : ByteArray) (start : Nat) (taken : List UInt8) :
    ByteArray.toList.loop bytes start taken = taken.reverse ++ bytes.data.toList.drop start := by
  induction start, taken using ByteArray.toList.loop.induct bytes with
  | case1 start taken hstart ih =>
    have hdata : start < bytes.data.toList.length := hstart
    have hbyte : bytes.get! start = bytes.data.toList[start] := by
      rw [Array.getElem_toList]
      exact getElem!_pos bytes.data start hstart
    rw [ByteArray.toList.loop, if_pos hstart, ih, List.reverse_cons, List.append_assoc,
      List.singleton_append, List.drop_eq_getElem_cons hdata, hbyte]
  | case2 start taken hstart =>
    have hdata : bytes.data.toList.length ≤ start := Nat.le_of_not_lt hstart
    rw [ByteArray.toList.loop, if_neg hstart, List.drop_eq_nil_of_le hdata, List.append_nil]

theorem byteList_eq (bytes : ByteArray) : bytes.toList = bytes.data.toList := by
  rw [ByteArray.toList, byteList_loop_eq, List.reverse_nil, List.nil_append, List.drop_zero]

theorem toList_toUTF8_append (left right : String) :
    (left ++ right).toUTF8.toList = left.toUTF8.toList ++ right.toUTF8.toList := by
  simp only [String.toUTF8_eq_toByteArray, String.toByteArray_append, byteList_eq,
    ByteArray.toList_data_append]

end GuestMachine

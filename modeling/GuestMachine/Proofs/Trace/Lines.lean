import GuestMachine.CommandLine
import GuestMachine.Proofs.Text.Encoding
import Mathlib.Data.List.Basic

/-!
# Lines of a trace

The line of a record is made of words with a space between them. No word that stands for a number, a
mode or a tier has a space in it, so that the words can be told from the line and the record from its
words. A note is free text, but its line starts with a letter of its own. Lines that are ended by
newlines can be told from the text that they make up if no note has a newline.
-/

namespace GuestMachine

/-! ## Words -/

theorem Mode.letter_injective : Function.Injective letter := by
  intro left right hsame
  cases left <;> cases right <;> first | rfl | exact absurd hsame (by decide)

theorem Tier.text_injective : Function.Injective text := by
  intro left right hsame
  cases left <;> cases right <;> first | rfl | exact absurd hsame (by decide)

/-- Only letters and digits occur in the names of modes and tiers. -/
theorem Mode.ne_letter {c : Char} (hc : c.isAlphanum = false) (mode : Mode) : c ≠ mode.letter := by
  rintro rfl
  cases mode <;> exact absurd hc (by decide)

theorem Tier.not_mem_text {c : Char} (hc : c.isAlphanum = false) (tier : Tier) :
    c ∉ tier.text.toList := by
  have halphanum : ∀ c ∈ tier.text.toList, c.isAlphanum = true := by
    cases tier <;> simp [Tier.text]
  intro hmem
  rw [halphanum c hmem] at hc
  cases hc

namespace TraceRecord

/-- The words of the line of a record. -/
def words : TraceRecord → List (List Char)
  | block mode start length count tier =>
    [['B'], [mode.letter], (Hex.padded 8 start).toList, '+' :: Decimal.digits length,
      'n' :: '=' :: Decimal.digits count, tier.text.toList]
  | spanning mode start =>
    [['B'], [mode.letter], (Hex.padded 8 start).toList, "spanning".toList]
  | timer event =>
    [['T'], Decimal.digits event.id, "owner=".toList ++ Decimal.digits event.owner,
      "expiry=".toList ++ Decimal.digits event.expiry,
      "now=".toList ++ Decimal.digits event.now]
  | note text => ['N'] :: text.toList.splitOn ' '

/-- The line of a record is its words with spaces between them. -/
theorem text_toList (record : TraceRecord) :
    record.text.toList = [' '].intercalate record.words := by
  cases record with
  | block mode start length count tier =>
    simp [text, words, List.intercalate, ← Decimal.toList_toString]
  | spanning mode start => simp [text, words, List.intercalate]
  | timer event => simp [text, words, List.intercalate, ← Decimal.toList_toString]
  | note text =>
    rw [words, List.intercalate_cons_of_ne_nil (List.splitOn_ne_nil _ _), List.intercalate_splitOn]
    simp [TraceRecord.text]

/-- Splitting the line at its spaces gives back the words. -/
theorem splitOn_text (record : TraceRecord) : record.text.toList.splitOn ' ' = record.words := by
  have hdecimal (n : Nat) : ' ' ∉ Decimal.digits n := Decimal.not_mem_digits rfl n
  have hhex (n : Nat) : ' ' ∉ (Hex.padded 8 n).toList := Hex.not_mem_padded rfl 8 n
  have hmode (mode : Mode) : ' ' ≠ mode.letter := Mode.ne_letter rfl mode
  have htier (tier : Tier) : ' ' ∉ tier.text.toList := Tier.not_mem_text rfl tier
  rw [text_toList]
  cases record with
  | block mode start length count tier =>
    apply List.splitOn_intercalate
    · simp [words, hdecimal, hhex, hmode, htier]
    · simp [words]
  | spanning mode start =>
    apply List.splitOn_intercalate
    · simp [words, hhex, hmode]
    · simp [words]
  | timer event =>
    apply List.splitOn_intercalate
    · simp [words, hdecimal]
    · simp [words]
  | note text =>
    have hletter : ' ' ∉ ['N'] := by decide
    rw [words, List.intercalate_cons_of_ne_nil (List.splitOn_ne_nil _ _), List.intercalate_splitOn,
      List.append_assoc]
    exact List.splitOn_append_cons_self_of_not_mem hletter text.toList

/-- The first word says what kind of record it is, and the number of words tells a block from a
stub. -/
theorem words_injective : Function.Injective words := by
  intro left right hsame
  cases left <;> cases right
  case block.block mode start length count tier mode' start' length' count' tier' =>
    simp only [words, List.cons.injEq, and_true, true_and, String.toList_inj] at hsame
    obtain ⟨hmode, hstart, hlength, hcount, htier⟩ := hsame
    rw [Mode.letter_injective hmode, Hex.padded_injective 8 hstart,
      Decimal.digits_injective hlength, Decimal.digits_injective hcount,
      Tier.text_injective htier]
  case spanning.spanning mode start mode' start' =>
    simp only [words, List.cons.injEq, and_true, true_and, String.toList_inj] at hsame
    obtain ⟨hmode, hstart⟩ := hsame
    rw [Mode.letter_injective hmode, Hex.padded_injective 8 hstart]
  case timer.timer event event' =>
    obtain ⟨id, owner, expiry, now⟩ := event
    obtain ⟨id', owner', expiry', now'⟩ := event'
    simp only [words, List.cons.injEq, List.append_cancel_left_eq, and_true, true_and] at hsame
    obtain ⟨hid, howner, hexpiry, hnow⟩ := hsame
    rw [Decimal.digits_injective hid, Decimal.digits_injective howner,
      Decimal.digits_injective hexpiry, Decimal.digits_injective hnow]
  case note.note text text' =>
    simp only [words, List.cons.injEq, true_and] at hsame
    have hchars := congrArg [' '].intercalate hsame
    rw [List.intercalate_splitOn, List.intercalate_splitOn] at hchars
    rw [String.toList_inj.mp hchars]
  all_goals simp [words] at hsame

theorem text_injective : Function.Injective text := by
  intro left right hsame
  apply words_injective
  rw [← splitOn_text, hsame, splitOn_text]

/-! ## Lines -/

/-- Free text takes up one line. -/
def IsOneLine : TraceRecord → Prop
  | note text => '\n' ∉ text.toList
  | _ => True

theorem newline_not_mem_text {record : TraceRecord} (hline : record.IsOneLine) :
    '\n' ∉ record.text.toList := by
  have hdecimal (n : Nat) : '\n' ∉ Nat.toDigits 10 n := Decimal.not_mem_digits rfl n
  have hhex (n : Nat) : '\n' ∉ (Hex.padded 8 n).toList := Hex.not_mem_padded rfl 8 n
  have hmode (mode : Mode) : '\n' ≠ mode.letter := Mode.ne_letter rfl mode
  have htier (tier : Tier) : '\n' ∉ tier.text.toList := Tier.not_mem_text rfl tier
  cases record with
  | block mode start length count tier => simp [text, hdecimal, hhex, hmode, htier]
  | spanning mode start => simp [text, hhex, hmode]
  | timer event => simp [text, hdecimal]
  | note text =>
    have htext : '\n' ∉ text.toList := hline
    simp [TraceRecord.text, htext]

/-- The lines of records, each ended by a newline, as they stand in a file. -/
def document (records : List TraceRecord) : String := CommandLine.joinLines (records.map text)

theorem document_cons (record : TraceRecord) (rest : List TraceRecord) :
    document (record :: rest) = record.text ++ "\n" ++ document rest := by
  simp [document, CommandLine.joinLines]

/-- Splitting a document at its newlines gives back the lines, and nothing behind the last one. -/
theorem splitOn_document {records : List TraceRecord}
    (hlines : ∀ record ∈ records, record.IsOneLine) :
    (document records).toList.splitOn '\n' =
      records.map (fun record ↦ record.text.toList) ++ [[]] := by
  induction records with
  | nil => rfl
  | cons record rest ih =>
    have hrest := ih fun other hother ↦ hlines other (List.mem_cons_of_mem _ hother)
    have hnewline := newline_not_mem_text (hlines record List.mem_cons_self)
    rw [document_cons, String.toList_append, String.toList_append, List.append_assoc]
    change List.splitOn '\n' (record.text.toList ++ '\n' :: (document rest).toList) = _
    rw [List.splitOn_append_cons_self_of_not_mem hnewline, hrest, List.map_cons, List.cons_append]

/-- Records can be told from the text of their lines. -/
theorem eq_of_document_eq {left right : List TraceRecord}
    (hleft : ∀ record ∈ left, record.IsOneLine) (hright : ∀ record ∈ right, record.IsOneLine)
    (hsame : document left = document right) : left = right := by
  have hlines := congrArg (fun text : String ↦ text.toList.splitOn '\n') hsame
  simp only [splitOn_document hleft, splitOn_document hright, List.append_cancel_right_eq] at hlines
  refine List.map_injective_iff.mpr ?_ hlines
  intro one other hchars
  exact text_injective (String.toList_inj.mp hchars)

/-! ## Bytes -/

/-- The bytes of a document are the bytes that its records were digested as. -/
theorem toList_toUTF8_document (records : List TraceRecord) :
    (document records).toUTF8.toList = records.flatMap bytes := by
  induction records with
  | nil =>
    rw [byteList_eq]
    rfl
  | cons record rest ih =>
    have hnewline : "\n".toUTF8.toList = [0x0A] := by
      rw [byteList_eq]
      rfl
    rw [document_cons, toList_toUTF8_append, toList_toUTF8_append, hnewline, ih, List.flatMap_cons,
      bytes]

end TraceRecord

end GuestMachine

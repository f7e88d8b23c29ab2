import GuestMachine.Text.Digest

/-!
# Digests of messages that arrive byte by byte

A stream holds the chaining value of the complete blocks of what has arrived and the bytes behind
them. Its digest is therefore the digest of the message as a whole, however often it was read off
before.
-/

namespace GuestMachine.Digest

/-! ## Folding blocks -/

-- Stated by hand, because the search for equations of the definition runs compressions.
theorem foldBlocks_zero (message : List UInt8) (words : Words) :
    foldBlocks 0 message words = words := rfl

theorem foldBlocks_first (count : Nat) (message : List UInt8) (words : Words) :
    foldBlocks (count + 1) message words = foldBlocks count (message.drop blockSize)
      (words.compress (message.take blockSize).toArray) := by
  delta foldBlocks
  with_reducible rfl

/-- Bytes behind the blocks that are folded do not matter. -/
theorem foldBlocks_append {count : Nat} {message : List UInt8}
    (hcount : count * blockSize ≤ message.length) (rest : List UInt8) (words : Words) :
    foldBlocks count (message ++ rest) words = foldBlocks count message words := by
  induction count generalizing message words with
  | zero => rw [foldBlocks_zero, foldBlocks_zero]
  | succ count ih =>
    have hblock : blockSize ≤ message.length := by
      rw [Nat.succ_mul] at hcount
      omega
    have hrest : count * blockSize ≤ (message.drop blockSize).length := by
      rw [Nat.succ_mul] at hcount
      rw [List.length_drop]
      omega
    rw [foldBlocks_first, foldBlocks_first, List.take_append_of_le_length hblock,
      List.drop_append_of_le_length hblock, ih hrest]

/-- The last block is folded after all before it. -/
theorem foldBlocks_last (count : Nat) (message : List UInt8) (words : Words) :
    foldBlocks (count + 1) message words =
      (foldBlocks count message words).compress
        ((message.drop (count * blockSize)).take blockSize).toArray := by
  induction count generalizing message words with
  | zero => rw [foldBlocks_first, foldBlocks_zero, foldBlocks_zero, Nat.zero_mul, List.drop_zero]
  | succ count ih =>
    rw [foldBlocks_first, ih, foldBlocks_first, List.drop_drop, Nat.succ_mul,
      Nat.add_comm blockSize]

/-! ## Streams -/

namespace Stream

/-- A stream that has received a message: its complete blocks are folded, the rest is pending. -/
structure Holds (stream : Stream) (message : List UInt8) : Prop where
  words : stream.words = foldBlocks (message.length / blockSize) message .initial
  pending : stream.pending.toList = message.drop (message.length / blockSize * blockSize)
  length : stream.length = message.length

theorem holds_empty : empty.Holds [] where
  words := by rw [List.length_nil, Nat.zero_div, foldBlocks_zero, empty]
  pending := by rw [List.drop_nil, empty]
  length := rfl

theorem Holds.push {stream : Stream} {message : List UInt8} (hholds : stream.Holds message)
    (byte : UInt8) : (stream.push byte).Holds (message ++ [byte]) := by
  have hbehind : message.length / blockSize * blockSize ≤ message.length :=
    Nat.div_mul_le_self _ _
  have hpending : (stream.pending.push byte).toList =
      (message ++ [byte]).drop (message.length / blockSize * blockSize) := by
    rw [Array.toList_push, hholds.pending, List.drop_append_of_le_length hbehind]
  have hsize : (stream.pending.push byte).size =
      message.length + 1 - message.length / blockSize * blockSize := by
    rw [← Array.length_toList, hpending, List.length_drop, List.length_append,
      List.length_singleton]
  have hwords : stream.words =
      foldBlocks (message.length / blockSize) (message ++ [byte]) .initial := by
    rw [hholds.words, foldBlocks_append hbehind]
  unfold Stream.push
  dsimp only
  split
  · next hfull =>
    have hcount : (message ++ [byte]).length / blockSize = message.length / blockSize + 1 := by
      rw [List.length_append, List.length_singleton]
      simp only [blockSize] at hsize hfull ⊢
      omega
    refine ⟨?_, ?_, ?_⟩
    · rw [hcount, foldBlocks_last, ← hwords, ← hpending, ← hfull, ← Array.length_toList,
        List.take_length, Array.toArray_toList]
    · rw [hcount, List.drop_eq_nil_of_le]
      rw [List.length_append, List.length_singleton]
      simp only [blockSize] at hsize hfull ⊢
      omega
    · rw [List.length_append, List.length_singleton, hholds.length]
  · next hpart =>
    have hcount : (message ++ [byte]).length / blockSize = message.length / blockSize := by
      rw [List.length_append, List.length_singleton]
      simp only [blockSize] at hsize hpart hbehind ⊢
      omega
    refine ⟨?_, ?_, ?_⟩
    · rw [hcount, hwords]
    · rw [hcount, hpending]
    · rw [List.length_append, List.length_singleton, hholds.length]

/-- What is appended to a stream is appended to its message. -/
theorem Holds.append {stream : Stream} {message : List UInt8} (hholds : stream.Holds message)
    (bytes : List UInt8) : (stream.append bytes).Holds (message ++ bytes) := by
  induction bytes generalizing stream message with
  | nil =>
    rw [List.append_nil]
    exact hholds
  | cons byte rest ih =>
    rw [Stream.append, List.foldl_cons, List.append_cons]
    exact ih (hholds.push byte)

/-- The digest of a stream is the digest of the message that has arrived. -/
theorem Holds.digest_eq {stream : Stream} {message : List UInt8}
    (hholds : stream.Holds message) : stream.digest = ofBytes message := by
  rw [digest, hholds.length, (hholds.append (padding message.length)).words, ofBytes]

end Stream

end GuestMachine.Digest

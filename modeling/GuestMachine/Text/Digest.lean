/-!
# Digests

The MD5 digest of a sequence of bytes, in two forms: of a message that is given whole, and of one
that arrives byte by byte. The second form keeps the bytes of the block that is not yet complete and
can be read off at any time.
-/

namespace GuestMachine.Digest

/-- The chaining value between blocks. -/
structure Words where
  a : UInt32
  b : UInt32
  c : UInt32
  d : UInt32
  deriving DecidableEq, Repr

def Words.initial : Words := ⟨0x67452301, 0xefcdab89, 0x98badcfe, 0x10325476⟩

/-- The integer parts of `2 ^ 32 * |sin (i + 1)|`. -/
def sines : Array UInt32 := #[
  0xd76aa478, 0xe8c7b756, 0x242070db, 0xc1bdceee,
  0xf57c0faf, 0x4787c62a, 0xa8304613, 0xfd469501,
  0x698098d8, 0x8b44f7af, 0xffff5bb1, 0x895cd7be,
  0x6b901122, 0xfd987193, 0xa679438e, 0x49b40821,
  0xf61e2562, 0xc040b340, 0x265e5a51, 0xe9b6c7aa,
  0xd62f105d, 0x02441453, 0xd8a1e681, 0xe7d3fbc8,
  0x21e1cde6, 0xc33707d6, 0xf4d50d87, 0x455a14ed,
  0xa9e3e905, 0xfcefa3f8, 0x676f02d9, 0x8d2a4c8a,
  0xfffa3942, 0x8771f681, 0x6d9d6122, 0xfde5380c,
  0xa4beea44, 0x4bdecfa9, 0xf6bb4b60, 0xbebfbc70,
  0x289b7ec6, 0xeaa127fa, 0xd4ef3085, 0x04881d05,
  0xd9d4d039, 0xe6db99e5, 0x1fa27cf8, 0xc4ac5665,
  0xf4292244, 0x432aff97, 0xab9423a7, 0xfc93a039,
  0x655b59c3, 0x8f0ccc92, 0xffeff47d, 0x85845dd1,
  0x6fa87e4f, 0xfe2ce6e0, 0xa3014314, 0x4e0811a1,
  0xf7537e82, 0xbd3af235, 0x2ad7d2bb, 0xeb86d391]

/-- The rotations, four for each group of sixteen steps. -/
def shifts : Array UInt32 := #[7, 12, 17, 22, 5, 9, 14, 20, 4, 11, 16, 23, 6, 10, 15, 21]

def rotate (word amount : UInt32) : UInt32 := word <<< amount ||| word >>> (32 - amount)

/-- One of the 64 steps on a block of sixteen words. -/
def Words.step (block : Array UInt32) (words : Words) (i : Nat) : Words :=
  let ⟨a, b, c, d⟩ := words
  let (mixed, index) :=
    match i / 16 with
    | 0 => ((b &&& c) ||| (~~~b &&& d), i)
    | 1 => ((d &&& b) ||| (~~~d &&& c), 5 * i + 1)
    | 2 => (b ^^^ c ^^^ d, 3 * i + 5)
    | _ => (c ^^^ (b ||| ~~~d), 7 * i)
  let sum := a + mixed + sines.getD i 0 + block.getD (index % 16) 0
  ⟨d, b + rotate sum (shifts.getD (i / 16 * 4 + i % 4) 0), b, c⟩

/-- The little-endian word at a position of a block. -/
def wordAt (block : Array UInt8) (index : Nat) : UInt32 :=
  let byte (i : Nat) : UInt32 := (block.getD (4 * index + i) 0).toUInt32
  byte 0 + byte 1 <<< 8 + byte 2 <<< 16 + byte 3 <<< 24

def blockSize : Nat := 64

/-- Folds a block of 64 bytes into the chaining value. -/
def Words.compress (words : Words) (block : Array UInt8) : Words :=
  let block := (Array.range 16).map (wordAt block)
  let mixed := (List.range 64).foldl (step block) words
  ⟨words.a + mixed.a, words.b + mixed.b, words.c + mixed.c, words.d + mixed.d⟩

/-- The low `count` bytes of a number, least significant first. -/
def bytesOf : (count n : Nat) → List UInt8
  | 0, _ => []
  | count + 1, n => UInt8.ofNat n :: bytesOf count (n / 256)

def Words.bytes (words : Words) : List UInt8 :=
  [words.a, words.b, words.c, words.d].flatMap fun word ↦ bytesOf 4 word.toNat

/-- What follows a message of the given length: a one bit, zeros to the end of a block less eight
bytes, and the length in bits. -/
def padding (length : Nat) : List UInt8 :=
  0x80 :: List.replicate ((119 - length % blockSize) % blockSize) 0 ++ bytesOf 8 (8 * length)

/-! ## Whole messages -/

/-- Folds the blocks of a padded message, whose number is given. -/
def foldBlocks : (count : Nat) → List UInt8 → Words → Words
  | 0, _, words => words
  | count + 1, message, words =>
    foldBlocks count (message.drop blockSize) (words.compress (message.take blockSize).toArray)

/-- The digest of a message. -/
def ofBytes (message : List UInt8) : List UInt8 :=
  let padded := message ++ padding message.length
  (foldBlocks (padded.length / blockSize) padded .initial).bytes

/-! ## Messages that arrive byte by byte -/

structure Stream where
  words : Words := .initial
  /-- The bytes of the block that is not yet complete. -/
  pending : Array UInt8 := #[]
  length : Nat := 0
  deriving DecidableEq, Repr

namespace Stream

def empty : Stream := {}

def push (stream : Stream) (byte : UInt8) : Stream :=
  let pending := stream.pending.push byte
  if pending.size = blockSize then
    ⟨stream.words.compress pending, #[], stream.length + 1⟩
  else
    ⟨stream.words, pending, stream.length + 1⟩

def append (stream : Stream) (bytes : List UInt8) : Stream := bytes.foldl push stream

/-- The digest of what has arrived so far. -/
def digest (stream : Stream) : List UInt8 := (stream.append (padding stream.length)).words.bytes

end Stream

end GuestMachine.Digest

/-
**The inline MD5.**

`crates/protocols/src/rtsp_server/auth.rs` has its own MD5: a state of four words, a count of the
bytes seen, and a buffer of one block that holds the bytes of an unfinished block.  The buffer is
never cleared; bytes of earlier blocks stay in it until they are overwritten.

Main definitions:

* `Md5`, `Md5.new`, `Md5.update`, `Md5.finalize` — the hasher;
* `Md5.processBlock` — the compression function;
* `Md5.md5Hash`, `Md5.md5Hex` — the hash of a byte string, and its hexadecimal text.
-/

import MibeeEye.ByteOrder

set_option relaxedAutoImplicit false
set_option autoImplicit false

/-! ### Blocks -/

/-- A block of 64 bytes. -/
abbrev Md5.Block : Type := { bytes : List UInt8 // bytes.length = 64 }

namespace Md5.Block

/-- Bytes are copied into a block at a position; what would stand past its end is left out. -/
def write (b : Block) (i : ℕ) (bytes : List UInt8) : Block :=
  ⟨(b.1.take i ++ bytes ++ b.1.drop (i + bytes.length)).take 64, by
    have := b.2
    simp only [List.length_take, List.length_append, List.length_drop]
    omega⟩

/-- The range of a block from `i` up to `j` is filled with zeros. -/
def fill (b : Block) (i j : ℕ) : Block := b.write i (List.replicate (j - i) 0)

/-- The sixteen little-endian words of a block. -/
def words (b : Block) : List UInt32 :=
  (List.range 16).map fun i => UInt32.ofNat (Wire.ofLe (Wire.slice b.1 (4 * i) (4 * i + 4)))

end Md5.Block

/-! ### The compression function -/

namespace Md5

/-- The four words of the state. -/
structure State where
  a : UInt32
  b : UInt32
  c : UInt32
  d : UInt32
  deriving DecidableEq, Repr

/-- The additive constants. -/
def K : List UInt32 := [
  0xd76aa478, 0xe8c7b756, 0x242070db, 0xc1bdceee, 0xf57c0faf, 0x4787c62a, 0xa8304613, 0xfd469501,
  0x698098d8, 0x8b44f7af, 0xffff5bb1, 0x895cd7be, 0x6b901122, 0xfd987193, 0xa679438e, 0x49b40821,
  0xf61e2562, 0xc040b340, 0x265e5a51, 0xe9b6c7aa, 0xd62f105d, 0x02441453, 0xd8a1e681, 0xe7d3fbc8,
  0x21e1cde6, 0xc33707d6, 0xf4d50d87, 0x455a14ed, 0xa9e3e905, 0xfcefa3f8, 0x676f02d9, 0x8d2a4c8a,
  0xfffa3942, 0x8771f681, 0x6d9d6122, 0xfde5380c, 0xa4beea44, 0x4bdecfa9, 0xf6bb4b60, 0xbebfbc70,
  0x289b7ec6, 0xeaa127fa, 0xd4ef3085, 0x04881d05, 0xd9d4d039, 0xe6db99e5, 0x1fa27cf8, 0xc4ac5665,
  0xf4292244, 0x432aff97, 0xab9423a7, 0xfc93a039, 0x655b59c3, 0x8f0ccc92, 0xffeff47d, 0x85845dd1,
  0x6fa87e4f, 0xfe2ce6e0, 0xa3014314, 0x4e0811a1, 0xf7537e82, 0xbd3af235, 0x2ad7d2bb, 0xeb86d391]

/-- The rotations. -/
def S : List UInt32 := [
  7, 12, 17, 22, 7, 12, 17, 22, 7, 12, 17, 22, 7, 12, 17, 22,
  5, 9, 14, 20, 5, 9, 14, 20, 5, 9, 14, 20, 5, 9, 14, 20,
  4, 11, 16, 23, 4, 11, 16, 23, 4, 11, 16, 23, 4, 11, 16, 23,
  6, 10, 15, 21, 6, 10, 15, 21, 6, 10, 15, 21, 6, 10, 15, 21]

/-- `u32::rotate_left`. -/
def rotateLeft (x n : UInt32) : UInt32 := (x <<< n) ||| (x >>> (32 - n))

/-- The mixing function of a round, and the word it adds. -/
def mix (s : State) (i : ℕ) : UInt32 × ℕ :=
  if i < 16 then ((s.b &&& s.c) ||| (~~~s.b &&& s.d), i)
  else if i < 32 then ((s.d &&& s.b) ||| (~~~s.d &&& s.c), (5 * i + 1) % 16)
  else if i < 48 then (s.b ^^^ s.c ^^^ s.d, (3 * i + 5) % 16)
  else (s.c ^^^ (s.b ||| ~~~s.d), (7 * i) % 16)

/-- One of the 64 rounds. -/
def round (x : List UInt32) (s : State) (i : ℕ) : State :=
  let (f, g) := mix s i
  { a := s.d
    b := s.b + rotateLeft (s.a + f + K.getD i 0 + x.getD g 0) (S.getD i 0)
    c := s.b
    d := s.c }

/-- `Md5::process_block`. -/
def processBlock (s : State) (block : Block) : State :=
  let t := (List.range 64).foldl (round block.words) s
  { a := s.a + t.a, b := s.b + t.b, c := s.c + t.c, d := s.d + t.d }

/-- The state as bytes, each word little-endian. -/
def State.toBytes (s : State) : List UInt8 :=
  [s.a, s.b, s.c, s.d].flatMap fun w => Wire.leBytes 4 w.toNat

end Md5

/-! ### The hasher -/

/-- `Md5`. -/
structure Md5 where
  state : Md5.State
  count : UInt64
  buffer : Md5.Block

namespace Md5

/-- `Md5::new`. -/
def new : Md5 where
  state := { a := 0x67452301, b := 0xEFCDAB89, c := 0x98BADCFE, d := 0x10325476 }
  count := 0
  buffer := ⟨List.replicate 64 0, by simp⟩

/-- The number of buffered bytes of the unfinished block. -/
def bufferUsed (m : Md5) : ℕ := m.count.toNat &&& 0x3F

/-- The loop over the whole blocks of the data: the new state, and what is left of the data. -/
def processBlocks (s : State) (data : List UInt8) : State × List UInt8 :=
  if h : 64 ≤ data.length then
    processBlocks (processBlock s ⟨data.take 64, by rw [List.length_take]; omega⟩) (data.drop 64)
  else (s, data)
termination_by data.length
decreasing_by
  rw [List.length_drop]
  omega

/-- What `Md5::update` does with the data that does not go into an unfinished block. -/
def absorb (m : Md5) (data : List UInt8) : Md5 :=
  let (state, rest) := processBlocks m.state data
  { m with state, buffer := m.buffer.write 0 rest }

/-- `Md5::update`. -/
def update (m : Md5) (data : List UInt8) : Md5 :=
  let used := m.bufferUsed
  let counted := { m with count := m.count + UInt64.ofNat data.length }
  if used ≠ 0 then
    let copyLen := min (64 - used) data.length
    let buffer := m.buffer.write used (data.take copyLen)
    if used + copyLen = 64 then
      absorb { counted with state := processBlock m.state buffer, buffer } (data.drop copyLen)
    else { counted with buffer }
  else absorb counted data

/-- `Md5::finalize`. -/
def finalize (m : Md5) : List UInt8 :=
  let used := m.bufferUsed
  let buffer := m.buffer.write used [0x80]
  let (state, buffer) :=
    if used < 56 then (m.state, buffer.fill (used + 1) 56)
    else
      let full := buffer.fill (used + 1) 64
      (processBlock m.state full, full.fill 0 56)
  let bits := m.count * 8
  (processBlock state (buffer.write 56 (Wire.leBytes 8 bits.toNat))).toBytes

/-- `md5_hash`. -/
def md5Hash (data : List UInt8) : List UInt8 := (new.update data).finalize

/-! ### Hexadecimal text -/

/-- The lower-case digit of a number below 16. -/
def hexDigit (n : ℕ) : Char := Char.ofNat (if n < 10 then 0x30 + n else 0x57 + n)

/-- `hex::encode`: two digits for each byte. -/
def hexEncode (data : List UInt8) : String :=
  String.ofList (data.flatMap fun b => [hexDigit (b.toNat / 16), hexDigit (b.toNat % 16)])

/-- `md5_hex`. -/
def md5Hex (data : List UInt8) : String := hexEncode (md5Hash data)

example : md5Hex [] = "d41d8cd98f00b204e9800998ecf8427e" := by decide +kernel

end Md5

/-
**The blocks that the inline MD5 hashes.**

`Md5::update` of `crates/protocols/src/rtsp_server/auth.rs` is called with pieces of a message and
keeps an unfinished block between the calls; `Md5::finalize` pads it and hashes what is left.  After
any pieces the state is that of the whole blocks of the message so far, and the buffer begins with
the rest; what stands behind the rest is never looked at.  So the digest is that of the blocks of the
padded message, however it was cut.

Main definitions:

* `Md5.padded` — a message with its padding (RFC 1321);
* `Md5.Absorbed` — what the hasher holds after a message.

Main results:

* `Md5.absorbed_update` — one call;
* `Md5.finalize_of_absorbed` — the padding of the rest;
* `Md5.finalize_pieces` — **the digest of a message in pieces**.
-/

import MibeeEye.Md5
import MibeeEye.WholeBlocks

set_option relaxedAutoImplicit false
set_option autoImplicit false

namespace Md5

open Wire

/-! ### The padded message -/

/-- The number of zeros behind the byte `0x80`, so that the length ends a block. -/
def paddingZeros (length : ℕ) : ℕ := (119 - length % 64) % 64

/-- **A message with its padding**: `0x80`, zeros, and the length in bits. -/
def padded (m : List UInt8) : List UInt8 :=
  m ++ (0x80 :: (List.replicate (paddingZeros m.length) 0 ++ leBytes 8 (8 * m.length)))

/-- The state after some blocks. -/
def hashBlocks (s : State) (bs : List Block) : State := bs.foldl processBlock s

theorem hashBlocks_append (s : State) (bs bs' : List Block) :
    hashBlocks s (bs ++ bs') = hashBlocks (hashBlocks s bs) bs' :=
  List.foldl_append

/-! ### Writing into a block -/

namespace Block

theorem write_val {b : Block} {i : ℕ} {bytes : List UInt8} (h : i + bytes.length ≤ 64) :
    (b.write i bytes).1 = b.1.take i ++ bytes ++ b.1.drop (i + bytes.length) := by
  have hb := b.2
  refine List.take_of_length_le ?_
  simp only [List.length_append, List.length_take, List.length_drop]
  omega

/-- Bytes up to the end of a block replace what stood there. -/
theorem write_val_end {b : Block} {i : ℕ} {bytes : List UInt8} (h : i + bytes.length = 64) :
    (b.write i bytes).1 = b.1.take i ++ bytes := by
  rw [write_val h.le, h, List.drop_eq_nil_of_le b.2.le, List.append_nil]

/-- What stands before the bytes, and they themselves. -/
theorem take_write {b : Block} {i : ℕ} {bytes : List UInt8} (h : i + bytes.length ≤ 64) :
    (b.write i bytes).1.take (i + bytes.length) = b.1.take i ++ bytes := by
  have hb := b.2
  rw [write_val h]
  refine List.take_left' ?_
  rw [List.length_append, List.length_take]
  omega

/-- Zeros behind some bytes. -/
theorem take_fill {b : Block} {i j : ℕ} {bytes : List UInt8} (hij : i ≤ j) (hj : j ≤ 64)
    (h : b.1.take i = bytes) : (b.fill i j).1.take j = bytes ++ List.replicate (j - i) 0 := by
  have htake := @take_write b i (List.replicate (j - i) 0) (by simp; omega)
  rwa [List.length_replicate, Nat.add_sub_cancel' hij, h] at htake

end Block

/-! ### What the hasher holds -/

/-- **The hasher after a message**: the state of its whole blocks, its length, and a buffer that
begins with the rest. -/
structure Absorbed (h : Md5) (m : List UInt8) : Prop where
  state : h.state = hashBlocks new.state (blocks 64 m)
  count : h.count = UInt64.ofNat m.length
  buffer : h.buffer.1.take (rest 64 m).length = rest 64 m

theorem absorbed_new : Absorbed new [] := by
  have hlt : ([] : List UInt8).length < 64 := by simp
  refine ⟨?_, rfl, ?_⟩
  · rw [blocks_of_lt hlt]
    rfl
  · rw [rest_of_lt hlt]
    rfl

/-- The position in the unfinished block. -/
theorem bufferUsed_eq {h : Md5} {m : List UInt8} (hm : Absorbed h m) :
    h.bufferUsed = (rest 64 m).length := by
  have hand : h.count.toNat &&& 0x3F = h.count.toNat % 2 ^ 6 := Nat.and_two_pow_sub_one_eq_mod _ 6
  rw [bufferUsed, hand, hm.count, UInt64.toNat_ofNat', length_rest (by omega)]
  omega

/-- The loop over the whole blocks. -/
theorem processBlocks_eq (s : State) (data : List UInt8) :
    processBlocks s data = (hashBlocks s (blocks 64 data), rest 64 data) := by
  induction data using @blocks_induction _ 64 (by omega) generalizing s with
  | short data h => rw [processBlocks, dif_neg (by omega), blocks_of_lt h, rest_of_lt h]; rfl
  | block b data ih =>
      have hb := b.2
      have hlen : 64 ≤ (b.1 ++ data).length := by
        rw [List.length_append]
        omega
      have hblock : (⟨(b.1 ++ data).take 64, List.length_take_of_le hlen⟩ : Block) = b :=
        Subtype.ext (List.take_left' hb)
      rw [processBlocks, dif_pos hlen, hblock, List.drop_left' hb, ih, blocks_block_append (by omega),
        rest_block_append (by omega)]
      rfl

/-- The whole blocks of some data are hashed, and the rest begins the buffer. -/
theorem absorb_eq (h : Md5) (data : List UInt8) :
    (absorb h data).state = hashBlocks h.state (blocks 64 data) ∧
      (absorb h data).count = h.count ∧
      (absorb h data).buffer.1.take (rest 64 data).length = rest 64 data := by
  have hlt := @length_rest_lt _ 64 (by omega) data
  rw [absorb, processBlocks_eq]
  refine ⟨rfl, rfl, ?_⟩
  have htake := @Block.take_write h.buffer 0 (rest 64 data) (by omega)
  rwa [Nat.zero_add] at htake

section Update

variable {h : Md5} {m : List UInt8}

/-- The hasher after more data, from what it makes of the rest and the data. -/
theorem Absorbed.append (hm : Absorbed h m) {h' : Md5} {data : List UInt8}
    (hcount : h'.count = h.count + UInt64.ofNat data.length)
    (hstate : h'.state = hashBlocks h.state (blocks 64 (rest 64 m ++ data)))
    (hbuffer : h'.buffer.1.take (rest 64 (rest 64 m ++ data)).length =
      rest 64 (rest 64 m ++ data)) :
    Absorbed h' (m ++ data) where
  state := by rw [blocks_append (by omega), hashBlocks_append, hstate, hm.state]
  count := by rw [hcount, hm.count, List.length_append, UInt64.ofNat_add]
  buffer := by rw [rest_append (by omega), hbuffer]

/-- **One call of `Md5::update`.** -/
theorem absorbed_update (hm : Absorbed h m) (data : List UInt8) :
    Absorbed (h.update data) (m ++ data) := by
  have hlt := @length_rest_lt _ 64 (by omega) m
  rw [update]
  dsimp only
  rw [bufferUsed_eq hm]
  by_cases hused : (rest 64 m).length ≠ 0
  · rw [if_pos hused]
    rcases Nat.lt_or_ge data.length (64 - (rest 64 m).length) with hshort | hlong
    · -- the data does not fill the block
      have hall : (rest 64 m ++ data).length < 64 := by
        rw [List.length_append]
        omega
      rw [Nat.min_eq_right hshort.le, if_neg (by omega), List.take_length]
      refine hm.append rfl ?_ ?_
      · rw [blocks_of_lt hall]
        rfl
      · rw [rest_of_lt hall, List.length_append, Block.take_write (by omega), hm.buffer]
    · -- the block is full, and what is left of the data goes on
      have hcopy : (data.take (64 - (rest 64 m).length)).length = 64 - (rest 64 m).length :=
        List.length_take_of_le hlong
      rw [Nat.min_eq_left hlong, if_pos (by omega)]
      set block := h.buffer.write (rest 64 m).length (data.take (64 - (rest 64 m).length)) with hb
      have hblock : rest 64 m ++ data = block.1 ++ data.drop (64 - (rest 64 m).length) := by
        rw [hb, Block.write_val_end (by omega), hm.buffer, List.append_assoc,
          List.take_append_drop]
      obtain ⟨hstate, hcount, hbuffer⟩ := absorb_eq
        { h with count := h.count + UInt64.ofNat data.length, state := processBlock h.state block,
                 buffer := block } (data.drop (64 - (rest 64 m).length))
      refine hm.append hcount ?_ ?_
      · rw [hstate, hblock, blocks_block_append (by omega)]
        rfl
      · rw [hblock, rest_block_append (by omega), hbuffer]
  · rw [if_neg hused]
    have hnil : rest 64 m = [] := List.eq_nil_of_length_eq_zero (not_not.mp hused)
    obtain ⟨hstate, hcount, hbuffer⟩ :=
      absorb_eq { h with count := h.count + UInt64.ofNat data.length } data
    refine hm.append hcount ?_ ?_
    · rw [hstate, hnil, List.nil_append]
    · rw [hnil, List.nil_append, hbuffer]

/-- The hasher after some pieces. -/
theorem absorbed_pieces (pieces : List (List UInt8)) (hm : Absorbed h m) :
    Absorbed (pieces.foldl update h) (m ++ pieces.flatten) := by
  induction pieces generalizing h m with
  | nil => rwa [List.flatten_nil, List.append_nil]
  | cons piece pieces ih =>
      rw [List.foldl_cons, List.flatten_cons, ← List.append_assoc]
      exact ih (absorbed_update hm piece)

end Update

/-! ### The padding -/

/-- **`Md5::finalize`** hashes the blocks of the padded message. -/
theorem finalize_of_absorbed {h : Md5} {m : List UInt8} (hm : Absorbed h m)
    (hlen : m.length < 2 ^ 61) :
    h.finalize = (hashBlocks new.state (blocks 64 (padded m))).toBytes := by
  have hlt := @length_rest_lt _ 64 (by omega) m
  have hmod := @length_rest _ 64 (by omega) m
  have hbits : (h.count * 8).toNat = 8 * m.length := by
    rw [hm.count, UInt64.toNat_mul, UInt64.toNat_ofNat_of_lt' (by rw [UInt64.size]; omega)]
    have h8 : (8 : UInt64).toNat = 8 := rfl
    rw [h8]
    omega
  rw [padded, blocks_append (by omega), hashBlocks_append, ← hm.state, finalize]
  dsimp only
  rw [bufferUsed_eq hm, hbits]
  refine congrArg State.toBytes ?_
  -- the byte behind the rest
  have hmark : (h.buffer.write (rest 64 m).length [0x80]).1.take ((rest 64 m).length + 1) =
      rest 64 m ++ [0x80] := by
    have htake := @Block.take_write h.buffer (rest 64 m).length [0x80] (by simp; omega)
    rwa [hm.buffer] at htake
  by_cases hroom : (rest 64 m).length < 56
  · -- zeros and the length still fit behind it
    have hzeros : paddingZeros m.length = 56 - ((rest 64 m).length + 1) := by
      rw [paddingZeros]
      omega
    rw [if_pos hroom, hzeros]
    set filled := (h.buffer.write (rest 64 m).length [0x80]).fill ((rest 64 m).length + 1) 56
    have htake : filled.1.take 56 =
        rest 64 m ++ [0x80] ++ List.replicate (56 - ((rest 64 m).length + 1)) 0 :=
      Block.take_fill hroom (by omega) hmark
    have hblock : rest 64 m ++ (0x80 :: (List.replicate (56 - ((rest 64 m).length + 1)) 0 ++
        leBytes 8 (8 * m.length))) = (filled.write 56 (leBytes 8 (8 * m.length))).1 ++ [] := by
      rw [Block.write_val_end (by simp), htake]
      simp
    rw [hblock, blocks_block_append (by omega), blocks_of_lt (by simp)]
    rfl
  · have hzeros : paddingZeros m.length = 64 - ((rest 64 m).length + 1) + 56 := by
      rw [paddingZeros]
      omega
    rw [if_neg hroom, hzeros]
    dsimp only
    set full := (h.buffer.write (rest 64 m).length [0x80]).fill ((rest 64 m).length + 1) 64
    have hfirst : full.1 =
        rest 64 m ++ [0x80] ++ List.replicate (64 - ((rest 64 m).length + 1)) 0 := by
      rw [← Block.take_fill hlt le_rfl hmark, List.take_of_length_le full.2.le]
    have htake : (full.fill 0 56).1.take 56 = List.replicate 56 0 :=
      Block.take_fill (Nat.zero_le 56) (by omega) List.take_zero
    have hblocks : rest 64 m ++ (0x80 :: (List.replicate (64 - ((rest 64 m).length + 1) + 56) 0 ++
        leBytes 8 (8 * m.length))) =
        full.1 ++ (((full.fill 0 56).write 56 (leBytes 8 (8 * m.length))).1 ++ []) := by
      rw [hfirst, Block.write_val_end (by simp), htake, ← List.replicate_append_replicate]
      simp only [List.append_assoc, List.cons_append, List.nil_append, List.append_nil]
    rw [hblocks, blocks_block_append (by omega), blocks_block_append (by omega),
      blocks_of_lt (by simp)]
    rfl

/-- **The digest of a message in pieces** is that of the blocks of the padded message. -/
theorem finalize_pieces (pieces : List (List UInt8)) (h : pieces.flatten.length < 2 ^ 61) :
    (pieces.foldl update new).finalize =
      (hashBlocks new.state (blocks 64 (padded pieces.flatten))).toBytes :=
  finalize_of_absorbed (absorbed_pieces pieces absorbed_new) h

/-- Two pieces, of which the first is two bytes. -/
theorem finalize_pieces_two :
    ([[0x61, 0x62], [0x63]].foldl update new).finalize =
      (hashBlocks new.state (blocks 64 (padded [0x61, 0x62, 0x63]))).toBytes :=
  finalize_pieces [[0x61, 0x62], [0x63]] (by decide)

end Md5

/-
**The bit reader of the parameter sets.**

`read_bit`, `read_bits`, `read_exp_golomb` and `read_signed_exp_golomb` of
`crates/protocols/src/h264.rs`, over the bits of a byte sequence.  The zeros of a code are counted
without a bound and the count is narrowed to a `u8` before the bits are read; it is then a shift of a
`u32`.  A shift or an addition out of range is a panic here, as it is where overflow is checked.

Main definitions:

* `H264.BitIter` — the reader, and the bits it has left;
* `H264.readExpGolomb`, `H264.readSignedExpGolomb` — the code's readers;
* `H264.UnsignedExact`, `H264.SignedExact` — they read the codes at a position, and nothing else.

Main results:

* `H264.readExpGolomb_of_one` — what the reader does with every bit string that has a one;
* `H264.unsignedExact_iff`, `H264.signedExact_iff` — where each reader is exact;
* `H264.expGolomb_exact_iff` — where both are.
-/

import MibeeEye.CheckedReads
import MibeeEye.ExpGolomb

set_option relaxedAutoImplicit false
set_option autoImplicit false

namespace H264

open Checked ExpGolomb

/-! ### The reader -/

/-- A bit iterator: the bytes, the byte it is at, and the bit of it that comes next. -/
structure BitIter where
  data : List UInt8
  bytePos : ℕ
  bitPos : Fin 8
  deriving DecidableEq, Repr

namespace BitIter

/-- `BitIter::new`. -/
def new (data : List UInt8) : BitIter := ⟨data, 0, 0⟩

/-- The reader after one bit. -/
def advance (bits : BitIter) : BitIter :=
  if h : bits.bitPos.val + 1 < 8 then { bits with bitPos := ⟨bits.bitPos + 1, h⟩ }
  else { bits with bytePos := bits.bytePos + 1, bitPos := 0 }

/-- `read_bit`. -/
def readBit (bits : BitIter) : Run String (Bool × BitIter) :=
  if bits.data.length ≤ bits.bytePos then bail "Bit read out of bounds"
  else do
    let byte ← byteAt bits.data bits.bytePos
    let bit := (byte.toNat >>> (7 - bits.bitPos.val)) &&& 1
    return (bit != 0, bits.advance)

/-- The loop of `read_bits`. -/
def readBitsF : ℕ → ℕ → BitIter → Run String (ℕ × BitIter)
  | 0, result, bits => .ok (result, bits)
  | n + 1, result, bits => do
      let (bit, bits) ← bits.readBit
      readBitsF n ((result <<< 1) % 2 ^ 32 ||| bit.toNat) bits

/-- `read_bits`. -/
def readBits (bits : BitIter) (n : ℕ) : Run String (ℕ × BitIter) :=
  if 32 < n then bail "Cannot read more than 32 bits at once" else readBitsF n 0 bits

end BitIter

/-- The loop of `read_exp_golomb` that counts the zeros. -/
@[grind =] def countZeroes : ℕ → ℕ → BitIter → Run String (ℕ × BitIter)
  | 0, _, _ => .error .outOfFuel
  | fuel + 1, leadingZeroes, bits => do
      let (bit, bits) ← bits.readBit
      if bit then .ok (leadingZeroes, bits)
      else if leadingZeroes + 1 < 2 ^ 32 then countZeroes fuel (leadingZeroes + 1) bits
      else panics

/-- `read_exp_golomb`. -/
def readExpGolomb (bits : BitIter) : Run String (ℕ × BitIter) := do
  let (leadingZeroes, bits) ← countZeroes (8 * bits.data.length + 1) 0 bits
  if leadingZeroes = 0 then .ok (0, bits)
  else do
    -- the count is cast to a u8
    let (value, bits) ← bits.readBits (leadingZeroes % 2 ^ 8)
    if leadingZeroes < 32 ∧ 2 ^ leadingZeroes - 1 + value < 2 ^ 32 then
      .ok (2 ^ leadingZeroes - 1 + value, bits)
    else panics

/-- `read_signed_exp_golomb`. -/
def readSignedExpGolomb (bits : BitIter) : Run String (ℤ × BitIter) := do
  let (ue, bits) ← readExpGolomb bits
  if ue + 1 < 2 ^ 32 then
    let positive := ue % 2 = 0
    let value : ℤ := Int.bmod (((ue + 1) >>> 1 : ℕ) : ℤ) (2 ^ 32)
    if positive then .ok (value, bits)
    else if value = -2 ^ 31 then panics else .ok (-value, bits)
  else panics

/-! ### The bits that are left -/

/-- The bits of a byte sequence. -/
def stream (data : List UInt8) : List Bool := data.flatMap fun b => digits 8 b.toNat

theorem length_stream (data : List UInt8) : (stream data).length = 8 * data.length := by
  induction data with
  | nil => rfl
  | cons b data ih =>
      rw [stream, List.flatMap_cons, List.length_append, length_digits, List.length_cons]
      rw [stream] at ih
      omega

theorem digits_getElem? (n v j : ℕ) (h : j < n) :
    (digits n v)[j]? = some (v.testBit (n - 1 - j)) := by
  induction n generalizing j with
  | zero => omega
  | succ n ih =>
      cases j with
      | zero => rfl
      | succ j =>
          rw [digits, List.getElem?_cons_succ, ih j (by omega)]
          congr 2
          omega

/-- A bit of the sequence is one of the byte it stands in. -/
theorem stream_getElem? (data : List UInt8) (i : ℕ) (j : Fin 8) :
    (stream data)[8 * i + j]? = data[i]?.map fun b => b.toNat.testBit (7 - j) := by
  induction data generalizing i with
  | nil => rfl
  | cons b data ih =>
      have hlen : (digits 8 b.toNat).length = 8 := length_digits 8 _
      rw [stream, List.flatMap_cons]
      cases i with
      | zero =>
          rw [List.getElem?_append_left (by omega), Nat.mul_zero, Nat.zero_add,
            digits_getElem? 8 _ _ j.isLt]
          rfl
      | succ i =>
          rw [List.getElem?_append_right (by omega), hlen, List.getElem?_cons_succ, ← ih i, stream]
          congr 1
          omega

namespace BitIter

/-- The number of bits before the next one. -/
def pos (bits : BitIter) : ℕ := 8 * bits.bytePos + bits.bitPos

/-- The bits from the next one on. -/
def remaining (bits : BitIter) : List Bool := (stream bits.data).drop bits.pos

/-- The reader a number of bits further on. -/
def skip (bits : BitIter) (n : ℕ) : BitIter :=
  ⟨bits.data, (bits.pos + n) / 8, ⟨(bits.pos + n) % 8, Nat.mod_lt _ (by omega)⟩⟩

variable {bits : BitIter} {b : Bool} {w : List Bool} {n : ℕ}

@[simp] theorem data_skip (bits : BitIter) (n : ℕ) : (bits.skip n).data = bits.data := rfl

@[simp] theorem pos_skip (bits : BitIter) (n : ℕ) : (bits.skip n).pos = bits.pos + n :=
  Nat.div_add_mod _ _

@[simp] theorem skip_zero (bits : BitIter) : bits.skip 0 = bits := by
  obtain ⟨data, i, ⟨j, hj⟩⟩ := bits
  simp only [skip, pos, mk.injEq, true_and, Fin.mk.injEq]
  omega

@[simp] theorem skip_skip (bits : BitIter) (m n : ℕ) :
    (bits.skip m).skip n = bits.skip (m + n) := by
  simp only [skip, mk.injEq, true_and, Fin.mk.injEq]
  rw [← skip, pos_skip, Nat.add_assoc]
  exact ⟨rfl, rfl⟩

theorem advance_eq (bits : BitIter) : bits.advance = bits.skip 1 := by
  obtain ⟨data, i, ⟨j, hj⟩⟩ := bits
  unfold advance
  split <;> rename_i h <;> simp only at h <;>
    simp only [skip, pos, mk.injEq, true_and, Fin.ext_iff, Fin.val_zero] <;> omega

@[simp] theorem remaining_skip (bits : BitIter) (n : ℕ) :
    (bits.skip n).remaining = bits.remaining.drop n := by
  rw [remaining, pos_skip, data_skip, remaining, List.drop_drop]

theorem remaining_eq_nil_iff : bits.remaining = [] ↔ bits.data.length ≤ bits.bytePos := by
  have h := bits.bitPos.isLt
  rw [remaining, List.drop_eq_nil_iff, length_stream, pos]
  omega

theorem length_remaining_le (bits : BitIter) : bits.remaining.length ≤ 8 * bits.data.length := by
  rw [remaining, List.length_drop, length_stream]
  omega

/-- A read with no bit left. -/
theorem readBit_nil (h : bits.remaining = []) : bits.readBit = bail "Bit read out of bounds" :=
  if_pos (remaining_eq_nil_iff.mp h)

/-- A read takes the first of the bits that are left. -/
theorem readBit_cons (h : bits.remaining = b :: w) : bits.readBit = .ok (b, bits.skip 1) := by
  have hlt : ¬ bits.data.length ≤ bits.bytePos := by
    rw [← remaining_eq_nil_iff, h]
    exact List.cons_ne_nil b w
  have hb : (stream bits.data)[bits.pos]? = some b := by
    rw [← List.head?_drop, ← remaining, h, List.head?_cons]
  rw [pos, stream_getElem?, List.getElem?_eq_getElem (by omega)] at hb
  rw [readBit, if_neg hlt, byteAt_eq (by omega), ok_bind, advance_eq]
  rw [Nat.and_comm]
  exact congrArg (fun b => Except.ok (b, bits.skip 1)) (Option.some.inj hb)

theorem remaining_skip_one (h : bits.remaining = b :: w) : (bits.skip 1).remaining = w := by
  rw [remaining_skip, h, List.drop_one, List.tail_cons]

/-- One more bit of the number that is read. -/
theorem shift_or_bit {bs : List Bool} (h : bs.length < 32) (b : Bool) :
    (value bs <<< 1) % 2 ^ 32 ||| b.toNat = value (bs ++ [b]) := by
  have hpow : 2 ^ bs.length ≤ 2 ^ 31 := Nat.pow_le_pow_right (by omega) (by omega)
  have hlt : value bs < 2 ^ 31 := (value_lt bs).trans_le hpow
  rw [Nat.shiftLeft_eq, pow_one, Nat.mod_eq_of_lt (by omega), value_append_singleton, Nat.mul_comm]
  exact (Nat.two_pow_add_eq_or_of_lt (i := 1) (Bool.toNat_lt b) (value bs)).symm

/-- The loop of `read_bits` takes as many of the bits that are left. -/
theorem readBitsF_eq {bs : List Bool} (h : bs.length + n ≤ 32) :
    readBitsF n (value bs) bits =
      if n ≤ bits.remaining.length then
        .ok (value (bs ++ bits.remaining.take n), bits.skip n)
      else bail "Bit read out of bounds" := by
  induction n generalizing bits bs with
  | zero => simp [readBitsF]
  | succ n ih =>
      rw [readBitsF]
      match hw : bits.remaining with
      | [] => rw [readBit_nil hw, bail_bind, if_neg (by simp)]
      | b :: w =>
          have hlen : (bs ++ [b]).length + n ≤ 32 := by
            rw [List.length_append, List.length_singleton]
            omega
          rw [readBit_cons hw, ok_bind]
          simp only
          rw [shift_or_bit (by omega) b, ih hlen, remaining_skip_one hw, skip_skip,
            List.append_assoc, List.singleton_append, List.take_succ_cons, List.length_cons,
            Nat.add_comm 1 n]
          simp only [Nat.add_le_add_iff_right]

/-- `read_bits` takes as many of the bits that are left, up to a `u32`. -/
theorem readBits_eq (bits : BitIter) (h : n ≤ 32) :
    bits.readBits n =
      if n ≤ bits.remaining.length then .ok (value (bits.remaining.take n), bits.skip n)
      else bail "Bit read out of bounds" := by
  rw [readBits, if_neg (by omega)]
  exact @readBitsF_eq bits n [] (by simpa using h)

end BitIter

/-! ### The zeros of a code -/

section Zeroes

variable {bits : BitIter} {rest : List Bool} {fuel lz z : ℕ}

/-- One more zero. -/
theorem countZeroes_false {w : List Bool} (hw : bits.remaining = false :: w)
    (hlz : lz + 1 < 2 ^ 32) :
    countZeroes (fuel + 1) lz bits = countZeroes fuel (lz + 1) (bits.skip 1) := by
  rw [countZeroes, BitIter.readBit_cons hw, ok_bind]
  exact if_pos hlz

/-- The loop stops after the first one. -/
theorem countZeroes_of_one (hw : bits.remaining = List.replicate z false ++ true :: rest)
    (hfuel : z < fuel) (hlz : lz + z < 2 ^ 32) :
    countZeroes fuel lz bits = .ok (lz + z, bits.skip (z + 1)) := by
  induction z generalizing fuel lz bits with
  | zero =>
      obtain ⟨fuel, rfl⟩ : ∃ f, fuel = f + 1 := ⟨fuel - 1, by omega⟩
      rw [countZeroes, BitIter.readBit_cons hw]
      rfl
  | succ z ih =>
      obtain ⟨fuel, rfl⟩ : ∃ f, fuel = f + 1 := ⟨fuel - 1, by omega⟩
      rw [List.replicate_succ, List.cons_append] at hw
      rw [countZeroes_false hw (by omega),
        ih (BitIter.remaining_skip_one hw) (by omega) (by omega), BitIter.skip_skip]
      congr 2
      · omega
      · congr 1
        omega

/-- The loop runs out of bits where there is no one. -/
theorem countZeroes_of_zeros (hw : bits.remaining = List.replicate z false) (hfuel : z < fuel)
    (hlz : lz + z < 2 ^ 32) :
    countZeroes fuel lz bits = bail "Bit read out of bounds" := by
  induction z generalizing fuel lz bits with
  | zero =>
      obtain ⟨fuel, rfl⟩ : ∃ f, fuel = f + 1 := ⟨fuel - 1, by omega⟩
      rw [countZeroes, BitIter.readBit_nil hw, bail_bind]
  | succ z ih =>
      obtain ⟨fuel, rfl⟩ : ∃ f, fuel = f + 1 := ⟨fuel - 1, by omega⟩
      rw [countZeroes_false hw (by omega),
        ih (BitIter.remaining_skip_one hw) (by omega) (by omega)]

/-- More zeros than a `u32` counts. -/
theorem countZeroes_of_le (hw : List.replicate z false <+: bits.remaining) (hfuel : z ≤ fuel)
    (hlz : lz < 2 ^ 32) (hz : 2 ^ 32 ≤ lz + z) : countZeroes fuel lz bits = panics := by
  induction z generalizing fuel lz bits with
  | zero => omega
  | succ z ih =>
      obtain ⟨fuel, rfl⟩ : ∃ f, fuel = f + 1 := ⟨fuel - 1, by omega⟩
      obtain ⟨t, ht⟩ := hw
      have hcons : bits.remaining = false :: (List.replicate z false ++ t) := ht.symm
      by_cases hover : lz + 1 < 2 ^ 32
      · rw [countZeroes_false hcons hover]
        refine ih ?_ (by omega) hover (by omega)
        rw [BitIter.remaining_skip_one hcons]
        exact List.prefix_append _ _
      · rw [countZeroes, BitIter.readBit_cons hcons, ok_bind]
        exact if_neg hover

end Zeroes

/-! ### What the unsigned reader does -/

section Unsigned

variable {bits : BitIter} {rest : List Bool} {v z : ℕ}

/-- The zeros of a bit string that is left fit in the fuel of the loop. -/
theorem leadingZeros_remaining_le (bits : BitIter) :
    leadingZeros bits.remaining ≤ 8 * bits.data.length :=
  (List.takeWhile_sublist _).length_le.trans bits.length_remaining_le

/-- The number of a code with fewer than 32 zeros. -/
theorem number_lt (hz : z < 32) (hlen : z ≤ rest.length) :
    2 ^ z - 1 + value (rest.take z) < 2 ^ 32 - 1 := by
  have hlt := value_lt (rest.take z)
  have hpow : 2 ^ z ≤ 2 ^ 31 := Nat.pow_le_pow_right (by omega) (by omega)
  rw [List.length_take, Nat.min_eq_left hlen] at hlt
  omega

/-- More zeros than a `u32` counts. -/
theorem readExpGolomb_of_many (h : 2 ^ 32 ≤ leadingZeros bits.remaining) :
    readExpGolomb bits = panics := by
  have hfuel := leadingZeros_remaining_le bits
  have hzeros : List.replicate (leadingZeros bits.remaining) false <+: bits.remaining := by
    rcases zeros_or_one bits.remaining with hw | ⟨rest, hw⟩
    · exact ⟨[], by rw [List.append_nil]; exact hw.symm⟩
    · exact ⟨true :: rest, hw.symm⟩
  rw [readExpGolomb, countZeroes_of_le hzeros (by omega) (by omega) (by omega), panics_bind]

/-- Zeros to the end. -/
theorem readExpGolomb_of_zeros (hw : bits.remaining = List.replicate z false) (hz : z < 2 ^ 32) :
    readExpGolomb bits = bail "Bit read out of bounds" := by
  have hfuel := leadingZeros_remaining_le bits
  rw [hw, leadingZeros_replicate] at hfuel
  rw [readExpGolomb, countZeroes_of_zeros hw (by omega) (by omega), bail_bind]

/-- **Zeros, a one and the rest**: the count of the zeros, narrowed to a `u8`, decides how much of
the rest is read, and the count itself whether the result can be formed. -/
theorem readExpGolomb_of_one (hw : bits.remaining = List.replicate z false ++ true :: rest)
    (hz : z < 2 ^ 32) :
    readExpGolomb bits =
      if 32 < z % 2 ^ 8 then bail "Cannot read more than 32 bits at once"
      else if rest.length < z % 2 ^ 8 then bail "Bit read out of bounds"
      else if z < 32 then .ok (2 ^ z - 1 + value (rest.take z), bits.skip (2 * z + 1))
      else panics := by
  have hfuel := leadingZeros_remaining_le bits
  rw [hw, leadingZeros_one] at hfuel
  rw [readExpGolomb, countZeroes_of_one hw (by omega) (by omega), ok_bind]
  simp only [Nat.zero_add]
  have hrest : (bits.skip (z + 1)).remaining = rest := by
    rw [BitIter.remaining_skip, hw, List.drop_append]
    simp
  by_cases hz0 : z = 0
  · subst hz0
    simp [value]
  · rw [if_neg hz0]
    by_cases hnarrow : 32 < z % 2 ^ 8
    · rw [if_pos hnarrow, BitIter.readBits, if_pos hnarrow, bail_bind]
    · rw [if_neg hnarrow, BitIter.readBits_eq _ (by omega), hrest]
      by_cases hshort : rest.length < z % 2 ^ 8
      · rw [if_pos hshort, if_neg (by omega), bail_bind]
      · rw [if_neg hshort, if_pos (by omega), ok_bind]
        simp only
        by_cases hz32 : z < 32
        · have hmod : z % 2 ^ 8 = z := Nat.mod_eq_of_lt (by omega)
          have hlt := @number_lt rest z hz32 (by omega)
          rw [hmod, if_pos hz32, if_pos ⟨hz32, by omega⟩, BitIter.skip_skip]
          congr 3
          omega
        · rw [if_neg hz32, if_neg fun h => hz32 h.1]

/-- No code of a `u32` stands at the start of a bit string. -/
def NoCode (w : List Bool) : Prop := ∀ v, v < 2 ^ 32 - 1 → ¬ ueCode v <+: w

/-- The bit strings on which the reader panics: too many zeros to count, or as many as the narrowed
count lets pass to the shift. -/
def Overflows (w : List Bool) : Prop :=
  2 ^ 32 ≤ leadingZeros w ∨
    ∃ z rest, w = List.replicate z false ++ true :: rest ∧ 32 ≤ z ∧ z % 2 ^ 8 ≤ 32 ∧
      z % 2 ^ 8 ≤ rest.length

theorem overflows_one_iff (z : ℕ) (rest : List Bool) (hz : z < 2 ^ 32) :
    Overflows (List.replicate z false ++ true :: rest) ↔
      32 ≤ z ∧ z % 2 ^ 8 ≤ 32 ∧ z % 2 ^ 8 ≤ rest.length := by
  constructor
  · rintro (h | ⟨y, r, hw, h⟩)
    · rw [leadingZeros_one] at h
      omega
    · obtain ⟨rfl, rfl⟩ := one_inj hw
      exact h
  · exact fun h => .inr ⟨z, rest, rfl, h⟩

theorem noCode_zeros (z : ℕ) : NoCode (List.replicate z false) :=
  fun v _ => not_ueCode_prefix_zeros v z

/-- A code of a `u32` is one with fewer than 32 zeros, all of whose bits are there. -/
theorem noCode_one_iff (z : ℕ) (rest : List Bool) :
    NoCode (List.replicate z false ++ true :: rest) ↔ 32 ≤ z ∨ rest.length < z := by
  constructor
  · intro h
    by_contra hcon
    exact h _ (number_lt (by omega) (by omega)) ((ueCode_prefix_iff _ z rest).mpr ⟨by omega, rfl⟩)
  · intro h v hv hcode
    obtain ⟨hlen, rfl⟩ := (ueCode_prefix_iff v z rest).mp hcode
    rcases h with h | h
    · have hpow : 2 ^ 32 ≤ 2 ^ z := Nat.pow_le_pow_right (by omega) h
      omega
    · omega

/-- **The three outcomes of the unsigned reader**: a code is read, whatever follows it; anything
else is an error, where the counts stay in range. -/
theorem readExpGolomb_cases (bits : BitIter) :
    (∃ v, v < 2 ^ 32 - 1 ∧ ueCode v <+: bits.remaining ∧ ¬ Overflows bits.remaining ∧
      readExpGolomb bits = .ok (v, bits.skip (ueCode v).length)) ∨
    (NoCode bits.remaining ∧ ¬ Overflows bits.remaining ∧ ∃ e, readExpGolomb bits = bail e) ∨
    (NoCode bits.remaining ∧ Overflows bits.remaining ∧ readExpGolomb bits = panics) := by
  by_cases hmany : 2 ^ 32 ≤ leadingZeros bits.remaining
  · refine .inr (.inr ⟨?_, .inl hmany, readExpGolomb_of_many hmany⟩)
    rcases zeros_or_one bits.remaining with hw | ⟨rest, hw⟩
    · rw [hw]
      exact noCode_zeros _
    · rw [hw, noCode_one_iff]
      omega
  rcases zeros_or_one bits.remaining with hw | ⟨rest, hw⟩
  · refine .inr (.inl ⟨?_, ?_, _, readExpGolomb_of_zeros hw (by omega)⟩)
    · rw [hw]
      exact noCode_zeros _
    · rintro (h | ⟨z, rest, hone, -⟩)
      · exact hmany h
      · rw [hw] at hone
        have hmem : true ∈ List.replicate (leadingZeros bits.remaining) false := by
          rw [hone]
          simp
        simp at hmem
  · -- the string has a one: the number of zeros before it decides
    have hread := readExpGolomb_of_one hw (by omega)
    generalize leadingZeros bits.remaining = z at hw hmany hread
    rw [hw, overflows_one_iff z rest (by omega), noCode_one_iff]
    by_cases hcode : z < 32 ∧ z ≤ rest.length
    · have hprefix := (ueCode_prefix_iff _ z rest).mpr ⟨hcode.2, rfl⟩
      refine .inl ⟨_, number_lt hcode.1 hcode.2, hprefix, by omega, ?_⟩
      rw [hread, if_neg (by omega), if_neg (by omega), if_pos hcode.1, length_ueCode hprefix]
    · refine .inr ?_
      by_cases h32 : 32 < z % 2 ^ 8
      · exact .inl ⟨by omega, by omega, _, by rw [hread, if_pos h32]⟩
      · by_cases hshort : rest.length < z % 2 ^ 8
        · exact .inl ⟨by omega, by omega, _, by rw [hread, if_neg h32, if_pos hshort]⟩
        · have hz : ¬ z < 32 := by omega
          exact .inr ⟨by omega, by omega, by rw [hread, if_neg h32, if_neg hshort, if_neg hz]⟩

/-- **What is read is a code, and a code is read.** -/
theorem readExpGolomb_eq_ok_iff {bits' : BitIter} :
    readExpGolomb bits = .ok (v, bits') ↔
      v < 2 ^ 32 - 1 ∧ ueCode v <+: bits.remaining ∧ bits' = bits.skip (ueCode v).length := by
  rcases readExpGolomb_cases bits with ⟨u, hu, hcode, -, h⟩ | ⟨hno, -, e, h⟩ | ⟨hno, -, h⟩
  · rw [h]
    constructor
    · intro heq
      obtain ⟨rfl, rfl⟩ := Prod.mk.inj (Except.ok.inj heq)
      exact ⟨hu, hcode, rfl⟩
    · rintro ⟨-, hv, rfl⟩
      rw [ueCode_unique hv hcode]
  · rw [h]
    exact ⟨fun heq => by simp [bail] at heq, fun ⟨hv, hcode, _⟩ => absurd hcode (hno v hv)⟩
  · rw [h]
    exact ⟨fun heq => by simp [panics] at heq, fun ⟨hv, hcode, _⟩ => absurd hcode (hno v hv)⟩

/-- **The unsigned reader is exact at a position**: it reads the code that stands there and stops
right after it, and where none stands it returns an error. -/
structure UnsignedExact (bits : BitIter) : Prop where
  code : ∀ v, v < 2 ^ 32 - 1 → ueCode v <+: bits.remaining →
    readExpGolomb bits = .ok (v, bits.skip (ueCode v).length)
  other : (∀ v, v < 2 ^ 32 - 1 → ¬ ueCode v <+: bits.remaining) → ∃ e, readExpGolomb bits = bail e

/-- **The unsigned reader is exact but for its overflows.** -/
theorem unsignedExact_iff (bits : BitIter) : UnsignedExact bits ↔ ¬ Overflows bits.remaining := by
  constructor
  · intro h hover
    rcases readExpGolomb_cases bits with ⟨-, -, -, hnot, -⟩ | ⟨-, hnot, -⟩ | ⟨hno, -, hpanic⟩
    · exact hnot hover
    · exact hnot hover
    · obtain ⟨e, he⟩ := h.other hno
      rw [hpanic] at he
      simp [panics, bail] at he
  · intro hnot
    refine ⟨fun v hv hcode => readExpGolomb_eq_ok_iff.mpr ⟨hv, hcode, rfl⟩, fun hno => ?_⟩
    rcases readExpGolomb_cases bits with ⟨v, hv, hcode, -⟩ | ⟨-, -, he⟩ | ⟨-, hover, -⟩
    · exact absurd hcode (hno v hv)
    · exact he
    · exact absurd hover hnot

end Unsigned

/-! ### What the signed reader does -/

section Signed

variable {bits bits' : BitIter} {k : ℕ}

/-- **The sign is the other one**: where a code is read, the signed reader returns the number it
stands for with its sign turned round. -/
theorem readSignedExpGolomb_of_ok (h : readExpGolomb bits = .ok (k, bits')) :
    readSignedExpGolomb bits = .ok (-ofCodeNum k, bits') := by
  have hk : k < 2 ^ 32 - 1 := (readExpGolomb_eq_ok_iff.mp h).1
  have hshift : (k + 1) >>> 1 = (k + 1) / 2 := by rw [Nat.shiftRight_eq_div_pow, pow_one]
  have hmod : Int.bmod (((k + 1) / 2 : ℕ) : ℤ) (2 ^ 32) = ((k + 1) / 2 : ℕ) :=
    Int.bmod_eq_of_le (by omega) (by omega)
  rw [readSignedExpGolomb, h, ok_bind]
  simp only
  rw [if_pos (by omega), hshift, hmod, ofCodeNum]
  by_cases heven : k % 2 = 0
  · have hvalue : (((k + 1) / 2 : ℕ) : ℤ) = - -((k / 2 : ℕ) : ℤ) := by omega
    rw [if_pos heven, if_neg (by omega), hvalue]
  · rw [if_neg heven, if_neg (by omega), if_pos (by omega)]

theorem readSignedExpGolomb_of_bail {e : String} (h : readExpGolomb bits = bail e) :
    readSignedExpGolomb bits = bail e := by
  rw [readSignedExpGolomb, h, bail_bind]

theorem readSignedExpGolomb_of_panics (h : readExpGolomb bits = panics) :
    readSignedExpGolomb bits = panics := by
  rw [readSignedExpGolomb, h, panics_bind]

/-- **The signed reader is exact at a position.** -/
structure SignedExact (bits : BitIter) : Prop where
  code : ∀ v : ℤ, |v| < 2 ^ 31 → seCode v <+: bits.remaining →
    ∃ bits', readSignedExpGolomb bits = .ok (v, bits')
  other : (∀ v : ℤ, |v| < 2 ^ 31 → ¬ seCode v <+: bits.remaining) →
    ∃ e, readSignedExpGolomb bits = bail e

/-- The signed codes of a width stand where the unsigned ones do. -/
theorem noCode_iff (w : List Bool) :
    NoCode w ↔ ∀ v : ℤ, |v| < 2 ^ 31 → ¬ seCode v <+: w := by
  constructor
  · intro h v hv
    exact h (codeNum v) ((codeNum_lt_iff 31 v).mpr hv)
  · intro h k hk
    rw [← seCode_ofCodeNum]
    refine h (ofCodeNum k) ((codeNum_lt_iff 31 _).mp ?_)
    rwa [codeNum_ofCodeNum]

/-- **The signed reader is exact where the unsigned one is and reads no code but that of zero.** -/
theorem signedExact_iff (bits : BitIter) :
    SignedExact bits ↔ ¬ Overflows bits.remaining ∧
      ∀ k, k < 2 ^ 32 - 1 → ueCode k <+: bits.remaining → k = 0 := by
  constructor
  · refine fun h => ⟨fun hover => ?_, fun k hk hcode => ?_⟩
    · rcases readExpGolomb_cases bits with ⟨-, -, -, hnot, -⟩ | ⟨-, hnot, -⟩ | ⟨hno, -, hpanic⟩
      · exact hnot hover
      · exact hnot hover
      · obtain ⟨e, he⟩ := h.other ((noCode_iff _).mp hno)
        rw [readSignedExpGolomb_of_panics hpanic] at he
        simp [panics, bail] at he
    · -- the number that is read is its own negative
      have hread := readSignedExpGolomb_of_ok (readExpGolomb_eq_ok_iff.mpr ⟨hk, hcode, rfl⟩)
      have hv : |ofCodeNum k| < 2 ^ 31 :=
        (codeNum_lt_iff 31 _).mp (by rwa [codeNum_ofCodeNum])
      obtain ⟨bits', he⟩ := h.code (ofCodeNum k) hv (by rwa [seCode_ofCodeNum])
      rw [hread] at he
      have hneg : -ofCodeNum k = ofCodeNum k := (Prod.mk.inj (Except.ok.inj he)).1
      have hzero : ofCodeNum k = 0 := by omega
      rw [← codeNum_ofCodeNum k, hzero]
      rfl
  · rintro ⟨hnot, hzero⟩
    refine ⟨fun v hv hcode => ?_, fun hno => ?_⟩
    · have hk := (codeNum_lt_iff 31 v).mpr hv
      have hread := readSignedExpGolomb_of_ok (readExpGolomb_eq_ok_iff.mpr ⟨hk, hcode, rfl⟩)
      have hv0 : v = 0 := by rw [← ofCodeNum_codeNum v, hzero _ hk hcode]; rfl
      rw [ofCodeNum_codeNum, hv0, neg_zero] at hread
      exact ⟨_, hv0 ▸ hread⟩
    · rw [← noCode_iff] at hno
      rcases readExpGolomb_cases bits with ⟨v, hv, hcode, -⟩ | ⟨-, -, e, he⟩ | ⟨-, hover, -⟩
      · exact absurd hcode (hno v hv)
      · exact ⟨e, readSignedExpGolomb_of_bail he⟩
      · exact absurd hover hnot

end Signed

/-! ### Where both readers are exact -/

/-- The zeros can be counted, and where a one follows them they are none, or their count narrowed to
a `u8` is more than 32 or more than the bits that are left. -/
def Refusable (w : List Bool) : Prop :=
  leadingZeros w < 2 ^ 32 ∧
    ∀ z rest, w = List.replicate z false ++ true :: rest →
      z = 0 ∨ 32 < z % 2 ^ 8 ∨ rest.length < z % 2 ^ 8

/-- Apart from the code of zero, what does not overflow and is no code is refused. -/
theorem refusable_iff (w : List Bool) :
    Refusable w ↔ ¬ Overflows w ∧ ∀ k, k < 2 ^ 32 - 1 → ueCode k <+: w → k = 0 := by
  constructor
  · rintro ⟨hcount, hone⟩
    refine ⟨?_, fun k hk hcode => ?_⟩
    · rintro (h | ⟨z, rest, hw, h⟩)
      · omega
      · have hz := hone z rest hw
        omega
    · rcases zeros_or_one w with hw | ⟨rest, hw⟩
      · rw [hw] at hcode
        exact absurd hcode (not_ueCode_prefix_zeros k _)
      · have hz := hone _ rest hw
        generalize leadingZeros w = z at hw hz hcount
        rw [hw] at hcode
        have hsmall : ¬ (32 ≤ z ∨ rest.length < z) := fun h =>
          (noCode_one_iff z rest).mpr h k hk hcode
        obtain rfl : z = 0 := by omega
        simpa [value] using ((ueCode_prefix_iff k 0 rest).mp hcode).2
  · rintro ⟨hnot, hzero⟩
    refine ⟨?_, fun z rest hw => ?_⟩
    · by_contra h
      exact hnot (.inl (by omega))
    · by_contra h
      by_cases hz : z < 32
      · -- a code of a number that is not zero
        have hcode := hzero _ (@number_lt rest z hz (by omega))
          (hw ▸ (ueCode_prefix_iff _ z rest).mpr ⟨by omega, rfl⟩)
        have hpow : 2 ^ 1 ≤ 2 ^ z := Nat.pow_le_pow_right (by omega) (by omega)
        omega
      · exact hnot (.inr ⟨z, rest, hw, by omega, by omega, by omega⟩)

/-- **Where both readers are exact**, at every position of every byte sequence. -/
theorem expGolomb_exact_iff (bits : BitIter) :
    UnsignedExact bits ∧ SignedExact bits ↔ Refusable bits.remaining := by
  rw [unsignedExact_iff, signedExact_iff, refusable_iff]
  tauto

/-- The code of `1` is read as `-1`, and 32 zeros before a one and 32 more bits are a shift out of
range. -/
theorem expGolomb_not_exact :
    seCode 1 <+: (BitIter.new [0x40]).remaining ∧
      readSignedExpGolomb (BitIter.new [0x40]) = .ok (-1, ⟨[0x40], 0, 3⟩) ∧
      readExpGolomb (BitIter.new [0, 0, 0, 0, 0x80, 0, 0, 0, 0]) = panics ∧
      ¬ SignedExact (BitIter.new [0x40]) ∧
      ¬ UnsignedExact (BitIter.new [0, 0, 0, 0, 0x80, 0, 0, 0, 0]) := by
  have hcode : seCode 1 <+: (BitIter.new [0x40]).remaining := by decide
  have hsigned : readSignedExpGolomb (BitIter.new [0x40]) = .ok (-1, ⟨[0x40], 0, 3⟩) := by
    decide +kernel
  have hpanics : readExpGolomb (BitIter.new [0, 0, 0, 0, 0x80, 0, 0, 0, 0]) = panics := by
    decide
  refine ⟨hcode, hsigned, hpanics, fun h => ?_, fun h => ?_⟩
  · obtain ⟨bits', he⟩ := h.code 1 (by decide) hcode
    rw [hsigned] at he
    exact absurd (Prod.mk.inj (Except.ok.inj he)).1 (by decide)
  · rw [unsignedExact_iff] at h
    refine h (.inr ⟨32, List.replicate 39 false, ?_, by decide, by decide, by decide⟩)
    decide

end H264

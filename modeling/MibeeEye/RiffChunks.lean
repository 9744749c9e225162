/-
**Chunks behind one another.**

A chunk is a tag of four bytes, a length of four bytes, and as many bytes of a body; a byte is left free
behind a body of odd length.  A reader steps from chunk to chunk, whatever the bytes are, and takes the
last body as far as it is there.

Main definitions:

* `Riff.chunks` — the chunks that are found, with the place at which the body of each begins;
* `Riff.encode` — a chunk as it is written.

Main results:

* `Riff.chunks_encode` — a chunk that was written is found;
* `Riff.le_start` — the bodies begin behind the header of the first chunk.
-/

import MibeeEye.ByteOrder

set_option relaxedAutoImplicit false
set_option autoImplicit false

namespace Riff

open Wire

/-- A chunk that is found in some bytes; its body begins at `start`. -/
structure Chunk where
  start : ℕ
  id : List UInt8
  body : List UInt8
  deriving DecidableEq, Repr

/-- The length that a chunk declares. -/
def declared (rest : List UInt8) : ℕ := ofLe (slice rest 4 8)

/-- The chunks of `rest`, which begins at `pos`. -/
def chunks (pos : ℕ) (rest : List UInt8) : List Chunk :=
  if 8 ≤ rest.length then
    let size := declared rest
    ⟨pos + 8, rest.take 4, (rest.drop 8).take size⟩ ::
      chunks (pos + 8 + size + size % 2) (rest.drop (8 + size + size % 2))
  else []
termination_by rest.length
decreasing_by
  rw [List.length_drop]
  omega

variable {pos : ℕ} {rest : List UInt8}

theorem chunks_of_lt (h : rest.length < 8) : chunks pos rest = [] := by
  rw [chunks, if_neg (Nat.not_le.2 h)]

theorem chunks_of_le (h : 8 ≤ rest.length) :
    chunks pos rest = ⟨pos + 8, rest.take 4, (rest.drop 8).take (declared rest)⟩ ::
      chunks (pos + 8 + declared rest + declared rest % 2)
        (rest.drop (8 + declared rest + declared rest % 2)) := by
  rw [chunks, if_pos h]

/-- The bodies begin behind the header of the first chunk. -/
theorem le_start {c : Chunk} (h : c ∈ chunks pos rest) : pos + 8 ≤ c.start := by
  induction hlen : rest.length using Nat.strong_induction_on generalizing pos rest with
  | _ n ih =>
      subst hlen
      rcases Nat.lt_or_ge rest.length 8 with hlt | hge
      · rw [chunks_of_lt hlt] at h
        cases h
      · rw [chunks_of_le hge] at h
        rcases List.mem_cons.mp h with rfl | h
        · exact le_rfl
        · have hrest := ih (rest.drop (8 + declared rest + declared rest % 2)).length
            (by rw [List.length_drop]; omega) h rfl
          omega

/-- A chunk as it is written, with a body of even length. -/
def encode (id body : List UInt8) : List UInt8 := id ++ leBytes 4 body.length ++ body

/-- A chunk that was written is found. -/
theorem chunks_encode {id body : List UInt8} (hid : id.length = 4) (heven : body.length % 2 = 0)
    (hlen : body.length < 2 ^ 32) :
    chunks pos (encode id body ++ rest) =
      ⟨pos + 8, id, body⟩ :: chunks (pos + 8 + body.length) rest := by
  have hhead : (id ++ leBytes 4 body.length).length = 8 := by rw [List.length_append, hid, length_leBytes]
  have hall : encode id body ++ rest = (id ++ leBytes 4 body.length) ++ (body ++ rest) := by
    rw [encode, List.append_assoc]
  have hdeclared : declared (encode id body ++ rest) = body.length := by
    rw [declared, slice, hall, List.append_assoc, List.drop_left' hid,
      List.take_left' (length_leBytes 4 body.length), ofLe_leBytes_of_lt (by simpa using hlen)]
  have htag : (encode id body ++ rest).take 4 = id := by
    rw [hall, List.append_assoc, List.take_left' hid]
  have hbody : (encode id body ++ rest).drop 8 = body ++ rest := by rw [hall, List.drop_left' hhead]
  have hnext : (encode id body ++ rest).drop (8 + body.length) = rest := by
    rw [← List.drop_drop, hbody, List.drop_left]
  rw [chunks_of_le (by rw [hall, List.length_append, hhead]; omega), hdeclared, heven, htag, hbody,
    List.take_left, Nat.add_zero (8 + body.length), hnext, Nat.add_zero (pos + 8 + body.length)]

end Riff

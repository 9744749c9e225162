/-
**The stored voices of speakers.**

`crates/web/src/db.rs`: the embeddings of a speaker are stored as one blob, vector by vector, with the
dimension and the number of vectors beside it.  They are read back if the length of the blob agrees with
the two numbers.

An `f32` is its bit pattern.  `usize` has 64 bits; memory is not limited, except that no slice has more
than `isize::MAX` bytes.

Main definitions:

* `SpeakerBlob.embeddingsToBlob`, `SpeakerBlob.blobToEmbeddings` — the two directions;
* `SpeakerBlob.Agrees` — the length is what the two numbers say, as integers;
* `SpeakerBlob.Rejects` — reading gives vectors exactly where the length agrees, and does not panic.

Main results:

* `SpeakerBlob.blobToEmbeddings_fits` — reading, where the product of the numbers fits;
* `SpeakerBlob.blobToEmbeddings_wraps` — a product that wraps round to the length is a panic;
* `SpeakerBlob.embeddings_survive` — **the round trip, and exactly when corrupt rows are rejected**.
-/

import MibeeEye.ByteOrder
import MibeeEye.FixedWidth
import MibeeEye.RowMajor

set_option relaxedAutoImplicit false
set_option autoImplicit false

namespace SpeakerBlob

open FixedWidth Wire RowMajor

/-! ### The two directions -/

/-- A slice of bytes, which are `isize::MAX` at most. -/
structure Blob where
  bytes : List UInt8
  size : bytes.length < 2 ^ 63

/-- `x.to_le_bytes()` of a bit pattern. -/
def toLeBytes (x : UInt32) : List UInt8 := leBytes 4 x.toNat

/-- `f32::from_le_bytes` -/
def fromLeBytes (b : List UInt8) : UInt32 := UInt32.ofNat (ofLe b)

/-- **`embeddings_to_blob`**: the bytes of all vectors. -/
def embeddingsToBlob (embeddings : List (List UInt32)) : List UInt8 :=
  embeddings.flatMap fun v => v.flatMap toLeBytes

/-- `x as usize` -/
def asUsize (x : Int64) : ℕ := (x.toInt % 2 ^ 64).toNat

/-- One number of a vector: the four bytes at its place; `none` is a panic. -/
def readNumber (build : Build) (blob : List UInt8) (dim c d : ℕ) : Option UInt32 :=
  (build.result 64 (c * dim)).bind fun row =>
  (build.result 64 (row + d)).bind fun place =>
  (build.result 64 (place * 4)).bind fun off =>
  (build.result 64 (off + 4)).bind fun stop =>
  if off ≤ stop ∧ stop ≤ blob.length then some (fromLeBytes (slice blob off stop)) else none

/-- **`blob_to_embeddings`**: the vectors or nothing, `none` for a panic. -/
def blobToEmbeddings (build : Build) (blob : Blob) (dim count : Int64) :
    Option (Option (List (List UInt32))) :=
  if dim.toInt ≤ 0 ∨ count.toInt ≤ 0 then some none
  else
    let dim := asUsize dim
    let count := asUsize count
    (build.result 64 (dim * count)).bind fun numbers =>
    (build.result 64 (numbers * 4)).bind fun size =>
    if blob.bytes.length ≠ size then some none
    else
      ((List.range count).mapM fun c =>
        (List.range dim).mapM fun d => readNumber build blob.bytes dim c d).map some

/-! ### Numbers -/

theorem length_toLeBytes (x : UInt32) : (toLeBytes x).length = 4 := length_leBytes 4 x.toNat

/-- A number is read back from its bytes. -/
theorem fromLeBytes_toLeBytes (x : UInt32) : fromLeBytes (toLeBytes x) = x := by
  have hx : x.toNat < 256 ^ 4 := x.toNat_lt
  rw [fromLeBytes, toLeBytes, ofLe_leBytes_of_lt hx, UInt32.ofNat_toNat]

/-- A positive number is the same as a size. -/
theorem asUsize_of_pos {x : Int64} (h : 0 < x.toInt) : (asUsize x : ℤ) = x.toInt ∧ 0 < asUsize x := by
  have hlt : x.toInt < 2 ^ 63 := x.toInt_lt
  have hmod : x.toInt % 2 ^ 64 = x.toInt := Int.emod_eq_of_lt h.le (hlt.trans (by decide))
  rw [asUsize, hmod]
  omega

/-- A number whose bytes are within the blob is read. -/
theorem readNumber_of_le (build : Build) {blob : Blob} {dim c d : ℕ}
    (h : (c * dim + d) * 4 + 4 ≤ blob.bytes.length) :
    readNumber build blob.bytes dim c d =
      some (fromLeBytes (slice blob.bytes ((c * dim + d) * 4) ((c * dim + d) * 4 + 4))) := by
  have hsize := blob.size
  rw [readNumber, Build.result_eq (by omega), Option.bind_some, Build.result_eq (by omega),
    Option.bind_some, Build.result_eq (by omega), Option.bind_some, Build.result_eq (by omega),
    Option.bind_some, if_pos ⟨Nat.le_add_right _ _, h⟩]

/-- A number whose bytes run over the end of the blob is a panic. -/
theorem readNumber_of_lt (build : Build) {blob : Blob} {dim c d : ℕ}
    (hbegin : (c * dim + d) * 4 ≤ blob.bytes.length)
    (hend : blob.bytes.length < (c * dim + d) * 4 + 4) :
    readNumber build blob.bytes dim c d = none := by
  have hsize := blob.size
  rw [readNumber, Build.result_eq (by omega), Option.bind_some, Build.result_eq (by omega),
    Option.bind_some, Build.result_eq (by omega), Option.bind_some, Build.result_eq (by omega),
    Option.bind_some, if_neg (by omega)]

/-! ### Vectors -/

/-- The numbers of a blob, by their places. -/
def numberAt (blob : List UInt8) (k : ℕ) : UInt32 := fromLeBytes (slice blob (k * 4) (k * 4 + 4))

/-- All vectors are read of a blob that has the bytes of them. -/
theorem readAll_of_le (build : Build) {blob : Blob} {dim count : ℕ}
    (h : dim * count * 4 ≤ blob.bytes.length) :
    ((List.range count).mapM fun c =>
        (List.range dim).mapM fun d => readNumber build blob.bytes dim c d) =
      some (tabulate count dim (numberAt blob.bytes)) := by
  refine mapM_eq_some fun c hc => mapM_eq_some fun d hd => readNumber_of_le build ?_
  have hplace := place_lt (List.mem_range.mp hc) (List.mem_range.mp hd)
  rw [Nat.mul_comm dim count] at h
  omega

/-- A blob that has not the bytes of all vectors is a panic. -/
theorem readAll_of_lt (build : Build) {blob : Blob} {dim count : ℕ}
    (h : blob.bytes.length < dim * count * 4) :
    ((List.range count).mapM fun c =>
        (List.range dim).mapM fun d => readNumber build blob.bytes dim c d) = none := by
  -- the first number that is not there as a whole
  obtain ⟨c, d, hc, hd, hplace⟩ : ∃ c d, c < count ∧ d < dim ∧ c * dim + d = blob.bytes.length / 4 :=
    exists_place (by rw [Nat.mul_comm dim count] at h; omega)
  refine mapM_eq_none (List.mem_range.mpr hc) (mapM_eq_none (List.mem_range.mpr hd) ?_)
  refine readNumber_of_lt build ?_ ?_ <;> rw [hplace] <;> omega

/-! ### Rows -/

/-- The length of the blob is what the two numbers say, as integers. -/
def Agrees (blob : Blob) (dim count : Int64) : Prop :=
  0 < dim.toInt ∧ 0 < count.toInt ∧ 4 * dim.toInt * count.toInt = blob.bytes.length

/-- Reading gives vectors exactly where the length agrees, and does not panic. -/
def Rejects (build : Build) (blob : Blob) (dim count : Int64) : Prop :=
  ∃ r, blobToEmbeddings build blob dim count = some r ∧ (r.isSome = true ↔ Agrees blob dim count)

variable {build : Build} {blob : Blob} {dim count : Int64}

/-- Reading of positive numbers, with the product of them at once. -/
theorem blobToEmbeddings_of_pos (hdim : 0 < dim.toInt) (hcount : 0 < count.toInt) :
    blobToEmbeddings build blob dim count =
      (build.result 64 (asUsize dim * asUsize count * 4)).bind fun size =>
        if blob.bytes.length ≠ size then some none
        else ((List.range (asUsize count)).mapM fun c => (List.range (asUsize dim)).mapM fun d =>
          readNumber build blob.bytes (asUsize dim) c d).map some := by
  unfold blobToEmbeddings
  rw [if_neg (by omega), ← Build.result_bind_mul (by decide : 0 < 4), Option.bind_assoc]

/-- The product of the two numbers, as integers. -/
theorem product_eq (hdim : 0 < dim.toInt) (hcount : 0 < count.toInt) :
    4 * dim.toInt * count.toInt = ((asUsize dim * asUsize count * 4 : ℕ) : ℤ) := by
  rw [Nat.cast_mul, Nat.cast_mul, (asUsize_of_pos hdim).1, (asUsize_of_pos hcount).1]
  push_cast
  ring

/-- Numbers of which one is not positive are rejected. -/
theorem rejects_of_not_pos (h : dim.toInt ≤ 0 ∨ count.toInt ≤ 0) :
    Rejects build blob dim count := by
  refine ⟨none, if_pos h, ⟨fun hnone => (nomatch hnone), fun hagree => ?_⟩⟩
  have := hagree.1
  have := hagree.2.1
  omega

/-- Reading, where the product of the numbers fits. -/
theorem blobToEmbeddings_fits (hdim : 0 < dim.toInt) (hcount : 0 < count.toInt)
    (hfits : asUsize dim * asUsize count * 4 < 2 ^ 64) :
    blobToEmbeddings build blob dim count =
      if blob.bytes.length = asUsize dim * asUsize count * 4 then
        some (some (tabulate (asUsize count) (asUsize dim) (numberAt blob.bytes)))
      else some none := by
  rw [blobToEmbeddings_of_pos hdim hcount, Build.result_eq hfits, Option.bind_some]
  by_cases hlen : blob.bytes.length = asUsize dim * asUsize count * 4
  · rw [if_neg (not_not_intro hlen), if_pos hlen, readAll_of_le build hlen.ge, Option.map_some]
  · rw [if_pos hlen, if_neg hlen]

/-- A product that wraps round to the length is a panic, and one that panics is one. -/
theorem blobToEmbeddings_wraps (hdim : 0 < dim.toInt) (hcount : 0 < count.toInt)
    (hwide : 2 ^ 64 ≤ asUsize dim * asUsize count * 4)
    (hlen : build = .checked ∨ asUsize dim * asUsize count * 4 % 2 ^ 64 = blob.bytes.length) :
    blobToEmbeddings build blob dim count = none := by
  have hsize := blob.size
  rw [blobToEmbeddings_of_pos hdim hcount]
  cases build with
  | checked => rw [Build.result_checked hwide, Option.bind_none]
  | wrapping =>
      obtain hbuild | hlen := hlen
      · cases hbuild
      · rw [Build.result_wrapping, Option.bind_some, hlen, if_neg (not_not_intro rfl),
          readAll_of_lt .wrapping (by omega), Option.map_none]

/-- A product that wraps round to something else is rejected as it should be. -/
theorem rejects_of_ne (hdim : 0 < dim.toInt) (hcount : 0 < count.toInt)
    (hwide : 2 ^ 64 ≤ asUsize dim * asUsize count * 4)
    (hne : asUsize dim * asUsize count * 4 % 2 ^ 64 ≠ blob.bytes.length) :
    Rejects .wrapping blob dim count := by
  have hsize := blob.size
  refine ⟨none, ?_, ⟨fun hnone => (nomatch hnone), fun hagree => ?_⟩⟩
  · rw [blobToEmbeddings_of_pos hdim hcount, Build.result_wrapping, Option.bind_some,
      if_pos (Ne.symm hne)]
  · have hlen := hagree.2.2
    rw [product_eq hdim hcount] at hlen
    omega

/-- Exactly when a row is read if its length agrees, and rejected if not. -/
theorem rejects_iff : Rejects build blob dim count ↔
    dim.toInt ≤ 0 ∨ count.toInt ≤ 0 ∨ 4 * dim.toInt * count.toInt < 2 ^ 64 ∨
      build = .wrapping ∧ 4 * dim.toInt * count.toInt % 2 ^ 64 ≠ blob.bytes.length := by
  by_cases hpos : dim.toInt ≤ 0 ∨ count.toInt ≤ 0
  · exact ⟨fun _ => hpos.imp_right .inl, fun _ => rejects_of_not_pos hpos⟩
  · have hdim : 0 < dim.toInt := by omega
    have hcount : 0 < count.toInt := by omega
    rw [product_eq hdim hcount]
    by_cases hfits : asUsize dim * asUsize count * 4 < 2 ^ 64
    · refine ⟨fun _ => .inr (.inr (.inl (by exact_mod_cast hfits))), fun _ => ?_⟩
      have hread := @blobToEmbeddings_fits build blob dim count hdim hcount hfits
      have hagree : Agrees blob dim count ↔
          blob.bytes.length = asUsize dim * asUsize count * 4 := by
        rw [Agrees, product_eq hdim hcount]
        exact ⟨fun h => by have := h.2.2; omega, fun h => ⟨hdim, hcount, by omega⟩⟩
      rw [Rejects, hread, hagree]
      split
      · next hlen => exact ⟨_, rfl, by simp [hlen]⟩
      · next hlen => exact ⟨_, rfl, by simp [hlen]⟩
    · have hwide : 2 ^ 64 ≤ asUsize dim * asUsize count * 4 := Nat.not_lt.1 hfits
      constructor
      · rintro ⟨r, hr, -⟩
        -- a panic gives nothing
        have hnot : ¬ (build = .checked ∨
            asUsize dim * asUsize count * 4 % 2 ^ 64 = blob.bytes.length) := fun hlen => by
          rw [blobToEmbeddings_wraps hdim hcount hwide hlen] at hr
          cases hr
        rw [not_or] at hnot
        refine .inr (.inr (.inr ⟨?_, by omega⟩))
        cases build with
        | checked => exact absurd rfl hnot.1
        | wrapping => rfl
      · rintro (h | h | h | ⟨rfl, hne⟩)
        · omega
        · omega
        · omega
        · exact rejects_of_ne hdim hcount hwide (by omega)

/-! ### The round trip -/

/-- The bytes of all vectors are those of all their numbers. -/
theorem embeddingsToBlob_eq (e : List (List UInt32)) :
    embeddingsToBlob e = e.flatten.flatMap toLeBytes := by
  rw [embeddingsToBlob, ← List.flatMap_id, List.flatMap_assoc]
  rfl

/-- A number of the vectors is read at its place. -/
theorem numberAt_embeddings {e : List (List UInt32)} {k : ℕ} {x : UInt32} (hk : e.flatten[k]? = some x) :
    numberAt (embeddingsToBlob e) k = x := by
  rw [numberAt, slice, Nat.add_sub_cancel_left, embeddingsToBlob_eq,
    take_drop_flatMap length_toLeBytes hk, fromLeBytes_toLeBytes]

/-- The vectors that were stored are read back, and a row whose length does not agree with its numbers is
rejected without a panic exactly where a number is not positive or the product of both with 4 fits in 64
bits, or where it wraps round to another length. -/
theorem embeddings_survive {build : Build} {e : List (List UInt32)} {d : ℕ} {stored : Blob}
    {dim count : Int64} (hne : e ≠ []) (hd : 1 ≤ d) (hrows : ∀ v ∈ e, v.length = d)
    (hstored : stored.bytes = embeddingsToBlob e) (hdim : dim.toInt = d)
    (hcount : count.toInt = e.length) :
    blobToEmbeddings build stored dim count = some (some e) ∧
    ∀ (blob : Blob) (dim count : Int64), Rejects build blob dim count ↔
      dim.toInt ≤ 0 ∨ count.toInt ≤ 0 ∨ 4 * dim.toInt * count.toInt < 2 ^ 64 ∨
        build = .wrapping ∧ 4 * dim.toInt * count.toInt % 2 ^ 64 ≠ blob.bytes.length := by
  refine ⟨?_, fun _ _ _ => rejects_iff⟩
  have hdim0 : 0 < dim.toInt := by omega
  have hcount0 : 0 < count.toInt := by
    have := List.length_pos_of_ne_nil hne
    omega
  have hdimSize : asUsize dim = d := by have := (asUsize_of_pos hdim0).1; omega
  have hcountSize : asUsize count = e.length := by have := (asUsize_of_pos hcount0).1; omega
  have hlen : stored.bytes.length = asUsize dim * asUsize count * 4 := by
    rw [hstored, embeddingsToBlob_eq, length_flatMap length_toLeBytes, length_flatten hrows, hdimSize,
      hcountSize, Nat.mul_comm d]
  have hsize := stored.size
  rw [blobToEmbeddings_fits hdim0 hcount0 (by omega), if_pos hlen, hcountSize, hdimSize, hstored,
    tabulate_flatten hrows fun k x hk => numberAt_embeddings hk]

/-- Two vectors of two numbers. -/
theorem embeddings_survive_two :
    blobToEmbeddings .checked ⟨embeddingsToBlob [[1, 2], [3, 0x3f800000]], by decide⟩ 2 2 =
      some (some [[1, 2], [3, 0x3f800000]]) :=
  (embeddings_survive (by decide) (by decide : 1 ≤ 2) (by decide) rfl (by decide) (by decide)).1

/-- Of an empty blob with `2 ^ 31` vectors of `2 ^ 31` numbers the reading panics, in either build. -/
theorem not_rejects_two_pow_62 :
    ¬ Rejects .checked ⟨[], by decide⟩ 2147483648 2147483648 ∧
    ¬ Rejects .wrapping ⟨[], by decide⟩ 2147483648 2147483648 := by
  have hval : (2147483648 : Int64).toInt = 2147483648 := by decide
  refine ⟨fun h => ?_, fun h => ?_⟩ <;> rw [rejects_iff, hval] at h <;> revert h <;> decide

end SpeakerBlob

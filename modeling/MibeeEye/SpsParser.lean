/-
**Sequence parameter sets.**

`parse_sps` of `crates/protocols/src/h264.rs` reads the fields that the size of a picture is made of
out of a NAL unit, as far as the cropping.  What stands between them is read and dropped, and so is
`frame_mbs_only_flag` once it has said whether another flag follows.

Main definitions:

* `H264.readScalingList` — a scaling list, which is read and dropped;
* `H264.parseSpsFields`, `H264.parseSps` — the parser, with the flag it drops and without it.

Main results:

* `H264.reads_readExpGolomb`, `H264.reads_readSignedExpGolomb` — the codes that the readers of numbers
  read: **the signed one reads the code of a number as its negative**.
-/

import MibeeEye.BitIter
import MibeeEye.CodeReaders
import MibeeEye.Keyframes

set_option relaxedAutoImplicit false
set_option autoImplicit false

namespace H264

open Checked CodeReaders ExpGolomb

/-! ### The parser -/

/-- What `{:?}` writes for a type. -/
def NalUnitType.debug : NalUnitType → String
  | .unspecified => "Unspecified"
  | .slice => "Slice"
  | .sliceA => "SliceA"
  | .sliceB => "SliceB"
  | .sliceC => "SliceC"
  | .idr => "Idr"
  | .sei => "Sei"
  | .sps => "Sps"
  | .pps => "Pps"
  | .aud => "Aud"
  | .endOfSequence => "EndOfSequence"
  | .endOfStream => "EndOfStream"
  | .filler => "Filler"
  | .spsExt => "SpsExt"
  | .prefixNal => "Prefix"
  | .subsetSps => "SubsetSps"
  | .sliceAux => "SliceAux"
  | .reserved => "Reserved"

/-- `FrameCropping`. -/
structure FrameCropping where
  leftOffset : ℕ
  rightOffset : ℕ
  topOffset : ℕ
  bottomOffset : ℕ
  deriving DecidableEq, Repr

/-- `SpsParams`. -/
structure SpsParams where
  profileIdc : UInt8
  constraintFlags : List UInt8
  levelIdc : UInt8
  seqParameterSetId : ℕ
  chromaFormatIdc : ℕ
  picWidthInMbsMinus1 : ℕ
  picHeightInMapUnitsMinus1 : ℕ
  frameCroppingFlag : Bool
  frameCropping : Option FrameCropping
  deriving DecidableEq, Repr

/-- The profiles with more parameters. -/
def highProfiles : List UInt8 := [100, 110, 122, 244, 44, 83, 86, 118, 128]

/-- The loop of `read_scaling_list`. -/
@[grind =] def readScalingListF : ℕ → ℤ → ℤ → BitIter → Run String (Unit × BitIter)
  | 0, _, _, bits => .ok ((), bits)
  | n + 1, lastScale, nextScale, bits =>
      if nextScale ≠ 0 then do
        let (deltaScale, bits) ← readSignedExpGolomb bits
        -- the sum of two `i32`, and a remainder with the sign of what is divided
        if -2 ^ 31 ≤ lastScale + deltaScale ∧ lastScale + deltaScale < 2 ^ 31 then
          let nextScale := (lastScale + deltaScale).tmod 256
          readScalingListF n (if nextScale = 0 then 8 else nextScale) nextScale bits
        else panics
      else readScalingListF n 8 nextScale bits

/-- `read_scaling_list`. -/
def readScalingList (size : ℕ) (bits : BitIter) : Run String (Unit × BitIter) :=
  readScalingListF size 8 8 bits

/-- The sizes of the first scaling lists. -/
def scalingSizes (n : ℕ) : List ℕ := (List.range n).map fun i => if i < 6 then 16 else 64

/-- A flag and what follows it if it is set. -/
def flagged {α : Type} (read : BitIter → Run String (α × BitIter)) (bits : BitIter) :
    Run String (Option α × BitIter) := do
  let (present, bits) ← bits.readBit
  optionally present read bits

/-- The parameters of the high profiles; only the chroma format is kept. -/
def readHighProfile (bits : BitIter) : Run String (ℕ × BitIter) := do
  let (chromaFormatIdc, bits) ← readExpGolomb bits
  -- separate_colour_plane_flag
  let (_, bits) ← optionally (chromaFormatIdc = 3) BitIter.readBit bits
  -- bit_depth_luma_minus8, bit_depth_chroma_minus8
  let (_, bits) ← readExpGolomb bits
  let (_, bits) ← readExpGolomb bits
  -- qpprime_y_zero_transform_bypass_flag
  let (_, bits) ← bits.readBit
  let (_, bits) ← flagged (forEach (fun size => flagged (readScalingList size)) (scalingSizes 8)) bits
  return (chromaFormatIdc, bits)

/-- The parameters of the order of pictures. -/
def readPicOrderCnt (bits : BitIter) : Run String (Unit × BitIter) := do
  let (picOrderCntType, bits) ← readExpGolomb bits
  if picOrderCntType = 0 then do
    -- log2_max_pic_order_cnt_lsb_minus4
    let (_, bits) ← readExpGolomb bits
    return ((), bits)
  else if picOrderCntType = 1 then do
    -- delta_pic_order_always_zero_flag
    let (_, bits) ← bits.readBit
    -- offset_for_non_ref_pic, offset_for_top_to_bottom_field
    let (_, bits) ← readSignedExpGolomb bits
    let (_, bits) ← readSignedExpGolomb bits
    let (numRefFrames, bits) ← readExpGolomb bits
    -- offset_for_ref_frame[i]
    times readSignedExpGolomb numRefFrames bits
  else .ok ((), bits)

/-- The offsets of the cropping. -/
def readFrameCropping (bits : BitIter) : Run String (FrameCropping × BitIter) := do
  let (leftOffset, bits) ← readExpGolomb bits
  let (rightOffset, bits) ← readExpGolomb bits
  let (topOffset, bits) ← readExpGolomb bits
  let (bottomOffset, bits) ← readExpGolomb bits
  return (⟨leftOffset, rightOffset, topOffset, bottomOffset⟩, bits)

/-- `parse_sps` from behind the first byte, with `frame_mbs_only_flag`. -/
def readSps (bits : BitIter) : Run String ((SpsParams × Bool) × BitIter) := do
  let (profileIdc, bits) ← bits.readBits 8
  let (constraintByte, bits) ← bits.readBits 8
  let (levelIdc, bits) ← bits.readBits 8
  let (seqParameterSetId, bits) ← readExpGolomb bits
  let (chromaFormatIdc, bits) ←
    optionally (highProfiles.contains (UInt8.ofNat profileIdc)) readHighProfile bits
  -- log2_max_frame_num_minus4
  let (_, bits) ← readExpGolomb bits
  let (_, bits) ← readPicOrderCnt bits
  -- max_num_ref_frames, gaps_in_frame_num_value_allowed_flag
  let (_, bits) ← readExpGolomb bits
  let (_, bits) ← bits.readBit
  let (picWidthInMbsMinus1, bits) ← readExpGolomb bits
  let (picHeightInMapUnitsMinus1, bits) ← readExpGolomb bits
  let (frameMbsOnlyFlag, bits) ← bits.readBit
  -- mb_adaptive_frame_field_flag
  let (_, bits) ← optionally (!frameMbsOnlyFlag) BitIter.readBit bits
  -- direct_8x8_inference_flag
  let (_, bits) ← bits.readBit
  let (frameCropping, bits) ← flagged readFrameCropping bits
  return (({
    profileIdc := UInt8.ofNat profileIdc
    constraintFlags := [UInt8.ofNat constraintByte, 0, 0]
    levelIdc := UInt8.ofNat levelIdc
    seqParameterSetId := seqParameterSetId
    chromaFormatIdc := chromaFormatIdc.getD 1
    picWidthInMbsMinus1 := picWidthInMbsMinus1
    picHeightInMapUnitsMinus1 := picHeightInMapUnitsMinus1
    frameCroppingFlag := frameCropping.isSome
    frameCropping := frameCropping }, frameMbsOnlyFlag), bits)

/-- `parse_sps`, with `frame_mbs_only_flag`. -/
def parseSpsFields (nalData : List UInt8) : Run String (SpsParams × Bool) := do
  let (header, payload) ← returned (parseNalHeader nalData)
  if header.nalUnitType ≠ .sps then
    bail s!"Expected SPS (type 7), got {header.nalUnitType.debug}"
  else do
    let (fields, _) ← readSps (BitIter.new payload)
    return fields

/-- `parse_sps`. -/
def parseSps (nalData : List UInt8) : Run String SpsParams := do
  let (params, _) ← parseSpsFields nalData
  return params

/-! ### The codes that are read -/

instance : Cursor BitIter Bool where
  remaining := BitIter.remaining
  skip := BitIter.skip
  skip_zero := BitIter.skip_zero
  skip_skip := BitIter.skip_skip
  remaining_skip := BitIter.remaining_skip

theorem reads_readBit (b : Bool) : Reads BitIter.readBit [b] b := by
  rintro bits ⟨rest, hrest⟩
  exact BitIter.readBit_cons hrest.symm

theorem reads_readBits {bs : List Bool} (h : bs.length ≤ 32) :
    Reads (fun bits => BitIter.readBits bits bs.length) bs (value bs) := by
  rintro bits ⟨rest, hrest⟩
  have hremaining : bits.remaining = bs ++ rest := hrest.symm
  have hlen : bs.length ≤ bits.remaining.length := by simp [hremaining]
  show bits.readBits bs.length = _
  rw [BitIter.readBits_eq bits h, if_pos hlen, hremaining, List.take_left]
  rfl

/-- A byte. -/
theorem reads_byte (b : UInt8) :
    Reads (fun bits => BitIter.readBits bits 8) (digits 8 b.toNat) b.toNat := by
  have hread := @reads_readBits (digits 8 b.toNat) (by simp)
  rwa [length_digits, value_digits, Nat.mod_eq_of_lt b.toNat_lt] at hread

theorem reads_readExpGolomb {v : ℕ} (h : v < 2 ^ 32 - 1) : Reads readExpGolomb (ueCode v) v :=
  fun _ hcode => readExpGolomb_eq_ok_iff.mpr ⟨h, hcode, rfl⟩

/-- **The code of a signed number is read as its negative.** -/
theorem reads_readSignedExpGolomb {v : ℤ} (h : |v| < 2 ^ 31) :
    Reads readSignedExpGolomb (seCode v) (-v) := by
  intro bits hcode
  have hread := reads_readExpGolomb ((codeNum_lt_iff 31 v).mpr h) bits hcode
  rw [readSignedExpGolomb_of_ok hread, ofCodeNum_codeNum]
  rfl

/-- A flag, and a code where it is set. -/
theorem reads_flagged {α δ : Type} {read : BitIter → Run String (α × BitIter)}
    {code : δ → List Bool} {value : δ → α} {o : Option δ}
    (h : ∀ e ∈ o, Reads read (code e) (value e)) :
    Reads (flagged read) (o.isSome :: o.elim [] code) (o.map value) :=
  (reads_readBit o.isSome).bind (Reads.optionally rfl h)

end H264

/-
**The size of a picture.**

`SpsParams::width` and `SpsParams::height` of `crates/protocols/src/h264.rs` make a size out of what
`parse_sps` returns, and `init_with_sps_pps` of `crates/streaming/src/fmp4.rs` puts it into the track.
A picture of fields has twice the rows that its parameters say, and its cropping counts twice as much;
the flag that tells is not among the parameters.

Main definitions:

* `H264.SpsParams.width`, `H264.SpsParams.height` — the code's sizes;
* `H264.SpsParams.pictureWidth`, `H264.SpsParams.pictureHeight` — the sizes of the standard;
* `H264.SizeExact`, `H264.SizeFits` — the code's sizes are those, and when they are;
* `H264.trackSize` — the size of the track.

Main results:

* `H264.SpsParams.width_eq_ok_iff`, `H264.SpsParams.height_eq_ok_iff` — when there is a size;
* `H264.sizeExact_iff` — **when the sizes are those of the standard**.
-/

import MibeeEye.CheckedArithmetic
import MibeeEye.SpsParser
import Mathlib.Tactic.Ring

set_option relaxedAutoImplicit false
set_option autoImplicit false

namespace H264

open Checked

/-! ### The code's sizes -/

/-- So many macroblocks, less the offsets from both ends, each of which counts once or twice. -/
def croppedSize (countMinus1 : ℕ) (offsets : Option (ℕ × ℕ)) (twice : Bool) : Run String ℤ := do
  let count ← unsigned 32 (countMinus1 + 1)
  let base ← unsigned 32 (count * 16)
  let crop ← offsets.elim (.ok 0) fun o => unsigned 32 (o.1 + o.2)
  if twice then do
    let crop ← unsigned 32 (crop * 2)
    unsigned 32 (base - crop)
  else unsigned 32 (base - crop)

namespace SpsParams

/-- `SpsParams::width`. -/
def width (p : SpsParams) : Run String ℤ :=
  croppedSize p.picWidthInMbsMinus1
    (p.frameCropping.map fun c => (c.leftOffset, c.rightOffset))
    (match p.chromaFormatIdc with
      | 0 => false
      | 1 | 2 => true
      | 3 => false
      | _ => false)

/-- `SpsParams::height`. -/
def height (p : SpsParams) : Run String ℤ :=
  croppedSize p.picHeightInMapUnitsMinus1
    (p.frameCropping.map fun c => (c.topOffset, c.bottomOffset))
    (match p.chromaFormatIdc with
      | 0 => false
      | 1 => true
      | 2 | 3 => false
      | _ => false)

end SpsParams

/-- The offsets from both ends. -/
def cropOf (offsets : Option (ℕ × ℕ)) : ℤ := offsets.elim 0 fun o => o.1 + o.2

theorem cropOf_nonneg (offsets : Option (ℕ × ℕ)) : 0 ≤ cropOf offsets := by
  cases offsets with
  | none => exact le_rfl
  | some o => exact Int.add_nonneg (Int.natCast_nonneg _) (Int.natCast_nonneg _)

/-- **When there is a size**, and which. -/
theorem croppedSize_eq_ok_iff {countMinus1 : ℕ} {offsets : Option (ℕ × ℕ)} {twice : Bool} {n : ℤ} :
    croppedSize countMinus1 offsets twice = .ok n ↔
      (if twice then 2 else 1) * cropOf offsets ≤ 16 * (countMinus1 + 1) ∧
        16 * (countMinus1 + 1) < (2 : ℤ) ^ 32 ∧
        n = 16 * (countMinus1 + 1) - (if twice then 2 else 1) * cropOf offsets := by
  have hcount : (0 : ℤ) ≤ countMinus1 := Int.natCast_nonneg _
  have hcrop := cropOf_nonneg offsets
  have hoffsets : ∀ f : ℤ → Run String ℤ,
      ((offsets.elim (.ok 0) fun o => unsigned 32 (o.1 + o.2)) >>= f) = .ok n ↔
        cropOf offsets < 2 ^ 32 ∧ f (cropOf offsets) = .ok n := by
    intro f
    cases offsets with
    | none => simp [cropOf]
    | some o =>
        rw [Option.elim_some, bind_unsigned_eq_ok_iff]
        exact ⟨fun h => ⟨h.1.2, h.2⟩, fun h => ⟨⟨hcrop, h.1⟩, h.2⟩⟩
  rw [croppedSize, bind_unsigned_eq_ok_iff, bind_unsigned_eq_ok_iff, hoffsets]
  cases twice with
  | false =>
      simp only [Bool.false_eq_true, if_false, unsigned_eq_ok_iff]
      omega
  | true =>
      simp only [if_true, bind_unsigned_eq_ok_iff, unsigned_eq_ok_iff]
      omega

/-! ### The sizes of the standard -/

namespace SpsParams

variable {p : SpsParams} {n : ℤ}

/-- `SubWidthC`; one where there is no chroma, or no such format. -/
def subWidthC (p : SpsParams) : ℤ := if p.chromaFormatIdc = 1 ∨ p.chromaFormatIdc = 2 then 2 else 1

/-- `SubHeightC`. -/
def subHeightC (p : SpsParams) : ℤ := if p.chromaFormatIdc = 1 then 2 else 1

/-- The offsets from the left and the right. -/
def cropX (p : SpsParams) : ℤ :=
  cropOf (p.frameCropping.map fun c => (c.leftOffset, c.rightOffset))

/-- The offsets from the top and the bottom. -/
def cropY (p : SpsParams) : ℤ :=
  cropOf (p.frameCropping.map fun c => (c.topOffset, c.bottomOffset))

/-- The width in samples. -/
def pictureWidth (p : SpsParams) : ℤ := (p.picWidthInMbsMinus1 + 1) * 16 - p.subWidthC * p.cropX

/-- The height in samples: of a frame, or of two fields. -/
def pictureHeight (p : SpsParams) (frameMbsOnlyFlag : Bool) : ℤ :=
  (2 - frameMbsOnlyFlag.toNat) * (p.picHeightInMapUnitsMinus1 + 1) * 16 -
    p.subHeightC * (2 - frameMbsOnlyFlag.toNat) * p.cropY

/-- **When there is a width**, which is that of the standard. -/
theorem width_eq_ok_iff :
    p.width = .ok n ↔ p.subWidthC * p.cropX ≤ 16 * (p.picWidthInMbsMinus1 + 1) ∧
      16 * (p.picWidthInMbsMinus1 + 1) < (2 : ℤ) ^ 32 ∧ n = p.pictureWidth := by
  rw [width, croppedSize_eq_ok_iff, ← cropX, pictureWidth, subWidthC, mul_comm 16]
  rcases p.chromaFormatIdc with _ | _ | _ | _ | k <;> simp

/-- **When there is a height**: it has the rows of one field. -/
theorem height_eq_ok_iff :
    p.height = .ok n ↔ p.subHeightC * p.cropY ≤ 16 * (p.picHeightInMapUnitsMinus1 + 1) ∧
      16 * (p.picHeightInMapUnitsMinus1 + 1) < (2 : ℤ) ^ 32 ∧
      n = 16 * (p.picHeightInMapUnitsMinus1 + 1) - p.subHeightC * p.cropY := by
  rw [height, croppedSize_eq_ok_iff, ← cropY, subHeightC]
  rcases p.chromaFormatIdc with _ | _ | _ | _ | k <;> simp

/-- The standard's height is that of as many fields as a picture has. -/
theorem pictureHeight_eq (p : SpsParams) (frameMbsOnlyFlag : Bool) :
    p.pictureHeight frameMbsOnlyFlag = (2 - frameMbsOnlyFlag.toNat) *
      (16 * (p.picHeightInMapUnitsMinus1 + 1) - p.subHeightC * p.cropY) := by
  rw [pictureHeight]
  ring

end SpsParams

/-! ### When the sizes are those of the standard -/

/-- There are both sizes, and they are those of the standard. -/
def SizeExact (p : SpsParams) (frameMbsOnlyFlag : Bool) : Prop :=
  p.width = .ok p.pictureWidth ∧ p.height = .ok (p.pictureHeight frameMbsOnlyFlag)

/-- The macroblocks fit into a `u32`, the cropping leaves something or nothing of them, and the picture
is a frame or has no rows. -/
structure SizeFits (p : SpsParams) (frameMbsOnlyFlag : Bool) : Prop where
  cropX_le : p.subWidthC * p.cropX ≤ 16 * (p.picWidthInMbsMinus1 + 1)
  width_lt : 16 * (p.picWidthInMbsMinus1 + 1) < (2 : ℤ) ^ 32
  cropY_le : p.subHeightC * p.cropY ≤ 16 * (p.picHeightInMapUnitsMinus1 + 1)
  height_lt : 16 * (p.picHeightInMapUnitsMinus1 + 1) < (2 : ℤ) ^ 32
  frame : frameMbsOnlyFlag = true ∨
    p.subHeightC * p.cropY = 16 * (p.picHeightInMapUnitsMinus1 + 1)

theorem sizeExact_iff_fits (p : SpsParams) (frameMbsOnlyFlag : Bool) :
    SizeExact p frameMbsOnlyFlag ↔ SizeFits p frameMbsOnlyFlag := by
  rw [SizeExact, SpsParams.width_eq_ok_iff, SpsParams.height_eq_ok_iff, SpsParams.pictureHeight_eq]
  constructor
  · rintro ⟨⟨hx, hw, -⟩, hy, hh, hframe⟩
    refine ⟨hx, hw, hy, hh, ?_⟩
    cases frameMbsOnlyFlag with
    | true => exact .inl rfl
    | false =>
        right
        simp only [Bool.toNat_false] at hframe
        omega
  · rintro ⟨hx, hw, hy, hh, hframe⟩
    refine ⟨⟨hx, hw, rfl⟩, hy, hh, ?_⟩
    rcases hframe with rfl | hframe
    · simp
    · rw [hframe, sub_self, mul_zero]

/-- **When the sizes are those of the standard**, for every NAL unit that is parsed. -/
theorem sizeExact_iff {nal : List UInt8} {p : SpsParams} {frameMbsOnlyFlag : Bool}
    (h : parseSpsFields nal = .ok (p, frameMbsOnlyFlag)) :
    parseSps nal = .ok p ∧ (SizeExact p frameMbsOnlyFlag ↔ SizeFits p frameMbsOnlyFlag) := by
  refine ⟨?_, sizeExact_iff_fits p frameMbsOnlyFlag⟩
  rw [parseSps, h]
  rfl

/-- What is encoded of a picture of 120 macroblocks in a row. -/
def hdParams (picHeightInMapUnitsMinus1 bottomOffset : ℕ) : SpsParams where
  profileIdc := 66
  constraintFlags := [0, 0, 0]
  levelIdc := 30
  seqParameterSetId := 0
  chromaFormatIdc := 1
  picWidthInMbsMinus1 := 119
  picHeightInMapUnitsMinus1 := picHeightInMapUnitsMinus1
  frameCroppingFlag := true
  frameCropping := some ⟨0, 0, 0, bottomOffset⟩

/-- A frame of 1920 by 1080 samples. -/
theorem sizeExact_iff_hd : SizeExact (hdParams 67 4) true := by
  have hparse : parseSpsFields [0x67, 0x42, 0x00, 0x1E, 0xF4, 0x03, 0xC0, 0x11, 0x3F, 0x2A] =
      .ok (hdParams 67 4, true) := by decide +kernel
  exact (sizeExact_iff hparse).2.mpr
    ⟨by decide, by decide, by decide, by decide, .inl rfl⟩

/-- **Two fields of 1920 by 540 samples have the height of one**, and a cropping of more than the
macroblocks is a panic. -/
theorem interlaced_height :
    (parseSpsFields [0x67, 0x42, 0x00, 0x1E, 0xF4, 0x03, 0xC0, 0x22, 0x3E, 0xD0] =
        .ok (hdParams 33 2, false) ∧
      (hdParams 33 2).height = .ok 540 ∧ (hdParams 33 2).pictureHeight false = 1080) ∧
    ∃ p, parseSpsFields [0x67, 0x42, 0x00, 0x1E, 0xF4, 0xF8, 0x95, 0xA0] = .ok (p, true) ∧
      p.width = panics := by
  exact ⟨⟨by decide +kernel, by decide, by decide⟩,
    { hdParams 0 0 with picWidthInMbsMinus1 := 0, frameCropping := some ⟨8, 1, 0, 0⟩ },
    by decide +kernel, by decide⟩

/-! ### The size of the track -/

/-- The size that `init_with_sps_pps` puts into the track; one is made up where nothing is parsed. -/
def trackSize (sps : List UInt8) : Run String (ℤ × ℤ) :=
  match parseSps sps with
  | .ok p => do
      let width ← p.width
      let height ← p.height
      return (width, height)
  | .error (.error _) => .ok (1280, 720)
  | .error fault => .error fault

/-- The track has the size of the picture where that fits. -/
theorem trackSize_of_fits {sps : List UInt8} {p : SpsParams} {frameMbsOnlyFlag : Bool}
    (hparse : parseSpsFields sps = .ok (p, frameMbsOnlyFlag)) (hfits : SizeFits p frameMbsOnlyFlag) :
    trackSize sps = .ok (p.pictureWidth, p.pictureHeight frameMbsOnlyFlag) := by
  obtain ⟨hwidth, hheight⟩ := (sizeExact_iff_fits p frameMbsOnlyFlag).mpr hfits
  have hsps : parseSps sps = .ok p := by
    rw [parseSps, hparse]
    rfl
  rw [trackSize, hsps]
  dsimp only
  rw [hwidth, ok_bind, hheight]
  rfl

end H264

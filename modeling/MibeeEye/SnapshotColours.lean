/-
**The colours of snapshots.**

A snapshot goes to YUV 4:2:0 and back.  The way there gives luma the range from 16 to 235 and chroma the
range from 16 to 240; the way back takes both for the whole range, so that colours are drawn towards a
dark grey and only those near it keep their channels.  It also reads chroma at a row and a column that
a frame with an odd side does not have.

Main definitions:

* `Convert.colour`, `Convert.BlocksConstant` — the colours of a packed buffer;
* `Convert.RoundTrips` — what the way there and back promises;
* `Convert.Survives` — the colours that keep their channels.

Main results:

* `Convert.rgb8ToYuv420p_eq` — the picture that a buffer becomes;
* `Convert.yuv420pToRgb8_of_odd` — frames with an odd side have no way back;
* `Convert.survives_grey_iff` — the greys that survive;
* `Convert.roundTrips_iff` — **exactly these snapshots come back**.
-/

import Mathlib.Algebra.Order.Group.Abs
import Mathlib.Data.List.GetD
import MibeeEye.FrameTurns

set_option relaxedAutoImplicit false
set_option autoImplicit false

namespace Convert

open Raster Scatter

/-! ### Colours -/

/-- A colour that comes back, up to four in each channel: luma with its range from 16 on, and chroma
scaled to its range, taken for the whole ranges. -/
def Survives : ℤ × ℤ × ℤ → Prop
  | (r, g, b) =>
      let y := 16 + (16829 * r + 33038 * g + 6416 * b + 32768) / 65536
      let cu := (-9719 * r - 19026 * g + 28736 * b + 32768) / 65536
      let cv := (28736 * r - 24070 * g - 4642 * b + 32768) / 65536
      |y + (143 * cv).tdiv 100 - r| ≤ 4 ∧ |y - (34 * cu + 71 * cv).tdiv 100 - g| ≤ 4 ∧
        |y + (177 * cu).tdiv 100 - b| ≤ 4

/-- The channels of a pixel. -/
def Channels : ℤ × ℤ × ℤ → Prop
  | (r, g, b) => (0 ≤ r ∧ r ≤ 255) ∧ (0 ≤ g ∧ g ≤ 255) ∧ 0 ≤ b ∧ b ≤ 255

theorem toNat_clampByte {lo hi x : ℤ} (hlo : 0 ≤ lo) (hhi : hi ≤ 255) (hle : lo ≤ x) (hge : x ≤ hi) :
    ((clampByte lo hi x).toNat : ℤ) = x := by
  rw [clampByte, min_eq_right hge, max_eq_right hle, UInt8.toNat_ofNat_of_lt' (show x.toNat < 256 by omega)]
  omega

/-- Luma and chroma stay in their ranges. -/
theorem ranges {r g b : ℤ} (h : Channels (r, g, b)) :
    ((lumaOf (r, g, b)).toNat : ℤ) = 16 + (16829 * r + 33038 * g + 6416 * b + 32768) / 65536 ∧
      ((blueOf (r, g, b)).toNat : ℤ) = 128 + (-9719 * r - 19026 * g + 28736 * b + 32768) / 65536 ∧
      ((redOf (r, g, b)).toNat : ℤ) = 128 + (28736 * r - 24070 * g - 4642 * b + 32768) / 65536 := by
  obtain ⟨hr, hg, hb⟩ := h
  refine ⟨?_, ?_, ?_⟩
  · exact toNat_clampByte (by decide) (by decide) (by omega) (by omega)
  · exact toNat_clampByte (by decide) (by decide) (by omega) (by omega)
  · exact toNat_clampByte (by decide) (by decide) (by omega) (by omega)

theorem tdiv_bounds (x : ℤ) : x - 99 ≤ 100 * x.tdiv 100 ∧ 100 * x.tdiv 100 ≤ x + 99 := by
  have hdiv := Int.mul_tdiv_add_tmod x 100
  have hlow := Int.lt_tmod_of_pos x (by decide : (0 : ℤ) < 100)
  have hhigh := Int.tmod_lt_of_pos x (by decide : (0 : ℤ) < 100)
  omega

/-- The way back does not leave the range of a byte. -/
theorem back_ranges {r g b y cu cv : ℤ} (h : Channels (r, g, b))
    (hy : y = 16 + (16829 * r + 33038 * g + 6416 * b + 32768) / 65536)
    (hu : cu = (-9719 * r - 19026 * g + 28736 * b + 32768) / 65536)
    (hv : cv = (28736 * r - 24070 * g - 4642 * b + 32768) / 65536) :
    (0 ≤ y + (143 * cv).tdiv 100 ∧ y + (143 * cv).tdiv 100 ≤ 255) ∧
      (0 ≤ y - (34 * cu + 71 * cv).tdiv 100 ∧ y - (34 * cu + 71 * cv).tdiv 100 ≤ 255) ∧
      0 ≤ y + (177 * cu).tdiv 100 ∧ y + (177 * cu).tdiv 100 ≤ 255 := by
  obtain ⟨hr, hg, hb⟩ := h
  have hred := tdiv_bounds (143 * cv)
  have hgreen := tdiv_bounds (34 * cu + 71 * cv)
  have hblue := tdiv_bounds (177 * cu)
  refine ⟨⟨?_, ?_⟩, ⟨?_, ?_⟩, ?_, ?_⟩
  all_goals omega

/-- **A colour comes back exactly when it survives.** -/
theorem survives_iff_rgbOf {r g b : ℤ} (h : Channels (r, g, b)) :
    Survives (r, g, b) ↔
      ∃ r' g' b' : UInt8,
        rgbOf (lumaOf (r, g, b)) (blueOf (r, g, b)) (redOf (r, g, b)) = [r', g', b'] ∧
          |(r'.toNat : ℤ) - r| ≤ 4 ∧ |(g'.toNat : ℤ) - g| ≤ 4 ∧ |(b'.toNat : ℤ) - b| ≤ 4 := by
  obtain ⟨hy, hu, hv⟩ := ranges h
  obtain ⟨hred, hgreen, hblue⟩ := back_ranges h rfl rfl rfl
  rw [Survives, rgbOf]
  simp only [hy, hu, hv, add_sub_cancel_left]
  constructor
  · rintro ⟨h1, h2, h3⟩
    refine ⟨_, _, _, rfl, ?_, ?_, ?_⟩
    · rwa [toNat_clampByte le_rfl le_rfl hred.1 hred.2]
    · rwa [toNat_clampByte le_rfl le_rfl hgreen.1 hgreen.2]
    · rwa [toNat_clampByte le_rfl le_rfl hblue.1 hblue.2]
  · rintro ⟨r', g', b', heq, h1, h2, h3⟩
    simp only [List.cons.injEq, and_true] at heq
    obtain ⟨rfl, rfl, rfl⟩ := heq
    rw [toNat_clampByte le_rfl le_rfl hred.1 hred.2] at h1
    rw [toNat_clampByte le_rfl le_rfl hgreen.1 hgreen.2] at h2
    rw [toNat_clampByte le_rfl le_rfl hblue.1 hblue.2] at h3
    exact ⟨h1, h2, h3⟩

/-- The greys that survive. -/
theorem survives_grey_iff {k : ℤ} (h : 0 ≤ k ∧ k ≤ 255) : Survives (k, k, k) ↔ 82 ≤ k ∧ k ≤ 145 := by
  have hblue : (-9719 * k - 19026 * k + 28736 * k + 32768) / 65536 = 0 := by omega
  have hred : (28736 * k - 24070 * k - 4642 * k + 32768) / 65536 = 0 := by omega
  simp only [Survives, hblue, hred, Int.mul_zero, Int.add_zero, Int.zero_tdiv, Int.sub_zero, abs_le]
  omega

/-! ### Packed buffers -/

variable {rgb : List UInt8} {w h : ℕ}

/-- The colour of a pixel. -/
def colour (rgb : List UInt8) (px : ℕ) : ℤ × ℤ × ℤ :=
  ((rgb.getD (px * 3) 0).toNat, (rgb.getD (px * 3 + 1) 0).toNat, (rgb.getD (px * 3 + 2) 0).toNat)

theorem channels_colour (rgb : List UInt8) (px : ℕ) : Channels (colour rgb px) := by
  have hbyte : ∀ c : UInt8, (0 : ℤ) ≤ c.toNat ∧ (c.toNat : ℤ) ≤ 255 := by
    intro c
    have := c.toNat_lt
    omega
  exact ⟨hbyte _, hbyte _, hbyte _⟩

theorem pixel_eq {px : ℕ} (hpx : px * 3 + 2 < rgb.length) : pixel rgb px = some (colour rgb px) := by
  rw [pixel, colour, List.getElem?_eq_getElem (by omega), List.getElem?_eq_getElem (by omega),
    List.getElem?_eq_getElem hpx, List.getD_eq_getElem _ _ (by omega),
    List.getD_eq_getElem _ _ (by omega), List.getD_eq_getElem _ _ hpx]
  rfl

/-- Each block has one colour, that of its first pixel. -/
def BlocksConstant (rgb : List UInt8) (w h : ℕ) : Prop :=
  ∀ j < h, ∀ i < w, colour rgb (j * w + i) = colour rgb (j / 2 * 2 * w + i / 2 * 2)

/-- There is a way back, and if each block has one colour, then no channel differs by more than four. -/
def RoundTrips (rgb : List UInt8) (w h : ℕ) : Prop :=
  ∃ f out, rgb8ToYuv420p rgb w h = some (.ok f) ∧ yuv420pToRgb8 f = some out ∧
    (BlocksConstant rgb w h → ∀ k < w * h * 3, ∃ a b : UInt8, rgb[k]? = some a ∧ out[k]? = some b ∧
      |(b.toNat : ℤ) - a.toNat| ≤ 4)

/-! ### The way there -/

/-- The average of a block. -/
def average (rgb : List UInt8) (w cy cx : ℕ) : ℤ × ℤ × ℤ :=
  let a := colour rgb ((cy * 2 + 0) * w + (cx * 2 + 0))
  let b := colour rgb ((cy * 2 + 0) * w + (cx * 2 + 1))
  let c := colour rgb ((cy * 2 + 1) * w + (cx * 2 + 0))
  let d := colour rgb ((cy * 2 + 1) * w + (cx * 2 + 1))
  ((a.1 + b.1 + c.1 + d.1).tdiv 4, (a.2.1 + b.2.1 + c.2.1 + d.2.1).tdiv 4,
    (a.2.2 + b.2.2 + c.2.2 + d.2.2).tdiv 4)

theorem blockAverage_eq {cy cx : ℕ} (hlength : w * h * 3 ≤ rgb.length) (hy : cy < h / 2)
    (hx : cx < w / 2) : blockAverage rgb w cy cx = some (average rgb w cy cx) := by
  have hpixel : ∀ y x, y < h → x < w → pixel rgb (y * w + x) = some (colour rgb (y * w + x)) := by
    intro y x hy hx
    apply pixel_eq
    have := index_lt hy hx
    rw [Nat.mul_comm h] at this
    omega
  rw [blockAverage, hpixel _ _ (by omega) (by omega), hpixel _ _ (by omega) (by omega),
    hpixel _ _ (by omega) (by omega), hpixel _ _ (by omega) (by omega)]
  rfl

/-- The picture that a buffer becomes. -/
def pictureOf (rgb : List UInt8) (w h : ℕ) : Picture h w where
  y j i := lumaOf (colour rgb (j * w + i))
  u cy cx := blueOf (average rgb w cy cx)
  v cy cx := redOf (average rgb w cy cx)

/-- The luma of all pixels. -/
theorem scatter_luma (hlength : w * h * 3 ≤ rgb.length) :
    scatter (List.replicate (lumaLen w h) 0)
      ((List.range (w * h)).map fun i => (i, (pixel rgb i).map lumaOf)) =
      some (toList (pictureOf rgb w h).y) := by
  refine scatter_eq_toList ?_ ?_ (by rw [List.length_replicate, lumaLen, Nat.mul_comm])
  · intro a ha
    obtain ⟨i, hi, rfl⟩ := List.mem_map.1 ha
    rw [List.mem_range, Nat.mul_comm w] at hi
    obtain ⟨y, x, hy, hx, rfl⟩ := exists_index hi
    refine ⟨⟨y, hy⟩, ⟨x, hx⟩, ?_⟩
    rw [Nat.mul_comm h] at hi
    rw [pixel_eq (by omega)]
    rfl
  · intro y x
    have hi := index_lt y.2 x.2
    rw [Nat.mul_comm h] at hi
    refine List.mem_map.2 ⟨y.1 * w + x.1, List.mem_range.2 hi, ?_⟩
    rw [pixel_eq (by omega)]
    rfl

/-- The chroma of all blocks. -/
theorem scatter_chroma (hlength : w * h * 3 ≤ rgb.length) (chroma : ℤ × ℤ × ℤ → UInt8) :
    scatter (List.replicate (chromaLen w h) 0) (blockAssignments rgb w (w / 2) (h / 2) chroma) =
      some (toList fun (cy : Fin (h / 2)) (cx : Fin (w / 2)) => chroma (average rgb w cy cx)) := by
  refine scatter_eq_toList ?_ ?_ (by rw [List.length_replicate, chromaLen, Nat.mul_comm])
  · intro a ha
    obtain ⟨cy, hcy, ha⟩ := List.mem_flatMap.1 ha
    obtain ⟨cx, hcx, rfl⟩ := List.mem_map.1 ha
    refine ⟨⟨cy, List.mem_range.1 hcy⟩, ⟨cx, List.mem_range.1 hcx⟩, ?_⟩
    rw [blockAverage_eq hlength (List.mem_range.1 hcy) (List.mem_range.1 hcx)]
    rfl
  · intro cy cx
    refine List.mem_flatMap.2 ⟨cy, List.mem_range.2 cy.2, List.mem_map.2 ⟨cx, List.mem_range.2 cx.2, ?_⟩⟩
    rw [blockAverage_eq hlength cy.2 cx.2]
    rfl

/-- **The picture that a buffer becomes.** -/
theorem rgb8ToYuv420p_eq (hlength : w * h * 3 ≤ rgb.length) (hsize : rgb.length < 2 ^ 63) :
    rgb8ToYuv420p rgb w h = some (.ok (pictureOf rgb w h).frame) := by
  have hhalf : w / 2 * (h / 2) * 2 ≤ w * h := by
    calc
      w / 2 * (h / 2) * 2 = w / 2 * (h / 2 * 2) := Nat.mul_assoc _ _ _
      _ ≤ w * h := Nat.mul_le_mul (Nat.div_le_self w 2) (Nat.div_mul_le_self h 2)
  have hframe : frameLen w h < 2 ^ 64 := by
    rw [frameLen, lumaLen, chromaLen]
    omega
  have hnew : Yuv420p.new w h =
      some { width := w, height := h, data := List.replicate (frameLen w h) 0 } := by
    rw [Yuv420p.new, usize_eq hframe]
    rfl
  have hlen : frameLen w h = lumaLen w h + (chromaLen w h + chromaLen w h) := by
    rw [frameLen, Nat.two_mul]
  simp only [rgb8ToYuv420p, usize_eq (show w * h * 3 < 2 ^ 64 by omega), hnew, Option.bind_eq_bind,
    Option.bind_some, if_neg (Nat.not_lt.2 hlength)]
  rw [hlen, List.replicate_add, List.replicate_add, List.take_left' List.length_replicate,
    List.drop_left' List.length_replicate, List.take_left' List.length_replicate,
    List.drop_left' List.length_replicate, scatter_luma hlength, Option.bind_some, scatter_chroma hlength,
    Option.bind_some, scatter_chroma hlength]
  rfl

/-! ### The way back -/

theorem yuv420pToRgb8_frame (p : Picture h w) (hsize : w * h * 3 < 2 ^ 64) :
    yuv420pToRgb8 p.frame = scatter (List.replicate (w * h * 3) 0)
      ((List.range h).flatMap fun j => (List.range w).flatMap fun i =>
        pixelAssignments (toList p.y) (toList p.u) (toList p.v) w j i) := by
  simp only [yuv420pToRgb8, p.yPlane_frame, p.uPlane_frame, p.vPlane_frame, p.width_frame,
    p.height_frame, usize_eq hsize, Option.bind_eq_bind, Option.bind_some]

/-- A frame with an odd side does not have the chroma of its last row or column. -/
theorem yuv420pToRgb8_of_odd (p : Picture h w) (hsize : w * h * 3 < 2 ^ 64) (hw : 0 < w) (hh : 0 < h)
    (hodd : w % 2 = 1 ∨ h % 2 = 1) : yuv420pToRgb8 p.frame = none := by
  have hread : ∃ j i, j < h ∧ i < w ∧ h / 2 * (w / 2) ≤ j / 2 * (w / 2) + i / 2 := by
    rcases hodd with hodd | hodd
    · refine ⟨h - 1, w - 1, by omega, by omega, ?_⟩
      have hi : (w - 1) / 2 = w / 2 := by omega
      calc
        h / 2 * (w / 2) ≤ ((h - 1) / 2 + 1) * (w / 2) := Nat.mul_le_mul_right _ (by omega)
        _ = (h - 1) / 2 * (w / 2) + (w - 1) / 2 := by rw [hi, Nat.succ_mul]
    · refine ⟨h - 1, 0, by omega, hw, ?_⟩
      have hj : (h - 1) / 2 = h / 2 := by omega
      rw [hj]
      exact Nat.le_add_right _ _
  obtain ⟨j, i, hj, hi, hle⟩ := hread
  rw [yuv420pToRgb8_frame p hsize, ← Option.not_isSome_iff_eq_none, scatter_isSome]
  intro hall
  have hmem : ((j * w + i) * 3, none) ∈ (List.range h).flatMap fun j => (List.range w).flatMap fun i =>
      pixelAssignments (toList p.y) (toList p.u) (toList p.v) w j i := by
    refine List.mem_flatMap.2 ⟨j, List.mem_range.2 hj, List.mem_flatMap.2 ⟨i, List.mem_range.2 hi, ?_⟩⟩
    have hnone : (toList p.u)[j / 2 * (w / 2) + i / 2]? = none := by
      rw [List.getElem?_eq_none_iff, length_toList]
      exact hle
    have hluma : (toList p.y)[j * w + i]? = some (p.y ⟨j, hj⟩ ⟨i, hi⟩) :=
      getElem?_toList p.y ⟨j, hj⟩ ⟨i, hi⟩
    rw [pixelAssignments, hluma, hnone]
    exact List.mem_cons_self
  exact absurd (hall _ hmem).2 Bool.false_ne_true

/-- What a pixel of a picture with even sides becomes. -/
def decoded (p : Picture h w) (hw : w % 2 = 0) (hh : h % 2 = 0) (j : Fin h) (i : Fin w) : List UInt8 :=
  rgbOf (p.y j i) (p.u ⟨j / 2, by omega⟩ ⟨i / 2, by omega⟩) (p.v ⟨j / 2, by omega⟩ ⟨i / 2, by omega⟩)

theorem length_decoded (p : Picture h w) (hw : w % 2 = 0) (hh : h % 2 = 0) (j : Fin h) (i : Fin w) :
    (decoded p hw hh j i).length = 3 := rfl

theorem pixelAssignments_eq (p : Picture h w) (hw : w % 2 = 0) (hh : h % 2 = 0) (j : Fin h)
    (i : Fin w) : pixelAssignments (toList p.y) (toList p.u) (toList p.v) w j i =
      [((j.1 * w + i.1) * 3, (decoded p hw hh j i)[0]?),
        ((j.1 * w + i.1) * 3 + 1, (decoded p hw hh j i)[1]?),
        ((j.1 * w + i.1) * 3 + 2, (decoded p hw hh j i)[2]?)] := by
  have hu := getElem?_toList p.u ⟨j / 2, by omega⟩ ⟨i / 2, by omega⟩
  have hv := getElem?_toList p.v ⟨j / 2, by omega⟩ ⟨i / 2, by omega⟩
  simp only [] at hu hv
  rw [pixelAssignments, getElem?_toList p.y j i, hu, hv]
  rfl

/-- The assignments of a picture with even sides. -/
theorem mem_assignments_iff (p : Picture h w) (hw : w % 2 = 0) (hh : h % 2 = 0) {k : ℕ}
    {v : Option UInt8} :
    ((k, v) ∈ (List.range h).flatMap fun j => (List.range w).flatMap fun i =>
        pixelAssignments (toList p.y) (toList p.u) (toList p.v) w j i) ↔
      ∃ (j : Fin h) (i : Fin w) (c : ℕ), c < 3 ∧ k = (j.1 * w + i.1) * 3 + c ∧
        v = (decoded p hw hh j i)[c]? := by
  rw [List.mem_flatMap]
  constructor
  · rintro ⟨j, hj, hmem⟩
    obtain ⟨i, hi, hmem⟩ := List.mem_flatMap.1 hmem
    rw [pixelAssignments_eq p hw hh ⟨j, List.mem_range.1 hj⟩ ⟨i, List.mem_range.1 hi⟩] at hmem
    refine ⟨⟨j, List.mem_range.1 hj⟩, ⟨i, List.mem_range.1 hi⟩, ?_⟩
    simp only [List.mem_cons, Prod.mk.injEq, List.not_mem_nil, or_false] at hmem
    rcases hmem with ⟨rfl, rfl⟩ | ⟨rfl, rfl⟩ | ⟨rfl, rfl⟩
    · exact ⟨0, by decide, rfl, rfl⟩
    · exact ⟨1, by decide, rfl, rfl⟩
    · exact ⟨2, by decide, rfl, rfl⟩
  · rintro ⟨j, i, c, hc, rfl, rfl⟩
    refine ⟨j, List.mem_range.2 j.2, List.mem_flatMap.2 ⟨i, List.mem_range.2 i.2, ?_⟩⟩
    rw [pixelAssignments_eq p hw hh j i]
    obtain rfl | rfl | rfl : c = 0 ∨ c = 1 ∨ c = 2 := by omega
    all_goals simp

/-- **A picture with even sides has a way back**, pixel by pixel. -/
theorem exists_yuv420pToRgb8 (p : Picture h w) (hsize : w * h * 3 < 2 ^ 64) (hw : w % 2 = 0)
    (hh : h % 2 = 0) :
    ∃ out, yuv420pToRgb8 p.frame = some out ∧ ∀ (j : Fin h) (i : Fin w) (c : ℕ), c < 3 →
      out[(j.1 * w + i.1) * 3 + c]? = (decoded p hw hh j i)[c]? := by
  obtain ⟨out, hout⟩ : ∃ out, yuv420pToRgb8 p.frame = some out := by
    rw [yuv420pToRgb8_frame p hsize, ← Option.isSome_iff_exists, scatter_isSome]
    rintro ⟨k, v⟩ hmem
    obtain ⟨j, i, c, hc, rfl, rfl⟩ := (mem_assignments_iff p hw hh).1 hmem
    have hindex := index_lt j.2 i.2
    rw [Nat.mul_comm h] at hindex
    refine ⟨by rw [List.length_replicate]; omega, ?_⟩
    rw [List.getElem?_eq_getElem (by rw [length_decoded]; exact hc)]
    rfl
  refine ⟨out, hout, fun j i c hc => ?_⟩
  rw [yuv420pToRgb8_frame p hsize] at hout
  refine scatter_of_mem hout ((mem_assignments_iff p hw hh).2 ⟨j, i, c, hc, rfl, rfl⟩) ?_
  intro v hv
  obtain ⟨j', i', c', hc', hindex, rfl⟩ := (mem_assignments_iff p hw hh).1 hv
  have hc : c = c' := by omega
  obtain ⟨hj, hi⟩ := index_inj i.2 i'.2 (show j.1 * w + i.1 = j'.1 * w + i'.1 by omega)
  rw [hc, Fin.ext hj, Fin.ext hi]

/-! ### Snapshots that come back -/

/-- A block of one colour has that colour on average. -/
theorem average_eq (hconst : BlocksConstant rgb w h) {cy cx : ℕ} (hy : cy < h / 2) (hx : cx < w / 2) :
    average rgb w cy cx = colour rgb (cy * 2 * w + cx * 2) := by
  have hblock : ∀ j i, j < h → i < w → j / 2 = cy → i / 2 = cx →
      colour rgb (j * w + i) = colour rgb (cy * 2 * w + cx * 2) := by
    rintro j i hj hi rfl rfl
    exact hconst j hj i hi
  have hfour : ∀ a : ℤ, 0 ≤ a → (a + a + a + a).tdiv 4 = a := by
    intro a ha
    rw [Int.tdiv_eq_ediv_of_nonneg (by omega)]
    omega
  obtain ⟨k, hk⟩ : ∃ k, k = cy * 2 * w + cx * 2 := ⟨_, rfl⟩
  have hr : 0 ≤ (colour rgb k).1 := (channels_colour rgb k).1.1
  have hg : 0 ≤ (colour rgb k).2.1 := (channels_colour rgb k).2.1.1
  have hb : 0 ≤ (colour rgb k).2.2 := (channels_colour rgb k).2.2.1
  rw [average, hblock _ _ (by omega) (by omega) (by omega) (by omega),
    hblock (cy * 2 + 0) _ (by omega) (by omega) (by omega) (by omega),
    hblock (cy * 2 + 1) (cx * 2 + 0) (by omega) (by omega) (by omega) (by omega),
    hblock (cy * 2 + 1) _ (by omega) (by omega) (by omega) (by omega)]
  simp only [← hk, hfour _ hr, hfour _ hg, hfour _ hb]

/-- What a pixel becomes in a block of one colour. -/
theorem decoded_pictureOf (hconst : BlocksConstant rgb w h) (hw : w % 2 = 0) (hh : h % 2 = 0)
    (j : Fin h) (i : Fin w) :
    decoded (pictureOf rgb w h) hw hh j i =
      rgbOf (lumaOf (colour rgb (j * w + i))) (blueOf (colour rgb (j * w + i)))
        (redOf (colour rgb (j * w + i))) := by
  have hblock : average rgb w (j / 2) (i / 2) = colour rgb (j * w + i) := by
    rw [average_eq hconst (h := h) (by omega) (by omega), ← hconst j j.2 i i.2]
  change rgbOf (lumaOf (colour rgb (j * w + i))) (blueOf (average rgb w (j / 2) (i / 2)))
    (redOf (average rgb w (j / 2) (i / 2))) = _
  rw [hblock]

/-- The sides are even, and in a snapshot of blocks of one colour each colour survives. -/
def SnapshotWhen (rgb : List UInt8) (w h : ℕ) : Prop :=
  w * h = 0 ∨ w % 2 = 0 ∧ h % 2 = 0 ∧
    (BlocksConstant rgb w h → ∀ px < w * h, Survives (colour rgb px))

/-- The channels of a pixel are close when its colour survives. -/
theorem close_iff {out : List UInt8} {px : ℕ} (hpx : px * 3 + 2 < rgb.length)
    (hout : ∀ c < 3, out[px * 3 + c]? =
      (rgbOf (lumaOf (colour rgb px)) (blueOf (colour rgb px)) (redOf (colour rgb px)))[c]?) :
    (∀ c < 3, ∃ a b : UInt8, rgb[px * 3 + c]? = some a ∧ out[px * 3 + c]? = some b ∧
      |(b.toNat : ℤ) - a.toNat| ≤ 4) ↔ Survives (colour rgb px) := by
  have hchannels := channels_colour rgb px
  have hget : ∀ c < 3, rgb[px * 3 + c]? = some (rgb.getD (px * 3 + c) 0) := by
    intro c hc
    rw [List.getElem?_eq_getElem (by omega), List.getD_eq_getElem _ _ (by omega)]
  unfold colour at hout hchannels ⊢
  rw [survives_iff_rgbOf hchannels]
  constructor
  · intro hall
    obtain ⟨a0, b0, ha0, hb0, h0⟩ := hall 0 (by decide)
    obtain ⟨a1, b1, ha1, hb1, h1⟩ := hall 1 (by decide)
    obtain ⟨a2, b2, ha2, hb2, h2⟩ := hall 2 (by decide)
    rw [hget 0 (by decide)] at ha0
    rw [hget 1 (by decide)] at ha1
    rw [hget 2 (by decide)] at ha2
    rw [hout 0 (by decide)] at hb0
    rw [hout 1 (by decide)] at hb1
    rw [hout 2 (by decide)] at hb2
    cases ha0
    cases ha1
    cases ha2
    refine ⟨b0, b1, b2, ?_, h0, h1, h2⟩
    rw [rgbOf] at hb0 hb1 hb2 ⊢
    cases hb0
    cases hb1
    cases hb2
    rfl
  · rintro ⟨b0, b1, b2, heq, h0, h1, h2⟩ c hc
    rw [hget c hc, hout c hc, heq]
    obtain rfl | rfl | rfl : c = 0 ∨ c = 1 ∨ c = 2 := by omega
    · exact ⟨_, b0, rfl, rfl, h0⟩
    · exact ⟨_, b1, rfl, rfl, h1⟩
    · exact ⟨_, b2, rfl, rfl, h2⟩

/-- Without pixels there is nothing to lose. -/
theorem roundTrips_of_empty (hlength : w * h * 3 ≤ rgb.length) (hsize : rgb.length < 2 ^ 63)
    (hnone : w * h = 0) : RoundTrips rgb w h := by
  refine ⟨(pictureOf rgb w h).frame, [], rgb8ToYuv420p_eq hlength hsize, ?_, ?_⟩
  · have hempty : ((List.range h).flatMap fun j => (List.range w).flatMap fun i =>
        pixelAssignments (toList (pictureOf rgb w h).y) (toList (pictureOf rgb w h).u)
          (toList (pictureOf rgb w h).v) w j i) = [] := by
      rcases Nat.mul_eq_zero.1 hnone with rfl | rfl
      · rw [List.flatMap_eq_nil_iff]
        exact fun j _ => rfl
      · rfl
    rw [yuv420pToRgb8_frame _ (by omega), hempty, hnone]
    rfl
  · intro _ k hk
    omega

/-- A picture with an odd side has no way back. -/
theorem not_roundTrips_of_odd (hlength : w * h * 3 ≤ rgb.length) (hsize : rgb.length < 2 ^ 63)
    (hw : 0 < w) (hh : 0 < h) (hodd : w % 2 = 1 ∨ h % 2 = 1) : ¬ RoundTrips rgb w h := by
  rintro ⟨f, out, hf, hback, -⟩
  rw [rgb8ToYuv420p_eq hlength hsize] at hf
  cases hf
  rw [yuv420pToRgb8_of_odd _ (by omega) hw hh hodd] at hback
  cases hback

/-- The channels of a picture are close when its colours survive. -/
theorem all_close_iff {out : List UInt8}
    (hget : ∀ px < w * h, (∀ c < 3, ∃ a b : UInt8, rgb[px * 3 + c]? = some a ∧
      out[px * 3 + c]? = some b ∧ |(b.toNat : ℤ) - a.toNat| ≤ 4) ↔ Survives (colour rgb px)) :
    (∀ k < w * h * 3, ∃ a b : UInt8, rgb[k]? = some a ∧ out[k]? = some b ∧
      |(b.toNat : ℤ) - a.toNat| ≤ 4) ↔ ∀ px < w * h, Survives (colour rgb px) := by
  constructor
  · intro hall px hpx
    exact (hget px hpx).1 fun c hc => hall _ (by omega)
  · intro hall k hk
    have hchannel := (hget (k / 3) (by omega)).2 (hall _ (by omega)) (k % 3) (by omega)
    have hk3 : k / 3 * 3 + k % 3 = k := Nat.div_add_mod' k 3
    rwa [hk3] at hchannel

/-- **A picture with even sides comes back** exactly if its colours survive. -/
theorem roundTrips_iff_of_even (hlength : w * h * 3 ≤ rgb.length) (hsize : rgb.length < 2 ^ 63)
    (hw : w % 2 = 0) (hh : h % 2 = 0) :
    RoundTrips rgb w h ↔ (BlocksConstant rgb w h → ∀ px < w * h, Survives (colour rgb px)) := by
  have hthere := rgb8ToYuv420p_eq hlength hsize
  obtain ⟨out, hout, hget⟩ := exists_yuv420pToRgb8 (pictureOf rgb w h) (by omega) hw hh
  have hpixels : BlocksConstant rgb w h → ((∀ k < w * h * 3, ∃ a b : UInt8, rgb[k]? = some a ∧
      out[k]? = some b ∧ |(b.toNat : ℤ) - a.toNat| ≤ 4) ↔ ∀ px < w * h, Survives (colour rgb px)) := by
    intro hconst
    refine all_close_iff fun px hpx => ?_
    rw [Nat.mul_comm w] at hpx
    obtain ⟨j, i, hj, hi, rfl⟩ := exists_index hpx
    rw [Nat.mul_comm h] at hpx
    refine close_iff (by omega) fun c hc => ?_
    rw [← decoded_pictureOf hconst hw hh ⟨j, hj⟩ ⟨i, hi⟩]
    exact hget ⟨j, hj⟩ ⟨i, hi⟩ c hc
  constructor
  · rintro ⟨f, out', hf, hback, hall⟩ hconst
    rw [hthere] at hf
    cases hf
    rw [hout] at hback
    cases hback
    exact (hpixels hconst).1 (hall hconst)
  · intro hall
    exact ⟨_, out, hthere, hout, fun hconst => (hpixels hconst).2 (hall hconst)⟩

/-- **Exactly these snapshots come back.** -/
theorem roundTrips_iff (rgb : List UInt8) (w h : ℕ) (hlength : w * h * 3 ≤ rgb.length)
    (hsize : rgb.length < 2 ^ 63) : RoundTrips rgb w h ↔ SnapshotWhen rgb w h := by
  by_cases hnone : w * h = 0
  · exact iff_of_true (roundTrips_of_empty hlength hsize hnone) (Or.inl hnone)
  · have hw : 0 < w := Nat.pos_of_ne_zero fun hw => hnone (by rw [hw, Nat.zero_mul])
    have hh : 0 < h := Nat.pos_of_ne_zero fun hh => hnone (by rw [hh, Nat.mul_zero])
    by_cases heven : w % 2 = 0 ∧ h % 2 = 0
    · rw [roundTrips_iff_of_even hlength hsize heven.1 heven.2, SnapshotWhen]
      simp [hnone, heven]
    · refine iff_of_false (not_roundTrips_of_odd hlength hsize hw hh (by omega)) ?_
      rintro (hzero | ⟨hw, hh, -⟩)
      · exact hnone hzero
      · exact heven ⟨hw, hh⟩

/-- A grey square. -/
theorem roundTrips_grey : RoundTrips (List.replicate 12 112) 2 2 := by
  refine (roundTrips_iff (List.replicate 12 112) 2 2 (by decide) (by decide)).2
    (Or.inr ⟨rfl, rfl, fun _ px hpx => ?_⟩)
  have hgrey : colour (List.replicate 12 112) px = (112, 112, 112) := by
    obtain rfl | rfl | rfl | rfl : px = 0 ∨ px = 1 ∨ px = 2 ∨ px = 3 := by omega
    all_goals rfl
  rw [hgrey]
  exact (survives_grey_iff (by decide)).2 (by decide)

/-- A white square comes back as a light grey, and a single pixel has no way back. -/
theorem not_roundTrips_white :
    ¬RoundTrips (List.replicate 12 255) 2 2 ∧ ¬RoundTrips (List.replicate 3 255) 1 1 := by
  constructor
  · rintro ⟨f, out, hf, hout, hclose⟩
    have hthere : rgb8ToYuv420p (List.replicate 12 255) 2 2 =
        some (.ok { width := 2, height := 2, data := [235, 235, 235, 235, 128, 128] }) := by
      have hframe : (pictureOf (List.replicate 12 255) 2 2).frame =
          { width := 2, height := 2, data := [235, 235, 235, 235, 128, 128] } := by decide +kernel
      rw [rgb8ToYuv420p_eq (by decide) (by decide), hframe]
    rw [hthere] at hf
    cases hf
    have hback : yuv420pToRgb8 { width := 2, height := 2, data := [235, 235, 235, 235, 128, 128] } =
        some (List.replicate 12 235) := by decide
    rw [hback] at hout
    cases hout
    obtain ⟨a, b, ha, hb, hle⟩ := hclose (by unfold BlocksConstant; decide) 0 (by decide)
    cases ha
    cases hb
    exact absurd hle (by decide)
  · rintro ⟨f, out, hf, hout, -⟩
    have hthere : rgb8ToYuv420p (List.replicate 3 255) 1 1 =
        some (.ok { width := 1, height := 1, data := [235] }) := by
      have hframe : (pictureOf (List.replicate 3 255) 1 1).frame =
          { width := 1, height := 1, data := [235] } := by decide +kernel
      rw [rgb8ToYuv420p_eq (by decide) (by decide), hframe]
    rw [hthere] at hf
    cases hf
    have hback : yuv420pToRgb8 { width := 1, height := 1, data := [235] } = none := by decide
    rw [hback] at hout
    cases hout

end Convert

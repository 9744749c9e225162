/-
**Scaling a frame down.**

`downscaled` reads a row and a column of luma for each one of the result, and a row and a column of
chroma for each second one.  A result with a side of one pixel is given a chroma plane that its layout
does not have, and then a frame of which a side is one pixel is read behind its end.

Main definitions:

* `Convert.Yuv420p.lumaBytes`, `Convert.Yuv420p.uBytes`, `Convert.Yuv420p.vBytes` — the planes by the
  layout of a frame;
* `Convert.ScalesFaithfully` — what a request promises;
* `Convert.ScalesWhen` — when it is kept.

Main results:

* `Convert.chromaIndex_lt` — the chroma rows and columns that are read are those of the source;
* `Convert.scalesFaithfully_iff` — **exactly these requests keep the promise**.
-/

import MibeeEye.Convert
import MibeeEye.Raster

set_option relaxedAutoImplicit false
set_option autoImplicit false

namespace Convert

open Raster Scatter

/-! ### The promise -/

/-- The luma plane. -/
def Yuv420p.lumaBytes (f : Yuv420p) : List UInt8 := f.data.take (lumaLen f.width f.height)

/-- The plane of blue chroma. -/
def Yuv420p.uBytes (f : Yuv420p) : List UInt8 :=
  (f.data.drop (lumaLen f.width f.height)).take (chromaLen f.width f.height)

/-- The plane of red chroma. -/
def Yuv420p.vBytes (f : Yuv420p) : List UInt8 :=
  (f.data.drop (lumaLen f.width f.height + chromaLen f.width f.height)).take
    (chromaLen f.width f.height)

/-- The request has a result, which is laid out if the source is, and whose bytes are the source's of the
same plane. -/
def ScalesFaithfully (f : Yuv420p) (dstW dstH : ℕ) : Prop :=
  ∃ out, f.downscaled dstW dstH = some out ∧
    (f.data.length = frameLen f.width f.height → out.data.length = frameLen out.width out.height) ∧
    (∀ b ∈ out.lumaBytes, b ∈ f.lumaBytes) ∧ (∀ b ∈ out.uBytes, b ∈ f.uBytes) ∧
    ∀ b ∈ out.vBytes, b ∈ f.vBytes

/-- A request that is refused by its sides. -/
def Refused (f : Yuv420p) (dstW dstH : ℕ) : Prop :=
  f.width = 0 ∨ f.height = 0 ∨ dstW = 0 ∨ dstH = 0 ∨ dstW > f.width ∨ dstH > f.height

instance (f : Yuv420p) (dstW dstH : ℕ) : Decidable (Refused f dstW dstH) :=
  inferInstanceAs (Decidable (_ ∨ _))

/-- The last column of chroma that is read. -/
def lastColumn (f : Yuv420p) (dstW : ℕ) : ℕ := 2 * (dstW / 2 - 1) * f.width / dstW / 2

/-- The request is refused, or the size of the frame can be told and the frame is returned as it is, no
side that is asked for is a single pixel, or the buffer is longer than the frame's layout and goes on
for as many bytes as are read. -/
def ScalesWhen (f : Yuv420p) (dstW dstH : ℕ) : Prop :=
  Refused f dstW dstH ∨ frameLen f.width f.height < 2 ^ 64 ∧
    (f.data.length < frameLen f.width f.height ∨ (dstW, dstH) = (f.width, f.height) ∨
      2 ≤ dstW ∧ 2 ≤ dstH ∨
      frameLen f.width f.height < f.data.length ∧
        (2 ≤ f.width ∧ 2 ≤ f.height ∨
          lumaLen f.width f.height + lastColumn f dstW < f.data.length))

theorem mem_part_iff {l : List UInt8} {a n : ℕ} {b : UInt8} :
    b ∈ (l.drop a).take n ↔ ∃ i, i < n ∧ l[a + i]? = some b := by
  rw [List.mem_iff_getElem?]
  constructor
  · rintro ⟨i, hget⟩
    rw [List.getElem?_take] at hget
    obtain ⟨hi, hget⟩ := Option.ite_none_right_eq_some.1 hget
    exact ⟨i, hi, by rwa [List.getElem?_drop] at hget⟩
  · rintro ⟨i, hi, hget⟩
    exact ⟨i, by rw [List.getElem?_take_of_lt hi, List.getElem?_drop, hget]⟩

theorem mem_take_iff {l : List UInt8} {n : ℕ} {b : UInt8} :
    b ∈ l.take n ↔ ∃ i, i < n ∧ l[i]? = some b := by
  have h := @mem_part_iff l 0 n b
  simpa only [List.drop_zero, Nat.zero_add] using h

/-! ### Axes -/

theorem length_mapAxis (dst src : ℕ) : (mapAxis dst src).length = dst := by
  rw [mapAxis, List.length_map, List.length_range]

theorem getElem?_mapAxis {dst d : ℕ} (src : ℕ) (hd : d < dst) :
    (mapAxis dst src)[d]? = some (d * src / dst) := by
  rw [mapAxis, List.getElem?_map, List.getElem?_range hd, Option.map_some]

theorem mem_zipIdx_mapAxis {dst src s d : ℕ} (h : (s, d) ∈ (mapAxis dst src).zipIdx) :
    d < dst ∧ s = d * src / dst := by
  have hget := List.mem_zipIdx_iff_getElem?.1 h
  have hd : d < dst := by
    have := (List.getElem?_eq_some_iff.1 hget).1
    rwa [length_mapAxis] at this
  rw [getElem?_mapAxis src hd] at hget
  exact ⟨hd, (Option.some.inj hget).symm⟩

theorem mapped_lt {d dst src : ℕ} (hd : d < dst) (hsrc : 0 < src) : d * src / dst < src := by
  rw [Nat.div_lt_iff_lt_mul (Nat.zero_lt_of_lt hd), Nat.mul_comm src]
  exact Nat.mul_lt_mul_of_pos_right hd hsrc

/-- The row or column of chroma that is read for one of the result. -/
def chromaIndex (d dst src : ℕ) : ℕ := min (d * 2) (dst - 1) * src / dst / 2

/-- **The chroma rows and columns that are read are those of the source**, if it has any. -/
theorem chromaIndex_lt {d dst src : ℕ} (hdst : dst ≤ src) (hd : d < max (dst / 2) 1) (hsrc : 2 ≤ src) :
    chromaIndex d dst src < src / 2 := by
  unfold chromaIndex
  by_cases htwo : 2 ≤ dst
  · -- two rows are left behind the last one that is read
    have hmin : min (d * 2) (dst - 1) ≤ dst - 2 := by omega
    have hle : min (d * 2) (dst - 1) * src / dst ≤ src - 2 := by
      calc
        min (d * 2) (dst - 1) * src / dst ≤ (dst - 2) * src / dst :=
          Nat.div_le_div_right (Nat.mul_le_mul_right src hmin)
        _ ≤ (src - 2) * dst / dst := by
          apply Nat.div_le_div_right
          rw [Nat.sub_mul, Nat.sub_mul, Nat.mul_comm src dst]
          omega
        _ = src - 2 := Nat.mul_div_cancel _ (by omega)
    omega
  · have hzero : min (d * 2) (dst - 1) = 0 := by omega
    rw [hzero, Nat.zero_mul, Nat.zero_div, Nat.zero_div]
    omega

/-- A side of one pixel has one row or column that is read. -/
theorem chromaIndex_one {d dst : ℕ} (hdst : dst ≤ 1) : chromaIndex d dst 1 = 0 := by
  have hzero : min (d * 2) (dst - 1) = 0 := by omega
  rw [chromaIndex, hzero, Nat.zero_mul, Nat.zero_div, Nat.zero_div]

theorem chromaRead_eq {f : Yuv420p} {dstW dstH : ℕ} (hw : 0 < dstW) (hh : 0 < dstH)
    (start dcy dcx : ℕ) :
    chromaRead f (mapAxis dstW f.width) (mapAxis dstH f.height) start dcy dcx =
      f.data[start + (chromaIndex dcy dstH f.height * (f.width / 2) + chromaIndex dcx dstW f.width)]? := by
  unfold chromaRead chromaIndex
  rw [length_mapAxis, length_mapAxis, getElem?_mapAxis _ (by omega), getElem?_mapAxis _ (by omega),
    ← Nat.add_assoc]
  rfl

/-! ### Assignments -/

variable {f out : Yuv420p} {dstW dstH i : ℕ} {v : Option UInt8} {b : UInt8}

theorem mem_lumaAssignments :
    (i, v) ∈ lumaAssignments f (mapAxis dstW f.width) (mapAxis dstH f.height) dstW ↔
      ∃ dy dx, dy < dstH ∧ dx < dstW ∧ i = dy * dstW + dx ∧
        v = f.data[dy * f.height / dstH * f.width + dx * f.width / dstW]? := by
  rw [lumaAssignments, List.mem_flatMap]
  constructor
  · rintro ⟨⟨sy, dy⟩, hy, h⟩
    obtain ⟨⟨sx, dx⟩, hx, h⟩ := List.mem_map.1 h
    obtain ⟨hdy, rfl⟩ := mem_zipIdx_mapAxis hy
    obtain ⟨hdx, rfl⟩ := mem_zipIdx_mapAxis hx
    obtain ⟨rfl, rfl⟩ := Prod.mk.inj h
    exact ⟨dy, dx, hdy, hdx, rfl, rfl⟩
  · rintro ⟨dy, dx, hdy, hdx, rfl, rfl⟩
    refine ⟨(dy * f.height / dstH, dy), List.mem_zipIdx_iff_getElem?.2 (getElem?_mapAxis _ hdy), ?_⟩
    exact List.mem_map.2 ⟨(dx * f.width / dstW, dx),
      List.mem_zipIdx_iff_getElem?.2 (getElem?_mapAxis _ hdx), rfl⟩

/-- The index within a chroma plane that is read. -/
def chromaOffset (f : Yuv420p) (dstW dstH dcy dcx : ℕ) : ℕ :=
  chromaIndex dcy dstH f.height * (f.width / 2) + chromaIndex dcx dstW f.width

theorem mem_chromaAssignments (hw : 0 < dstW) (hh : 0 < dstH) {dstY cw ch : ℕ} :
    (i, v) ∈ chromaAssignments f (mapAxis dstW f.width) (mapAxis dstH f.height) dstY cw ch ↔
      ∃ dcy dcx, dcy < ch ∧ dcx < cw ∧
        (i = dstY + (dcy * cw + dcx) ∧
            v = f.data[lumaLen f.width f.height + chromaOffset f dstW dstH dcy dcx]? ∨
          i = dstY + (ch * cw + (dcy * cw + dcx)) ∧
            v = f.data[lumaLen f.width f.height + chromaLen f.width f.height +
              chromaOffset f dstW dstH dcy dcx]?) := by
  simp only [chromaAssignments, List.mem_flatMap, List.mem_range, List.mem_cons, List.not_mem_nil,
    or_false, chromaRead_eq hw hh, Prod.mk.injEq, chromaOffset, Nat.add_assoc]
  constructor
  · rintro ⟨dcy, hy, dcx, hx, h⟩
    exact ⟨dcy, dcx, hy, hx, h⟩
  · rintro ⟨dcy, dcx, hy, hx, h⟩
    exact ⟨dcy, hy, dcx, hx, h⟩

theorem isSome_getElem?_iff {l : List UInt8} {i : ℕ} : (l[i]?).isSome ↔ i < l.length := by
  simp

/-- All assignments of a request. -/
def assignments (f : Yuv420p) (dstW dstH : ℕ) : List (ℕ × Option UInt8) :=
  lumaAssignments f (mapAxis dstW f.width) (mapAxis dstH f.height) dstW ++
    chromaAssignments f (mapAxis dstW f.width) (mapAxis dstH f.height) (dstW * dstH)
      (max (dstW / 2) 1) (max (dstH / 2) 1)

theorem downscaled_of_sides (hsides : ¬Refused f dstW dstH) :
    f.downscaled dstW dstH = (usize (frameLen f.width f.height)).bind fun size =>
      if f.data.length < size ∨ (dstW, dstH) = (f.width, f.height) then some f
      else f.scaledTo dstW dstH := by
  rw [Yuv420p.downscaled]
  exact if_neg hsides

/-- A request that is met by scaling. -/
structure Scaled (f : Yuv420p) (dstW dstH : ℕ) : Prop where
  sides : ¬Refused f dstW dstH
  size : frameLen f.width f.height < 2 ^ 64
  length : frameLen f.width f.height ≤ f.data.length
  other : (dstW, dstH) ≠ (f.width, f.height)

namespace Scaled

theorem bounds (h : Scaled f dstW dstH) :
    (0 < dstW ∧ dstW ≤ f.width) ∧ 0 < dstH ∧ dstH ≤ f.height := by
  have := h.sides
  unfold Refused at this
  omega

theorem downscaled_eq (h : Scaled f dstW dstH) :
    f.downscaled dstW dstH =
      (scatter (List.replicate (dstW * dstH + 2 * (max (dstH / 2) 1 * max (dstW / 2) 1)) 0)
        (assignments f dstW dstH)).map fun data =>
          { width := dstW, height := dstH, data := data } := by
  rw [downscaled_of_sides h.sides, usize, if_pos h.size, Option.bind_some,
    if_neg (not_or.2 ⟨Nat.not_lt.2 h.length, h.other⟩), assignments, scatter_append, Yuv420p.scaledTo]
  cases scatter _ (lumaAssignments f (mapAxis dstW f.width) (mapAxis dstH f.height) dstW) with
  | none => rfl
  | some data =>
      rw [Option.bind_some, Option.map_eq_bind]
      rfl

/-- A row and a column of luma. -/
theorem lumaSource_lt (h : Scaled f dstW dstH) {dy dx : ℕ} (hy : dy < dstH) (hx : dx < dstW) :
    dy * f.height / dstH * f.width + dx * f.width / dstW < lumaLen f.width f.height := by
  obtain ⟨hw, hh⟩ := h.bounds
  rw [lumaLen, Nat.mul_comm f.width]
  exact index_lt (mapped_lt hy (by omega)) (mapped_lt hx (by omega))

/-- A row and a column of chroma, where the source has any. -/
theorem chromaOffset_lt (h : Scaled f dstW dstH) (hw : 2 ≤ f.width) (hh : 2 ≤ f.height) {dcy dcx : ℕ}
    (hy : dcy < max (dstH / 2) 1) (hx : dcx < max (dstW / 2) 1) :
    chromaOffset f dstW dstH dcy dcx < chromaLen f.width f.height := by
  obtain ⟨hbw, hbh⟩ := h.bounds
  rw [chromaLen, Nat.mul_comm (f.width / 2)]
  exact index_lt (chromaIndex_lt hbh.2 hy hh) (chromaIndex_lt hbw.2 hx hw)

/-- The loops run through exactly when the chroma that is read is in the buffer. -/
theorem isSome_iff (h : Scaled f dstW dstH) :
    (f.downscaled dstW dstH).isSome ↔
      ∀ dcy dcx, dcy < max (dstH / 2) 1 → dcx < max (dstW / 2) 1 →
        lumaLen f.width f.height + chromaLen f.width f.height + chromaOffset f dstW dstH dcy dcx <
          f.data.length := by
  obtain ⟨hbw, hbh⟩ := h.bounds
  rw [h.downscaled_eq, Option.isSome_map, scatter_isSome]
  constructor
  · intro hall dcy dcx hy hx
    have hread := hall _ (List.mem_append_right _
      ((mem_chromaAssignments hbw.1 hbh.1).2 ⟨dcy, dcx, hy, hx, Or.inr ⟨rfl, rfl⟩⟩))
    exact isSome_getElem?_iff.1 hread.2
  · rintro hall ⟨i, v⟩ hmem
    rw [List.length_replicate]
    rcases List.mem_append.1 hmem with hmem | hmem
    · obtain ⟨dy, dx, hy, hx, rfl, rfl⟩ := mem_lumaAssignments.1 hmem
      have hsource := h.lumaSource_lt hy hx
      have hposition := index_lt hy hx
      have hlength := h.length
      unfold frameLen at hlength
      refine ⟨?_, isSome_getElem?_iff.2 (by omega)⟩
      rw [Nat.mul_comm dstW]
      exact Nat.lt_add_right _ hposition
    · obtain ⟨dcy, dcx, hy, hx, ⟨rfl, rfl⟩ | ⟨rfl, rfl⟩⟩ := (mem_chromaAssignments hbw.1 hbh.1).1 hmem
      · have hposition := index_lt hy hx
        refine ⟨by simp only; omega, isSome_getElem?_iff.2 ?_⟩
        have := hall dcy dcx hy hx
        omega
      · have hposition := index_lt hy hx
        exact ⟨by simp only; omega, isSome_getElem?_iff.2 (hall dcy dcx hy hx)⟩

/-- The geometry of the result. -/
theorem geometry (h : Scaled f dstW dstH) (hout : f.downscaled dstW dstH = some out) :
    out.width = dstW ∧ out.height = dstH ∧
      out.data.length = dstW * dstH + 2 * (max (dstH / 2) 1 * max (dstW / 2) 1) ∧
      scatter (List.replicate (dstW * dstH + 2 * (max (dstH / 2) 1 * max (dstW / 2) 1)) 0)
        (assignments f dstW dstH) = some out.data := by
  rw [h.downscaled_eq] at hout
  obtain ⟨data, hdata, rfl⟩ := Option.map_eq_some_iff.1 hout
  exact ⟨rfl, rfl, by rw [length_scatter hdata, List.length_replicate], hdata⟩

/-- A byte of luma is one of the source. -/
theorem luma (h : Scaled f dstW dstH) (hout : f.downscaled dstW dstH = some out)
    (hb : b ∈ out.lumaBytes) : b ∈ f.lumaBytes := by
  obtain ⟨hbw, hbh⟩ := h.bounds
  obtain ⟨hwidth, hheight, -, hscatter⟩ := h.geometry hout
  obtain ⟨i, hi, hget⟩ := mem_take_iff.1 hb
  rw [lumaLen, hwidth, hheight, Nat.mul_comm] at hi
  obtain ⟨y, x, hy, hx, rfl⟩ := exists_index hi
  have hluma := (mem_lumaAssignments (f := f)).2 ⟨y, x, hy, hx, rfl, rfl⟩
  rcases mem_of_scatter hscatter hget with hmem | ⟨hnot, -⟩
  · rcases List.mem_append.1 hmem with hmem | hmem
    · obtain ⟨dy, dx, hdy, hdx, -, hread⟩ := mem_lumaAssignments.1 hmem
      exact mem_take_iff.2 ⟨_, h.lumaSource_lt hdy hdx, hread.symm⟩
    · -- chroma comes after luma
      obtain ⟨dcy, dcx, -, -, ⟨heq, -⟩ | ⟨heq, -⟩⟩ := (mem_chromaAssignments hbw.1 hbh.1).1 hmem
      · rw [Nat.mul_comm dstW] at heq
        omega
      · rw [Nat.mul_comm dstW] at heq
        omega
  · exact absurd (List.mem_map_of_mem (List.mem_append_left _ hluma)) hnot

/-- What is behind luma was read from chroma. -/
theorem exists_chroma (h : Scaled f dstW dstH) (hout : f.downscaled dstW dstH = some out) {k : ℕ}
    (hk : k < 2 * (max (dstH / 2) 1 * max (dstW / 2) 1))
    (hget : out.data[dstW * dstH + k]? = some b) :
    ∃ dcy dcx, dcy < max (dstH / 2) 1 ∧ dcx < max (dstW / 2) 1 ∧
      (k = dcy * max (dstW / 2) 1 + dcx ∧
          some b = f.data[lumaLen f.width f.height + chromaOffset f dstW dstH dcy dcx]? ∨
        k = max (dstH / 2) 1 * max (dstW / 2) 1 + (dcy * max (dstW / 2) 1 + dcx) ∧
          some b = f.data[lumaLen f.width f.height + chromaLen f.width f.height +
            chromaOffset f dstW dstH dcy dcx]?) := by
  obtain ⟨hbw, hbh⟩ := h.bounds
  obtain ⟨-, -, -, hscatter⟩ := h.geometry hout
  rcases mem_of_scatter hscatter hget with hmem | ⟨hnot, -⟩
  · rcases List.mem_append.1 hmem with hmem | hmem
    · -- luma ends before
      obtain ⟨dy, dx, hdy, hdx, heq, -⟩ := mem_lumaAssignments.1 hmem
      have := index_lt hdy hdx
      rw [Nat.mul_comm dstW] at heq
      omega
    · obtain ⟨dcy, dcx, hdy, hdx, hread⟩ := (mem_chromaAssignments hbw.1 hbh.1).1 hmem
      refine ⟨dcy, dcx, hdy, hdx, hread.imp ?_ ?_⟩
      · exact And.imp_left Nat.add_left_cancel
      · exact And.imp_left Nat.add_left_cancel
  · -- every index of the planes is assigned
    have hassigned : ∃ v, (dstW * dstH + k, v) ∈ assignments f dstW dstH := by
      by_cases hfirst : k < max (dstH / 2) 1 * max (dstW / 2) 1
      · obtain ⟨y, x, hy, hx, rfl⟩ := exists_index hfirst
        exact ⟨_, List.mem_append_right _
          ((mem_chromaAssignments hbw.1 hbh.1).2 ⟨y, x, hy, hx, Or.inl ⟨rfl, rfl⟩⟩)⟩
      · obtain ⟨y, x, hy, hx, heq⟩ := @exists_index (max (dstH / 2) 1) (max (dstW / 2) 1)
          (k - max (dstH / 2) 1 * max (dstW / 2) 1) (by omega)
        exact ⟨_, List.mem_append_right _ ((mem_chromaAssignments hbw.1 hbh.1).2
          ⟨y, x, hy, hx, Or.inr ⟨by omega, rfl⟩⟩)⟩
    obtain ⟨v, hmem⟩ := hassigned
    exact absurd (List.mem_map_of_mem hmem) hnot

/-- A single row or column has no chroma. -/
theorem chromaLen_eq_zero {w h : ℕ} (hone : ¬ (2 ≤ w ∧ 2 ≤ h)) : chromaLen w h = 0 := by
  rw [chromaLen, Nat.mul_eq_zero]
  omega

theorem chromaLen_eq (hw : 2 ≤ dstW) (hh : 2 ≤ dstH) :
    chromaLen dstW dstH = max (dstH / 2) 1 * max (dstW / 2) 1 := by
  rw [Nat.max_eq_left (by omega), Nat.max_eq_left (by omega), chromaLen, Nat.mul_comm]

/-- A byte of chroma is one of the source, of the same plane. -/
theorem chroma (h : Scaled f dstW dstH) (hout : f.downscaled dstW dstH = some out) (hw : 2 ≤ dstW)
    (hh : 2 ≤ dstH) :
    (∀ b ∈ out.uBytes, b ∈ f.uBytes) ∧ ∀ b ∈ out.vBytes, b ∈ f.vBytes := by
  obtain ⟨hbw, hbh⟩ := h.bounds
  obtain ⟨hwidth, hheight, -, -⟩ := h.geometry hout
  have hlen := chromaLen_eq hw hh
  constructor
  · intro b hb
    obtain ⟨k, hk, hget⟩ := mem_part_iff.1 hb
    rw [hwidth, hheight] at hk hget
    obtain ⟨dcy, dcx, hy, hx, ⟨-, hread⟩ | ⟨heq, -⟩⟩ := h.exists_chroma hout (by omega) hget
    · exact mem_part_iff.2 ⟨_, h.chromaOffset_lt (by omega) (by omega) hy hx, hread.symm⟩
    · omega
  · intro b hb
    obtain ⟨k, hk, hget⟩ := mem_part_iff.1 hb
    rw [hwidth, hheight] at hk hget
    rw [lumaLen, Nat.add_assoc] at hget
    obtain ⟨dcy, dcx, hy, hx, ⟨heq, -⟩ | ⟨-, hread⟩⟩ := h.exists_chroma hout (by omega) hget
    · have := index_lt hy hx
      omega
    · exact mem_part_iff.2 ⟨_, h.chromaOffset_lt (by omega) (by omega) hy hx, hread.symm⟩

end Scaled

/-! ### Requests that keep the promise -/

theorem scalesFaithfully_of_unchanged (h : f.downscaled dstW dstH = some f) :
    ScalesFaithfully f dstW dstH :=
  ⟨f, h, id, fun _ hb => hb, fun _ hb => hb, fun _ hb => hb⟩

/-- A request that is not met by scaling. -/
theorem scalesFaithfully_iff_of_not (h : ¬Scaled f dstW dstH) :
    ScalesFaithfully f dstW dstH ↔
      Refused f dstW dstH ∨ frameLen f.width f.height < 2 ^ 64 := by
  by_cases hsides : Refused f dstW dstH
  · have hsame : f.downscaled dstW dstH = some f := by
      rw [Yuv420p.downscaled]
      exact if_pos hsides
    exact ⟨fun _ => Or.inl hsides, fun _ => scalesFaithfully_of_unchanged hsame⟩
  have hscale := downscaled_of_sides hsides
  by_cases hsize : frameLen f.width f.height < 2 ^ 64
  · rw [usize, if_pos hsize, Option.bind_some] at hscale
    have hsame : f.downscaled dstW dstH = some f := by
      rw [hscale]
      apply if_pos
      by_contra hnot
      rw [not_or, Nat.not_lt] at hnot
      exact h ⟨hsides, hsize, hnot.1, hnot.2⟩
    exact ⟨fun _ => Or.inr hsize, fun _ => scalesFaithfully_of_unchanged hsame⟩
  · rw [usize, if_neg hsize, Option.bind_none] at hscale
    refine ⟨?_, fun hor => hor.elim (absurd · hsides) (absurd · hsize)⟩
    rintro ⟨out, hout, -⟩
    rw [hscale] at hout
    cases hout

theorem chromaIndex_zero (dst src : ℕ) : chromaIndex 0 dst src = 0 := by
  rw [chromaIndex, Nat.zero_mul, Nat.zero_min, Nat.zero_mul, Nat.zero_div, Nat.zero_div]

/-- The last column of chroma. -/
theorem chromaIndex_last (f : Yuv420p) (dstW : ℕ) :
    chromaIndex (max (dstW / 2) 1 - 1) dstW f.width = lastColumn f dstW := by
  have hmin : min ((max (dstW / 2) 1 - 1) * 2) (dstW - 1) = 2 * (dstW / 2 - 1) := by omega
  rw [chromaIndex, hmin, lastColumn]

theorem chromaIndex_le {d : ℕ} (hd : d < max (dstW / 2) 1) (f : Yuv420p) :
    chromaIndex d dstW f.width ≤ lastColumn f dstW := by
  rw [← chromaIndex_last]
  unfold chromaIndex
  apply Nat.div_le_div_right
  apply Nat.div_le_div_right
  apply Nat.mul_le_mul_right
  omega

namespace Scaled

/-- Of a frame with a side of one pixel one row is read. -/
theorem chromaOffset_le (h : Scaled f dstW dstH) (hone : ¬(2 ≤ f.width ∧ 2 ≤ f.height)) {dcy dcx : ℕ}
    (hx : dcx < max (dstW / 2) 1) : chromaOffset f dstW dstH dcy dcx ≤ lastColumn f dstW := by
  obtain ⟨hbw, hbh⟩ := h.bounds
  have hrow : chromaIndex dcy dstH f.height * (f.width / 2) = 0 := by
    by_cases hwidth : f.width = 1
    · rw [hwidth, Nat.mul_zero]
    · have hheight : f.height = 1 := by omega
      rw [hheight, chromaIndex_one (by omega), Nat.zero_mul]
  rw [chromaOffset, hrow, Nat.zero_add]
  exact chromaIndex_le hx f

/-- What has a result has a faithful one, but for the layout of a result with a side of one pixel. -/
theorem faithful (h : Scaled f dstW dstH) (hsome : (f.downscaled dstW dstH).isSome)
    (hlong : 2 ≤ dstW ∧ 2 ≤ dstH ∨ frameLen f.width f.height < f.data.length) :
    ScalesFaithfully f dstW dstH := by
  obtain ⟨out, hout⟩ := Option.isSome_iff_exists.1 hsome
  obtain ⟨hwidth, hheight, hlength, -⟩ := h.geometry hout
  obtain ⟨hbw, hbh⟩ := h.bounds
  refine ⟨out, hout, ?_, fun b hb => h.luma hout hb, ?_⟩
  · intro hexact
    obtain ⟨hw, hh⟩ := hlong.resolve_right (by omega)
    rw [hlength, hwidth, hheight, frameLen, chromaLen_eq hw hh, lumaLen]
  · by_cases htwo : 2 ≤ dstW ∧ 2 ≤ dstH
    · exact h.chroma hout htwo.1 htwo.2
    · -- there is no chroma by the layout
      have hnone : chromaLen out.width out.height = 0 := by
        rw [hwidth, hheight, chromaLen_eq_zero htwo]
      rw [Yuv420p.uBytes, Yuv420p.vBytes, hnone, List.take_zero, List.take_zero]
      exact ⟨fun b hb => absurd hb List.not_mem_nil, fun b hb => absurd hb List.not_mem_nil⟩

theorem isSome_of_two (h : Scaled f dstW dstH) (hw : 2 ≤ f.width) (hh : 2 ≤ f.height) :
    (f.downscaled dstW dstH).isSome := by
  rw [h.isSome_iff]
  intro dcy dcx hy hx
  have hlt := h.chromaOffset_lt hw hh hy hx
  have hlength := h.length
  unfold frameLen at hlength
  omega

/-- A request that is met by scaling. -/
theorem faithful_iff (h : Scaled f dstW dstH) :
    ScalesFaithfully f dstW dstH ↔
      2 ≤ dstW ∧ 2 ≤ dstH ∨ frameLen f.width f.height < f.data.length ∧
        (2 ≤ f.width ∧ 2 ≤ f.height ∨
          lumaLen f.width f.height + lastColumn f dstW < f.data.length) := by
  obtain ⟨hbw, hbh⟩ := h.bounds
  constructor
  · rintro ⟨out, hout, hlayout, -⟩
    obtain ⟨hwidth, hheight, hlength, -⟩ := h.geometry hout
    by_cases htwo : 2 ≤ dstW ∧ 2 ≤ dstH
    · exact Or.inl htwo
    refine Or.inr ⟨?_, ?_⟩
    · -- a buffer of the layout's length would give one that is too long
      refine lt_of_le_of_ne h.length fun hexact => ?_
      have hnone := chromaLen_eq_zero htwo
      have hpos : 0 < max (dstH / 2) 1 * max (dstW / 2) 1 := Nat.mul_pos (by omega) (by omega)
      have hout := hlayout hexact.symm
      rw [hlength, hwidth, hheight, frameLen, hnone, lumaLen] at hout
      omega
    · by_cases hone : 2 ≤ f.width ∧ 2 ≤ f.height
      · exact Or.inl hone
      · have hnone := chromaLen_eq_zero hone
        have hlast := h.isSome_iff.1 (Option.isSome_of_eq_some hout) 0 (max (dstW / 2) 1 - 1)
          (by omega) (by omega)
        rw [hnone, chromaOffset, chromaIndex_zero, chromaIndex_last] at hlast
        exact Or.inr (by omega)
  · rintro (⟨hw, hh⟩ | ⟨hlong, hor⟩)
    · exact h.faithful (h.isSome_of_two (by omega) (by omega)) (Or.inl ⟨hw, hh⟩)
    · refine h.faithful ?_ (Or.inr hlong)
      by_cases hone : 2 ≤ f.width ∧ 2 ≤ f.height
      · exact h.isSome_of_two hone.1 hone.2
      · rw [h.isSome_iff]
        intro dcy dcx _ hx
        have hnone := chromaLen_eq_zero hone
        have hle : chromaOffset f dstW dstH dcy dcx ≤ lastColumn f dstW := h.chromaOffset_le hone hx
        have hread := hor.resolve_left hone
        omega

end Scaled

/-- **Exactly these requests keep the promise.** -/
theorem scalesFaithfully_iff (f : Yuv420p) (dstW dstH : ℕ) :
    ScalesFaithfully f dstW dstH ↔ ScalesWhen f dstW dstH := by
  by_cases h : Scaled f dstW dstH
  · rw [h.faithful_iff, ScalesWhen]
    have hsides := h.sides
    have hsize := h.size
    have hlength := Nat.not_lt.2 h.length
    have hother := h.other
    simp only [hsides, hsize, hlength, hother, false_or, true_and]
  · rw [scalesFaithfully_iff_of_not h, ScalesWhen]
    constructor
    · rintro (hsides | hsize)
      · exact Or.inl hsides
      · by_cases hsides : Refused f dstW dstH
        · exact Or.inl hsides
        · refine Or.inr ⟨hsize, ?_⟩
          by_contra hnot
          rw [not_or, not_or, Nat.not_lt] at hnot
          exact h ⟨hsides, hsize, hnot.1, hnot.2.1⟩
    · rintro (hsides | ⟨hsize, -⟩)
      · exact Or.inl hsides
      · exact Or.inr hsize

/-- A column of four pixels has no chroma, and a byte of it is read. -/
theorem not_scalesFaithfully_column :
    ¬ScalesFaithfully { width := 1, height := 4, data := [1, 2, 3, 4] } 1 2 := by
  rintro ⟨out, hout, -⟩
  have hnone : Yuv420p.downscaled { width := 1, height := 4, data := [1, 2, 3, 4] } 1 2 = none := by
    decide
  rw [hnone] at hout
  cases hout

end Convert

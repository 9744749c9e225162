/-
**Frames in planar YUV 4:2:0.**

`encoder/convert.rs` of `crates/streaming` has the frames that the encoders take: a luma plane, and two
chroma planes with half of its rows and columns, one after the other in a buffer.  A frame is scaled
down, flipped, turned by a quarter and converted from and to RGB.

A loop over indices is the list of its assignments.  An index, a slice or a size that is out of range is
a panic, and then there is no result; so it is when the rounds of a `while` loop do not suffice.

Main definitions:

* `Convert.Yuv420p`, with `new`, `downscaled`, `yPlane`, `uPlane`, `vPlane`, `flip` and `rotated`;
* `Convert.mapAxis`, `Convert.transposePlane`, `Convert.flipPlane`, `Convert.copyRow`;
* `Convert.rgb8ToYuv420p`, `Convert.yuv420pToRgb8`;
* `Convert.Yuv420p.WellFormed` — the layout of a frame.
-/

import Mathlib.Algebra.Order.Ring.Int
import MibeeEye.ListCut
import MibeeEye.Scatter

set_option relaxedAutoImplicit false
set_option autoImplicit false

namespace Convert

open Scatter

/-! ### Sizes and slices -/

/-- A size, which panics where it is too large for `usize`. -/
def usize (n : ℕ) : Option ℕ := if n < 2 ^ 64 then some n else none

/-- `&l[a..b]`. -/
def slice {α : Type} (l : List α) (a b : ℕ) : Option (List α) :=
  if a ≤ b ∧ b ≤ l.length then some ((l.take b).drop a) else none

/-! ### Frames -/

/-- `Yuv420p`. -/
structure Yuv420p where
  width : ℕ
  height : ℕ
  data : List UInt8
  deriving DecidableEq

/-- The bytes of the luma plane of a geometry. -/
def lumaLen (width height : ℕ) : ℕ := width * height

/-- The bytes of each chroma plane. -/
def chromaLen (width height : ℕ) : ℕ := width / 2 * (height / 2)

/-- The bytes of a frame. -/
def frameLen (width height : ℕ) : ℕ := lumaLen width height + 2 * chromaLen width height

/-- The layout of a frame; a `Vec` has at most `isize::MAX` bytes. -/
structure Yuv420p.WellFormed (f : Yuv420p) : Prop where
  layout : f.data.length = frameLen f.width f.height
  size : f.data.length < 2 ^ 63

/-- `Yuv420p::new`. -/
def Yuv420p.new (width height : ℕ) : Option Yuv420p :=
  (usize (frameLen width height)).map fun n =>
    { width := width, height := height, data := List.replicate n 0 }

/-- `y_plane`. -/
def Yuv420p.yPlane (f : Yuv420p) : Option (List UInt8) :=
  slice f.data 0 (lumaLen f.width f.height)

/-- `u_plane`. -/
def Yuv420p.uPlane (f : Yuv420p) : Option (List UInt8) :=
  slice f.data (lumaLen f.width f.height) (lumaLen f.width f.height + chromaLen f.width f.height)

/-- `v_plane`. -/
def Yuv420p.vPlane (f : Yuv420p) : Option (List UInt8) :=
  slice f.data (lumaLen f.width f.height + chromaLen f.width f.height) f.data.length

/-! ### Scaling -/

/-- `map_axis`. -/
def mapAxis (dst src : ℕ) : List ℕ := (List.range dst).map fun d => d * src / dst

/-- The assignments of luma. -/
def lumaAssignments (f : Yuv420p) (xmap ymap : List ℕ) (dstW : ℕ) : List (ℕ × Option UInt8) :=
  ymap.zipIdx.flatMap fun (sy, dy) => xmap.zipIdx.map fun (sx, dx) =>
    (dy * dstW + dx, f.data[sy * f.width + sx]?)

/-- A byte of a chroma plane that begins at `start`: row and column of luma, mapped and halved. -/
def chromaRead (f : Yuv420p) (xmap ymap : List ℕ) (start dcy dcx : ℕ) : Option UInt8 := do
  let sy ← ymap[min (dcy * 2) (ymap.length - 1)]?
  let sx ← xmap[min (dcx * 2) (xmap.length - 1)]?
  f.data[start + sy / 2 * (f.width / 2) + sx / 2]?

/-- The assignments of chroma. -/
def chromaAssignments (f : Yuv420p) (xmap ymap : List ℕ) (dstY dstCw dstCh : ℕ) :
    List (ℕ × Option UInt8) :=
  let srcY := lumaLen f.width f.height
  let srcC := chromaLen f.width f.height
  let dstC := dstCh * dstCw
  (List.range dstCh).flatMap fun dcy => (List.range dstCw).flatMap fun dcx =>
    [(dstY + dcy * dstCw + dcx, chromaRead f xmap ymap srcY dcy dcx),
      (dstY + dstC + dcy * dstCw + dcx, chromaRead f xmap ymap (srcY + srcC) dcy dcx)]

/-- The loops of `downscaled`. -/
def Yuv420p.scaledTo (f : Yuv420p) (dstW dstH : ℕ) : Option Yuv420p := do
  let xmap := mapAxis dstW f.width
  let ymap := mapAxis dstH f.height
  let dstCh := max (dstH / 2) 1
  let dstCw := max (dstW / 2) 1
  let dstY := dstW * dstH
  let dstC := dstCh * dstCw
  let data ← scatter (List.replicate (dstY + 2 * dstC) 0) (lumaAssignments f xmap ymap dstW)
  let data ← scatter data (chromaAssignments f xmap ymap dstY dstCw dstCh)
  some { width := dstW, height := dstH, data := data }

/-- `downscaled`. -/
def Yuv420p.downscaled (f : Yuv420p) (dstW dstH : ℕ) : Option Yuv420p :=
  if f.width = 0 ∨ f.height = 0 ∨ dstW = 0 ∨ dstH = 0 ∨ dstW > f.width ∨ dstH > f.height then some f
  else do
    let size ← usize (frameLen f.width f.height)
    if f.data.length < size ∨ (dstW, dstH) = (f.width, f.height) then some f
    else f.scaledTo dstW dstH

/-! ### Flips -/

/-- `copy_row`. -/
def copyRow (src : List UInt8) (mirror : Bool) : List UInt8 := if mirror then src.reverse else src

/-- The loop of `flip_plane` that swaps rows from the outside in, and what it does to a middle row. -/
@[grind =] def swapRows (w : ℕ) (hflip : Bool) : ℕ → List UInt8 → ℕ → ℕ → Option (List UInt8)
  | 0, _, _, _ => none
  | rounds + 1, plane, top, bottom =>
      if top < bottom then do
        let scratch ← slice plane top (top + w)
        let head ← slice plane 0 bottom
        let tail ← slice plane bottom plane.length
        let _topRow ← slice head top (top + w)
        let bottomRow ← slice tail 0 w
        swapRows w hflip rounds
          (head.take top ++ copyRow bottomRow hflip ++ head.drop (top + w) ++
            copyRow scratch hflip ++ tail.drop w)
          (top + w) (bottom - w)
      else if top = bottom ∧ hflip then do
        let row ← slice plane top (top + w)
        some (plane.take top ++ row.reverse ++ plane.drop (top + w))
      else some plane

/-- `flip_plane`; without a row the offset of the last one underflows, and there are no chunks of
nothing. -/
def flipPlane (plane : List UInt8) (w h : ℕ) (hflip vflip : Bool) : Option (List UInt8) :=
  if vflip then
    if h = 0 then none else swapRows w hflip h plane 0 ((h - 1) * w)
  else if hflip then
    if w = 0 then none else some (((Wire.cut w plane).map List.reverse).flatten)
  else some plane

/-- `flip`. -/
def Yuv420p.flip (f : Yuv420p) (hflip vflip : Bool) : Option Yuv420p :=
  if !hflip && !vflip then some f
  else do
    let w := f.width
    let h := f.height
    let cw := w / 2
    let ch := h / 2
    let yLen := lumaLen w h
    let uvLen := chromaLen w h
    let size ← usize (frameLen w h)
    if f.data.length < size then some f
    else
      let yp ← flipPlane (f.data.take yLen) w h hflip vflip
      let rest := f.data.drop yLen
      if 0 < cw ∧ 0 < ch then
        let up ← flipPlane (rest.take uvLen) cw ch hflip vflip
        let vp ← flipPlane (rest.drop uvLen) cw ch hflip vflip
        some { f with data := yp ++ (up ++ vp) }
      else some { f with data := yp ++ rest }

/-! ### Quarter turns -/

/-- `transpose_plane`. -/
def transposePlane (src dst : List UInt8) (pw ph : ℕ) (clockwise : Bool) : Option (List UInt8) :=
  (List.range ph).foldlM (fun dst sy => do
    let row ← slice src (sy * pw) ((sy + 1) * pw)
    scatter dst (row.zipIdx.map fun (v, sx) =>
      (if clockwise then sx * ph + (ph - 1 - sy) else (pw - 1 - sx) * ph + sy, some v))) dst

/-- `rotated`. -/
def Yuv420p.rotated (f : Yuv420p) (clockwise : Bool) : Option Yuv420p := do
  let w := f.width
  let h := f.height
  let cw := w / 2
  let ch := h / 2
  let yLen := lumaLen w h
  let uvLen := chromaLen w h
  let out ← Yuv420p.new h w
  if w = 0 ∨ h = 0 then some out
  else
    let size ← usize (frameLen w h)
    if f.data.length < size then some out
    else
      let y ← f.yPlane
      let yp ← transposePlane y (out.data.take yLen) w h clockwise
      let rest := out.data.drop yLen
      if 0 < cw ∧ 0 < ch then
        let u ← f.uPlane
        let up ← transposePlane u (rest.take uvLen) cw ch clockwise
        let v ← f.vPlane
        let vp ← transposePlane v (rest.drop uvLen) cw ch clockwise
        some { out with data := yp ++ (up ++ vp) }
      else some { out with data := yp ++ rest }

/-! ### RGB -/

/-- `x.clamp(lo, hi) as u8`. -/
def clampByte (lo hi x : ℤ) : UInt8 := UInt8.ofNat (max lo (min hi x)).toNat

/-- A pixel of a packed RGB buffer. -/
def pixel (rgb : List UInt8) (px : ℕ) : Option (ℤ × ℤ × ℤ) := do
  let r ← rgb[px * 3]?
  let g ← rgb[px * 3 + 1]?
  let b ← rgb[px * 3 + 2]?
  some (r.toNat, g.toNat, b.toNat)

/-- Luma of a pixel; the shift rounds down. -/
def lumaOf : ℤ × ℤ × ℤ → UInt8
  | (r, g, b) => clampByte 16 235 (16 + (16829 * r + 33038 * g + 6416 * b + 32768) / 65536)

/-- Blue chroma. -/
def blueOf : ℤ × ℤ × ℤ → UInt8
  | (r, g, b) => clampByte 16 240 (128 + (-9719 * r - 19026 * g + 28736 * b + 32768) / 65536)

/-- Red chroma. -/
def redOf : ℤ × ℤ × ℤ → UInt8
  | (r, g, b) => clampByte 16 240 (128 + (28736 * r - 24070 * g - 4642 * b + 32768) / 65536)

/-- The average of the four pixels of a block. -/
def blockAverage (rgb : List UInt8) (w cy cx : ℕ) : Option (ℤ × ℤ × ℤ) := do
  let (r0, g0, b0) ← pixel rgb ((cy * 2 + 0) * w + (cx * 2 + 0))
  let (r1, g1, b1) ← pixel rgb ((cy * 2 + 0) * w + (cx * 2 + 1))
  let (r2, g2, b2) ← pixel rgb ((cy * 2 + 1) * w + (cx * 2 + 0))
  let (r3, g3, b3) ← pixel rgb ((cy * 2 + 1) * w + (cx * 2 + 1))
  some ((r0 + r1 + r2 + r3).tdiv 4, (g0 + g1 + g2 + g3).tdiv 4, (b0 + b1 + b2 + b3).tdiv 4)

/-- The assignments of the loop over the blocks to one of the chroma planes. -/
def blockAssignments (rgb : List UInt8) (w halfW halfH : ℕ) (chroma : ℤ × ℤ × ℤ → UInt8) :
    List (ℕ × Option UInt8) :=
  (List.range halfH).flatMap fun cy => (List.range halfW).map fun cx =>
    (cy * halfW + cx, (blockAverage rgb w cy cx).map chroma)

/-- `rgb8_to_yuv420p`. -/
def rgb8ToYuv420p (rgb : List UInt8) (width height : ℕ) : Option (Except String Yuv420p) := do
  let expected ← usize (width * height * 3)
  if rgb.length < expected then
    some (.error s!"RGB buffer too short: {rgb.length} < {expected} ({width}x{height})")
  else
    let frame ← Yuv420p.new width height
    let halfW := width / 2
    let halfH := height / 2
    let yLen := lumaLen width height
    let uvLen := chromaLen width height
    let y ← scatter (frame.data.take yLen)
      ((List.range (width * height)).map fun i => (i, (pixel rgb i).map lumaOf))
    let uv := frame.data.drop yLen
    let u ← scatter (uv.take uvLen) (blockAssignments rgb width halfW halfH blueOf)
    let v ← scatter (uv.drop uvLen) (blockAssignments rgb width halfW halfH redOf)
    some (.ok { frame with data := y ++ (u ++ v) })

/-- Red, green and blue of a pixel; the divisions round towards zero. -/
def rgbOf (y u v : UInt8) : List UInt8 :=
  let cu : ℤ := u.toNat - 128
  let cv : ℤ := v.toNat - 128
  [clampByte 0 255 (y.toNat + (143 * cv).tdiv 100),
    clampByte 0 255 (y.toNat - (34 * cu + 71 * cv).tdiv 100),
    clampByte 0 255 (y.toNat + (177 * cu).tdiv 100)]

/-- The assignments of a pixel. -/
def pixelAssignments (y u v : List UInt8) (w j i : ℕ) : List (ℕ × Option UInt8) :=
  let colours : Option (List UInt8) := do
    let y ← y[j * w + i]?
    let u ← u[j / 2 * (w / 2) + i / 2]?
    let v ← v[j / 2 * (w / 2) + i / 2]?
    some (rgbOf y u v)
  let off := (j * w + i) * 3
  [(off, colours.bind fun rgb => rgb[0]?), (off + 1, colours.bind fun rgb => rgb[1]?),
    (off + 2, colours.bind fun rgb => rgb[2]?)]

/-- `yuv420p_to_rgb8`. -/
def yuv420pToRgb8 (frame : Yuv420p) : Option (List UInt8) := do
  let w := frame.width
  let h := frame.height
  let y ← frame.yPlane
  let u ← frame.uPlane
  let v ← frame.vPlane
  let size ← usize (w * h * 3)
  scatter (List.replicate size 0) ((List.range h).flatMap fun j => (List.range w).flatMap fun i =>
    pixelAssignments y u v w j i)

end Convert

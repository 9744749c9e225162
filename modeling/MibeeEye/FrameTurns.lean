/-
**Flips and turns of frames.**

The planes of a frame are rasters.  `flip_plane` swaps rows in place, from the outside in, and
`transpose_plane` moves each byte to its place; they are the flips and the quarter turns of rasters, so
that frames are turned as rectangles are.  Only a frame without rows or columns cannot be flipped.

Main definitions:

* `Convert.Picture` — three rasters, and `Convert.Picture.frame`, the frame they are;
* `Convert.DihedralLaws` — the laws of turns and flips.

Main results:

* `Convert.swapRows_eq` — what the loop over rows leaves;
* `Convert.flip_frame`, `Convert.rotated_frame` — **frames are flipped and turned as pictures are**;
* `Convert.dihedralLaws_iff` — the laws hold of all frames that have rows and columns.
-/

import Mathlib.Data.List.Induction
import MibeeEye.Convert
import MibeeEye.Raster

set_option relaxedAutoImplicit false
set_option autoImplicit false

namespace Convert

open Raster Scatter

/-! ### Slices -/

theorem slice_mid {α : Type} {l : List α} {i j : ℕ} (a b c : List α) (hl : l = a ++ (b ++ c))
    (hi : i = a.length) (hj : j = a.length + b.length) : slice l i j = some b := by
  subst hl hi hj
  rw [slice, if_pos ⟨by omega, by rw [List.length_append, List.length_append]; omega⟩,
    ← List.append_assoc, List.take_left' (List.length_append), List.drop_left]

/-! ### Rows are swapped from the outside in -/

theorem length_copyRow (r : List UInt8) (m : Bool) : (copyRow r m).length = r.length := by
  unfold copyRow
  split
  · exact List.length_reverse
  · rfl

/-- A round swaps the outermost rows. -/
theorem swapRows_succ {w : ℕ} (hw : 0 < w) (m : Bool) (rounds : ℕ) (pre mid post : List UInt8)
    {a b : List UInt8} (ha : a.length = w) (hb : b.length = w) :
    swapRows w m (rounds + 1) (pre ++ (a ++ (mid ++ (b ++ post)))) pre.length
        (pre.length + w + mid.length) =
      swapRows w m rounds ((pre ++ copyRow b m) ++ (mid ++ (copyRow a m ++ post))) (pre.length + w)
        (pre.length + mid.length) := by
  have hscratch := slice_mid (l := pre ++ (a ++ (mid ++ (b ++ post)))) (i := pre.length)
    (j := pre.length + w) pre a (mid ++ (b ++ post)) rfl rfl (by rw [ha])
  have hhead := slice_mid (l := pre ++ (a ++ (mid ++ (b ++ post)))) (i := 0)
    (j := pre.length + w + mid.length) [] (pre ++ (a ++ mid)) (b ++ post) (by simp) rfl
    (by simp [ha, Nat.add_assoc])
  have htail := slice_mid (l := pre ++ (a ++ (mid ++ (b ++ post)))) (i := pre.length + w + mid.length)
    (j := (pre ++ (a ++ (mid ++ (b ++ post)))).length) (pre ++ (a ++ mid)) (b ++ post) [] (by simp)
    (by simp [ha, Nat.add_assoc]) (by simp [Nat.add_assoc])
  have htop := slice_mid (l := pre ++ (a ++ mid)) (i := pre.length) (j := pre.length + w) pre a mid rfl
    rfl (by rw [ha])
  have hbottom := slice_mid (l := b ++ post) (i := 0) (j := w) [] b post rfl rfl (by simp [hb])
  rw [swapRows, if_pos (by omega), hscratch, hhead, htail]
  change (slice (pre ++ (a ++ mid)) _ _).bind _ = _
  rw [htop]
  change (slice (b ++ post) _ _).bind _ = _
  rw [hbottom]
  have hrest : (pre ++ (a ++ mid)).drop (pre.length + w) = mid := by
    rw [← List.append_assoc, List.drop_left' (by rw [List.length_append, ha])]
  have hpost : (b ++ post).drop w = post := List.drop_left' hb
  have hround : pre.length + w + mid.length - w = pre.length + mid.length := by omega
  rw [Option.bind_some, hrest, hpost, hround, List.take_left]
  simp only [List.append_assoc]

/-- The last round turns the middle row. -/
theorem swapRows_middle {w : ℕ} (m : Bool) (rounds : ℕ) (pre post : List UInt8) {r : List UInt8}
    (hr : r.length = w) :
    swapRows w m (rounds + 1) (pre ++ (r ++ post)) pre.length pre.length =
      some (pre ++ (copyRow r m ++ post)) := by
  rw [swapRows, if_neg (Nat.lt_irrefl _)]
  cases m with
  | false => simp [copyRow]
  | true =>
      have hrow := slice_mid (l := pre ++ (r ++ post)) (i := pre.length) (j := pre.length + w)
        pre r post rfl rfl (by rw [hr])
      have hpost : (pre ++ (r ++ post)).drop (pre.length + w) = post := by
        rw [← List.append_assoc, List.drop_left' (by rw [List.length_append, hr])]
      rw [if_pos ⟨rfl, rfl⟩, hrow]
      change some _ = _
      rw [hpost, List.take_left]
      simp [copyRow]

/-- The rows between two parts of the plane are put in opposite order. -/
theorem swapRows_eq {w : ℕ} (hw : 0 < w) (m : Bool) (mid : List (List UInt8)) :
    ∀ (pre post : List UInt8) (rounds bottom : ℕ), (∀ r ∈ mid, r.length = w) →
      mid.length < 2 * rounds → bottom + w = pre.length + mid.length * w →
      swapRows w m rounds (pre ++ (mid.flatten ++ post)) pre.length bottom =
        some (pre ++ ((mid.reverse.map fun r => copyRow r m).flatten ++ post)) := by
  induction mid using List.bidirectionalRec with
  | nil =>
      intro pre post rounds bottom _ hrounds hbottom
      cases rounds with
      | zero => exact absurd hrounds (Nat.not_lt_zero _)
      | succ rounds =>
          rw [List.length_nil, Nat.zero_mul] at hbottom
          rw [swapRows, if_neg (by omega), if_neg (by omega)]
          rfl
  | singleton r =>
      intro pre post rounds bottom hlength hrounds hbottom
      cases rounds with
      | zero => exact absurd hrounds (Nat.not_lt_zero _)
      | succ rounds =>
          have hr := hlength r List.mem_cons_self
          have htop : pre.length = bottom := by
            rw [List.length_singleton, Nat.one_mul] at hbottom
            omega
          rw [← htop, List.flatten_singleton, swapRows_middle m rounds pre post hr]
          simp
  | cons_append a l b ih =>
      intro pre post rounds bottom hlength hrounds hbottom
      have ha := hlength a List.mem_cons_self
      have hb := hlength b (by simp)
      have hl : ∀ r ∈ l, r.length = w := fun r hr => hlength r (by simp [hr])
      have hflat : l.flatten.length = l.length * w := by
        rw [List.length_flatten, List.map_congr_left hl, List.map_const', List.sum_replicate_nat]
      cases rounds with
      | zero => exact absurd hrounds (Nat.not_lt_zero _)
      | succ rounds =>
          rw [List.length_cons, List.length_append, List.length_singleton] at hrounds hbottom
          have hend : bottom = pre.length + w + l.flatten.length := by
            rw [hflat]
            rw [Nat.succ_mul, Nat.succ_mul] at hbottom
            omega
          have hnext := ih (pre ++ copyRow b m) (copyRow a m ++ post) rounds
            (pre.length + l.flatten.length) hl (by omega)
            (by rw [List.length_append, length_copyRow, hb, hflat]; omega)
          rw [List.length_append, length_copyRow, hb] at hnext
          have hround := swapRows_succ hw m rounds pre l.flatten post ha hb
          rw [hend, List.flatten_cons, List.flatten_append, List.flatten_singleton, List.append_assoc,
            List.append_assoc, hround, hnext]
          simp

/-- Rows are the chunks of their width. -/
theorem cut_flatten {w : ℕ} (hw : 0 < w) {rows : List (List UInt8)} (hne : rows ≠ [])
    (hlength : ∀ r ∈ rows, r.length = w) : Wire.cut w rows.flatten = rows := by
  induction rows with
  | nil => exact absurd rfl hne
  | cons r rows ih =>
      have hr := hlength r List.mem_cons_self
      cases rows with
      | nil =>
          rw [List.flatten_singleton]
          exact Wire.cut_of_le hr.le
      | cons s rows =>
          have hs := hlength s (by simp)
          rw [List.flatten_cons, Wire.cut_of_lt hw, List.take_left' hr, List.drop_left' hr,
            ih (List.cons_ne_nil s rows) fun q hq => hlength q (List.mem_cons_of_mem r hq)]
          rw [List.length_append, hr, List.flatten_cons, List.length_append, hs]
          omega

variable {h w : ℕ}

/-- **A plane is flipped as a raster is**, if it has rows and columns. -/
theorem flipPlane_toList (hw : 0 < w) (hh : 0 < h) (m v : Bool) (p : Grid UInt8 h w) :
    flipPlane (toList p) w h m v = some (toList (flip m v p)) := by
  have hlength : ∀ r ∈ rows p, r.length = w := fun r => length_of_mem_rows
  unfold flipPlane
  cases v with
  | true =>
      have hsub : (h - 1) * w + w = h * w := by
        rw [← Nat.succ_mul, Nat.succ_eq_add_one, Nat.sub_add_cancel hh]
      have hswap := swapRows_eq hw m (rows p) [] [] h ((h - 1) * w) hlength
        (by rw [length_rows]; omega) (by rw [length_rows, List.length_nil, Nat.zero_add, hsub])
      rw [List.nil_append, List.nil_append, List.append_nil, List.append_nil, List.length_nil] at hswap
      rw [if_pos rfl, if_neg (by omega), toList, hswap, toList, rows_flip, if_pos rfl]
      rfl
  | false =>
      rw [if_neg (by decide), toList, toList, rows_flip]
      cases m with
      | true =>
          have hne : rows p ≠ [] := by
            rw [← List.length_pos_iff, length_rows]
            exact hh
          rw [if_pos rfl, if_neg (by omega), cut_flatten hw hne hlength]
          rfl
      | false => simp

/-! ### Bytes are moved to their places -/

/-- Where a byte of a plane goes. -/
def turnedIndex (pw ph : ℕ) (clockwise : Bool) (sy sx : ℕ) : ℕ :=
  if clockwise then sx * ph + (ph - 1 - sy) else (pw - 1 - sx) * ph + sy

/-- The slice of a row. -/
theorem slice_row (p : Grid UInt8 h w) (y : Fin h) :
    slice (toList p) (y * w) ((y + 1) * w) = some (List.ofFn (p y)) := by
  have hend : (y + 1) * w ≤ (toList p).length := by
    rw [length_toList]
    exact Nat.mul_le_mul_right w y.2
  rw [slice, if_pos ⟨Nat.mul_le_mul_right w (Nat.le_succ y), hend⟩]
  congr 1
  apply List.ext_getElem?
  intro i
  rw [List.getElem?_drop, List.getElem?_ofFn]
  split
  · rename_i hi
    rw [List.getElem?_take_of_lt (by rw [Nat.succ_mul]; omega)]
    exact getElem?_toList p y ⟨i, hi⟩
  · rw [List.getElem?_take, if_neg (by rw [Nat.succ_mul]; omega)]

/-- The assignments for a row of a plane. -/
def turnedRow (p : Grid UInt8 h w) (clockwise : Bool) (sy : ℕ) : List (ℕ × Option UInt8) :=
  ((slice (toList p) (sy * w) ((sy + 1) * w)).getD []).zipIdx.map fun (v, sx) =>
    (turnedIndex w h clockwise sy sx, some v)

theorem mem_turnedRow {p : Grid UInt8 h w} {c : Bool} {y : Fin h} {i : ℕ} {v : Option UInt8} :
    (i, v) ∈ turnedRow p c y ↔ ∃ x : Fin w, i = turnedIndex w h c y x ∧ v = some (p y x) := by
  rw [turnedRow, slice_row, Option.getD_some, List.mem_map]
  constructor
  · rintro ⟨⟨b, sx⟩, hmem, heq⟩
    have hget := List.mem_zipIdx_iff_getElem?.1 hmem
    rw [List.getElem?_ofFn] at hget
    obtain ⟨hx, hget⟩ := Option.dite_none_right_eq_some.1 hget
    obtain ⟨rfl, rfl⟩ := Prod.mk.inj heq
    exact ⟨⟨sx, hx⟩, rfl, hget.symm⟩
  · rintro ⟨x, rfl, rfl⟩
    refine ⟨(p y x, x), List.mem_zipIdx_iff_getElem?.2 ?_, rfl⟩
    rw [List.getElem?_ofFn, dif_pos x.2]

/-- Where a byte goes, as a row and a column of the turned plane. -/
theorem turnedIndex_eq (c : Bool) (y : Fin h) (x : Fin w) :
    turnedIndex w h c y x =
      (if c then x else x.rev : Fin w) * h + (if c then y.rev else y : Fin h) := by
  cases c with
  | true =>
      rw [turnedIndex, if_pos rfl, if_pos rfl, if_pos rfl, Fin.val_rev]
      omega
  | false =>
      rw [turnedIndex, if_neg (by decide), if_neg (by decide), if_neg (by decide), Fin.val_rev]
      congr 2
      omega

/-- Assignments that give each row and column its value, and no other, fill a raster. -/
theorem scatter_eq_toList {g : Grid UInt8 h w} {ws : List (ℕ × Option UInt8)} {buf : List UInt8}
    (honly : ∀ a ∈ ws, ∃ (y : Fin h) (x : Fin w), a = (y.1 * w + x.1, some (g y x)))
    (hall : ∀ (y : Fin h) (x : Fin w), (y.1 * w + x.1, some (g y x)) ∈ ws)
    (hbuf : buf.length = h * w) : scatter buf ws = some (toList g) := by
  obtain ⟨out, hout⟩ : ∃ out, scatter buf ws = some out := by
    rw [← Option.isSome_iff_exists, scatter_isSome]
    intro a ha
    obtain ⟨y, x, rfl⟩ := honly a ha
    refine ⟨?_, rfl⟩
    rw [hbuf]
    exact index_lt y.2 x.2
  rw [hout]
  congr 1
  refine eq_toList (by rw [length_scatter hout, hbuf]) fun y x => scatter_of_mem hout (hall y x) ?_
  -- the value of a row and a column is assigned once
  intro v hv
  obtain ⟨y', x', heq⟩ := honly _ hv
  obtain ⟨hindex, rfl⟩ := Prod.mk.inj heq
  obtain ⟨hy, hx⟩ := index_inj x.2 x'.2 hindex
  rw [Fin.ext hy, Fin.ext hx]

/-- **A plane is turned as a raster is.** -/
theorem transposePlane_toList (c : Bool) (p : Grid UInt8 h w) {dst : List UInt8}
    (hdst : dst.length = w * h) : transposePlane (toList p) dst w h c = some (toList (turn c p)) := by
  have hloop : transposePlane (toList p) dst w h c =
      scatter dst ((List.range h).flatMap (turnedRow p c)) := by
    refine foldlM_scatter (fun sy hsy b => ?_) dst
    have hrow := slice_row p ⟨sy, List.mem_range.1 hsy⟩
    rw [turnedRow]
    simp only [] at hrow
    rw [hrow]
    rfl
  rw [hloop]
  refine scatter_eq_toList ?_ ?_ hdst
  · rintro ⟨i, v⟩ ha
    obtain ⟨sy, hsy, hv⟩ := List.mem_flatMap.1 ha
    obtain ⟨x, rfl, rfl⟩ := (mem_turnedRow (y := ⟨sy, List.mem_range.1 hsy⟩)).1 hv
    refine ⟨if c then x else x.rev, if c then Fin.rev ⟨sy, List.mem_range.1 hsy⟩ else ⟨sy, List.mem_range.1 hsy⟩,
      ?_⟩
    rw [turnedIndex_eq]
    cases c <;> simp [turn]
  · intro y x
    refine List.mem_flatMap.2 ⟨(if c then x.rev else x : Fin h), List.mem_range.2 (Fin.is_lt _), ?_⟩
    refine mem_turnedRow.2 ⟨if c then y else y.rev, ?_, ?_⟩
    · rw [turnedIndex_eq]
      cases c <;> simp
    · cases c <;> simp [turn]

/-! ### Pictures -/

/-- The three planes of a frame. -/
structure Picture (h w : ℕ) where
  y : Grid UInt8 h w
  u : Grid UInt8 (h / 2) (w / 2)
  v : Grid UInt8 (h / 2) (w / 2)

namespace Picture

/-- The frame of a picture. -/
def frame (p : Picture h w) : Yuv420p :=
  { width := w, height := h, data := toList p.y ++ (toList p.u ++ toList p.v) }

/-- A picture with its columns, its rows or both in opposite order. -/
def flip (m v : Bool) (p : Picture h w) : Picture h w :=
  { y := Raster.flip m v p.y, u := Raster.flip m v p.u, v := Raster.flip m v p.v }

/-- A quarter turn of a picture. -/
def turn (c : Bool) (p : Picture h w) : Picture w h :=
  { y := Raster.turn c p.y, u := Raster.turn c p.u, v := Raster.turn c p.v }

theorem flip_flip (m v : Bool) (p : Picture h w) : (p.flip m v).flip m v = p := by
  simp only [flip, Raster.flip_flip]

theorem turn_turn (c : Bool) (p : Picture h w) : (p.turn c).turn (!c) = p := by
  simp only [turn, Raster.turn_turn]

theorem turn_twice (c : Bool) (p : Picture h w) : (p.turn c).turn c = p.flip true true := by
  simp only [turn, flip, Raster.turn_twice]

theorem turn_mirror (c : Bool) (p : Picture h w) :
    (p.flip true false).turn c = (p.turn c).flip false true := by
  simp only [turn, flip, Raster.turn_mirror]

theorem width_frame (p : Picture h w) : p.frame.width = w := rfl

theorem height_frame (p : Picture h w) : p.frame.height = h := rfl

theorem length_luma (g : Grid UInt8 h w) : (toList g).length = lumaLen w h := by
  rw [length_toList, lumaLen, Nat.mul_comm]

theorem length_chroma (g : Grid UInt8 (h / 2) (w / 2)) : (toList g).length = chromaLen w h := by
  rw [length_toList, chromaLen, Nat.mul_comm]

theorem length_frame (p : Picture h w) : p.frame.data.length = frameLen w h := by
  rw [frame, frameLen]
  rw [List.length_append, List.length_append, length_luma, length_chroma, length_chroma]
  omega

theorem take_frame (p : Picture h w) : p.frame.data.take (lumaLen w h) = toList p.y :=
  List.take_left' (length_luma p.y)

theorem drop_frame (p : Picture h w) : p.frame.data.drop (lumaLen w h) = toList p.u ++ toList p.v :=
  List.drop_left' (length_luma p.y)

theorem yPlane_frame (p : Picture h w) : p.frame.yPlane = some (toList p.y) :=
  slice_mid [] (toList p.y) (toList p.u ++ toList p.v) rfl rfl
    (by rw [List.length_nil, Nat.zero_add, length_luma]; rfl)

theorem uPlane_frame (p : Picture h w) : p.frame.uPlane = some (toList p.u) :=
  slice_mid (toList p.y) (toList p.u) (toList p.v) rfl (by rw [length_luma]; rfl)
    (by rw [length_luma, length_chroma]; rfl)

theorem vPlane_frame (p : Picture h w) : p.frame.vPlane = some (toList p.v) :=
  slice_mid (toList p.y ++ toList p.u) (toList p.v) [] (by rw [List.append_nil, List.append_assoc]; rfl)
    (by rw [List.length_append, length_luma, length_chroma]; rfl)
    (by rw [p.length_frame, List.length_append, length_luma, length_chroma, length_chroma, frameLen]; omega)

end Picture

/-- Every well-formed frame is that of a picture. -/
theorem exists_picture {f : Yuv420p} (hf : f.WellFormed) :
    ∃ p : Picture f.height f.width, f = p.frame := by
  have hlength := hf.layout
  rw [frameLen, lumaLen, chromaLen] at hlength
  have hsize : f.height * f.width = f.width * f.height := Nat.mul_comm _ _
  have hhalf : f.height / 2 * (f.width / 2) = f.width / 2 * (f.height / 2) := Nat.mul_comm _ _
  obtain ⟨y, hy⟩ := @exists_eq_toList _ f.height f.width (f.data.take (f.width * f.height))
    (by rw [List.length_take]; omega)
  obtain ⟨u, hu⟩ := @exists_eq_toList _ (f.height / 2) (f.width / 2)
    ((f.data.drop (f.width * f.height)).take (f.width / 2 * (f.height / 2)))
    (by rw [List.length_take, List.length_drop]; omega)
  obtain ⟨v, hv⟩ := @exists_eq_toList _ (f.height / 2) (f.width / 2)
    ((f.data.drop (f.width * f.height)).drop (f.width / 2 * (f.height / 2)))
    (by rw [List.length_drop, List.length_drop]; omega)
  refine ⟨{ y := y, u := u, v := v }, ?_⟩
  rw [Picture.frame, ← hy, ← hu, ← hv, List.take_append_drop, List.take_append_drop]

theorem usize_eq {n : ℕ} (hn : n < 2 ^ 64) : usize n = some n := if_pos hn

theorem Picture.not_short (p : Picture h w) : ¬p.frame.data.length < frameLen w h := by
  rw [p.length_frame]
  exact Nat.lt_irrefl _

/-- A grid without rows or columns has no values. -/
theorem toList_of_empty (hnone : ¬(0 < w / 2 ∧ 0 < h / 2)) (g : Grid UInt8 (h / 2) (w / 2)) :
    toList g = [] := by
  rw [← List.length_eq_zero_iff, length_toList, Nat.mul_eq_zero]
  omega

/-- **Frames are flipped as pictures are**, if they have rows and columns. -/
theorem flip_frame (hw : 0 < w) (hh : 0 < h) (m v : Bool) {p : Picture h w} (hsize : frameLen w h < 2 ^ 64) :
    p.frame.flip m v = some (p.flip m v).frame := by
  by_cases hnone : (!m && !v) = true
  · have hm : m = false := by revert hnone; cases m <;> simp
    have hv : v = false := by revert hnone; cases v <;> simp
    rw [Yuv420p.flip, if_pos hnone, hm, hv]
    rfl
  · simp only [Yuv420p.flip, if_neg hnone, p.width_frame, p.height_frame, usize_eq hsize,
      Option.bind_eq_bind, Option.bind_some, if_neg p.not_short, p.take_frame, p.drop_frame,
      flipPlane_toList hw hh]
    by_cases hchroma : 0 < w / 2 ∧ 0 < h / 2
    · rw [if_pos hchroma, List.take_left' (Picture.length_chroma p.u),
        List.drop_left' (Picture.length_chroma p.u), flipPlane_toList hchroma.1 hchroma.2,
        flipPlane_toList hchroma.1 hchroma.2]
      rfl
    · rw [if_neg hchroma, toList_of_empty hchroma, toList_of_empty hchroma, Picture.frame,
        toList_of_empty hchroma, toList_of_empty hchroma]
      rfl

theorem frameLen_comm (w h : ℕ) : frameLen w h = frameLen h w := by
  rw [frameLen, frameLen, lumaLen, lumaLen, chromaLen, chromaLen, Nat.mul_comm h, Nat.mul_comm (h / 2)]

/-- **Frames are turned as pictures are.** -/
theorem rotated_frame (c : Bool) {p : Picture h w} (hsize : frameLen w h < 2 ^ 64) :
    p.frame.rotated c = some (p.turn c).frame := by
  have hnew : Yuv420p.new h w =
      some { width := h, height := w, data := List.replicate (frameLen w h) 0 } := by
    rw [Yuv420p.new, frameLen_comm, usize_eq hsize]
    rfl
  have hlen : frameLen w h = lumaLen w h + (chromaLen w h + chromaLen w h) := by
    rw [frameLen, Nat.two_mul]
  have hy := @transposePlane_toList h w c p.y (List.replicate (lumaLen w h) 0) List.length_replicate
  have hu := @transposePlane_toList (h / 2) (w / 2) c p.u (List.replicate (chromaLen w h) 0)
    List.length_replicate
  have hv := @transposePlane_toList (h / 2) (w / 2) c p.v (List.replicate (chromaLen w h) 0)
    List.length_replicate
  simp only [Yuv420p.rotated, hnew, p.width_frame, p.height_frame, usize_eq hsize, Option.bind_eq_bind,
    Option.bind_some, if_neg p.not_short, p.yPlane_frame, p.uPlane_frame, p.vPlane_frame]
  rw [hlen, List.replicate_add, List.replicate_add, List.take_left' List.length_replicate,
    List.drop_left' List.length_replicate, List.take_left' List.length_replicate,
    List.drop_left' List.length_replicate, hy, hu, hv, Picture.frame]
  simp only [Option.bind_some, Picture.turn]
  by_cases hnone : w = 0 ∨ h = 0
  · -- there is nothing to turn
    have hluma : lumaLen w h = 0 := Nat.mul_eq_zero.2 hnone
    have hchroma : chromaLen w h = 0 := Nat.mul_eq_zero.2 (by omega)
    have hy0 : toList (Raster.turn c p.y) = [] := by
      rw [← List.length_eq_zero_iff, length_toList]
      exact hluma
    rw [if_pos hnone, hy0, toList_of_empty (by omega), toList_of_empty (by omega), hluma, hchroma]
    rfl
  · rw [if_neg hnone]
    by_cases hhalf : 0 < w / 2 ∧ 0 < h / 2
    · rw [if_pos hhalf]
    · have hchroma : chromaLen w h = 0 := Nat.mul_eq_zero.2 (by omega)
      rw [if_neg hhalf, toList_of_empty (by omega), toList_of_empty (by omega), hchroma]
      rfl

/-! ### The laws -/

/-- The laws of quarter turns and flips. -/
structure DihedralLaws (f : Yuv420p) : Prop where
  inverse : (f.rotated true).bind (·.rotated false) = some f
  order : (((f.rotated true).bind (·.rotated true)).bind (·.rotated true)).bind (·.rotated true) = some f
  half : (f.rotated true).bind (·.rotated true) = f.flip true true
  involution : ∀ h v, (f.flip h v).bind (·.flip h v) = some f
  conjugate : (f.flip true false).bind (·.rotated true) = (f.rotated true).bind (·.flip false true)

/-- A picture that has rows and columns. -/
theorem dihedralLaws_frame (hw : 0 < w) (hh : 0 < h) {p : Picture h w} (hsize : frameLen w h < 2 ^ 64) :
    DihedralLaws p.frame where
  inverse := by
    rw [rotated_frame true hsize, Option.bind_some, rotated_frame false (frameLen_comm w h ▸ hsize)]
    exact congrArg (fun q : Picture h w => some q.frame) (p.turn_turn true)
  order := by
    have hswap : frameLen h w < 2 ^ 64 := frameLen_comm w h ▸ hsize
    rw [rotated_frame true hsize, Option.bind_some, rotated_frame true hswap, Option.bind_some,
      rotated_frame true hsize, Option.bind_some, rotated_frame true hswap, Picture.turn_twice,
      Picture.turn_twice, Picture.flip_flip]
  half := by
    rw [rotated_frame true hsize, Option.bind_some, rotated_frame true (frameLen_comm w h ▸ hsize),
      flip_frame hw hh true true hsize, Picture.turn_twice]
  involution m v := by
    rw [flip_frame hw hh m v hsize, Option.bind_some, flip_frame hw hh m v hsize, Picture.flip_flip]
  conjugate := by
    rw [flip_frame hw hh true false hsize, Option.bind_some, rotated_frame true hsize,
      rotated_frame true hsize, Option.bind_some,
      flip_frame hh hw false true (frameLen_comm w h ▸ hsize), Picture.turn_mirror]

/-- A frame without columns has no chunks of a row, and one without rows no last row. -/
theorem flip_of_empty {f : Yuv420p} (hf : f.WellFormed) (hnone : f.width = 0 ∨ f.height = 0) :
    f.flip true false = none ∨ f.flip false true = none := by
  have hsize : frameLen f.width f.height < 2 ^ 64 := by
    have := hf.size
    rw [hf.layout] at this
    omega
  have hshort : ¬f.data.length < frameLen f.width f.height := by
    rw [hf.layout]
    exact Nat.lt_irrefl _
  rcases hnone with hwidth | hheight
  · left
    simp only [Yuv420p.flip, usize_eq hsize, Option.bind_eq_bind, Option.bind_some, if_neg hshort]
    rw [if_neg (by decide), flipPlane, if_neg (by decide), if_pos rfl, if_pos hwidth, Option.bind_none]
  · right
    simp only [Yuv420p.flip, usize_eq hsize, Option.bind_eq_bind, Option.bind_some, if_neg hshort]
    rw [if_neg (by decide), flipPlane, if_pos rfl, if_pos hheight, Option.bind_none]

/-- **The laws hold of all frames that have rows and columns.** -/
theorem dihedralLaws_iff (f : Yuv420p) (hf : f.WellFormed) :
    DihedralLaws f ↔ 0 < f.width ∧ 0 < f.height := by
  have hsize : frameLen f.width f.height < 2 ^ 64 := by
    have := hf.size
    rw [hf.layout] at this
    omega
  constructor
  · intro h
    by_contra hnone
    have hflip : ∀ m v, f.flip m v ≠ none := by
      intro m v heq
      have := h.involution m v
      rw [heq] at this
      cases this
    rcases flip_of_empty hf (by omega) with heq | heq
    · exact hflip _ _ heq
    · exact hflip _ _ heq
  · rintro ⟨hw, hh⟩
    obtain ⟨p, hp⟩ := exists_picture hf
    rw [hp]
    exact dihedralLaws_frame hw hh hsize

/-- A frame of two columns and two rows. -/
theorem dihedralLaws_square :
    DihedralLaws { width := 2, height := 2, data := [1, 2, 3, 4, 5, 6] } :=
  (dihedralLaws_iff { width := 2, height := 2, data := [1, 2, 3, 4, 5, 6] }
    ⟨by decide, by decide⟩).2 (by decide)

/-- A frame of two rows without columns: flipping it takes chunks of nothing. -/
theorem not_dihedralLaws_empty :
    Yuv420p.WellFormed { width := 0, height := 2, data := [] } ∧
      ¬DihedralLaws { width := 0, height := 2, data := [] } := by
  refine ⟨⟨by decide, by decide⟩, fun h => ?_⟩
  have hnone : Yuv420p.flip { width := 0, height := 2, data := [] } true false = none := by decide
  have hlaw := h.involution true false
  rw [hnone] at hlaw
  cases hlaw

end Convert

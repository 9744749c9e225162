/-
**Rasters.**

A raster has a value for each row and each column of a rectangle.  It can be flipped and turned by a
quarter; these motions compose as those of a rectangle do.  In memory a raster is the list of its rows,
one after the other, so that the value of a row and a column is at the index of the row times the width
plus the column.

Main definitions:

* `Raster.Grid` — a rectangle of values;
* `Raster.flip`, `Raster.turn` — the motions;
* `Raster.rows`, `Raster.toList` — a raster in memory.

Main results:

* `Raster.turn_turn`, `Raster.turn_twice`, `Raster.flip_flip`, `Raster.turn_mirror` — **the motions
  compose as those of a rectangle**;
* `Raster.exists_eq_toList` — a list of the right length is a raster;
* `Raster.eq_toList` — a list is told by the values of rows and columns;
* `Raster.rows_flip` — a flip in terms of rows.
-/

import Mathlib.Data.List.OfFn
import Mathlib.Logic.Equiv.Fin.Basic

set_option relaxedAutoImplicit false
set_option autoImplicit false

namespace Raster

universe u

/-! ### Motions -/

/-- A value for each of `h` rows and each of `w` columns. -/
abbrev Grid (α : Type u) (h w : ℕ) : Type u := Fin h → Fin w → α

variable {α : Type u} {h w : ℕ}

/-- A raster with its columns, its rows or both in opposite order. -/
def flip (mirror upsideDown : Bool) (p : Grid α h w) : Grid α h w := fun y x =>
  p (if upsideDown then y.rev else y) (if mirror then x.rev else x)

/-- A quarter turn: clockwise the first row becomes the last column. -/
def turn (clockwise : Bool) (p : Grid α h w) : Grid α w h := fun y x =>
  if clockwise then p x.rev y else p x y.rev

theorem flip_flip (m v : Bool) (p : Grid α h w) : flip m v (flip m v p) = p := by
  funext y x
  cases m <;> cases v <;> simp [flip]

/-- A turn and the turn in the other direction. -/
theorem turn_turn (c : Bool) (p : Grid α h w) : turn (!c) (turn c p) = p := by
  funext y x
  cases c <;> simp [turn]

/-- Two turns are a half turn. -/
theorem turn_twice (c : Bool) (p : Grid α h w) : turn c (turn c p) = flip true true p := by
  funext y x
  cases c <;> rfl

/-- A turn makes columns of rows. -/
theorem turn_mirror (c : Bool) (p : Grid α h w) :
    turn c (flip true false p) = flip false true (turn c p) := by
  funext y x
  cases c <;> simp [turn, flip]

/-! ### Rows and columns of a list -/

theorem index_lt {y x : ℕ} (hy : y < h) (hx : x < w) : y * w + x < h * w := by
  calc
    y * w + x < y * w + w := Nat.add_lt_add_left hx _
    _ = (y + 1) * w := (Nat.succ_mul y w).symm
    _ ≤ h * w := Nat.mul_le_mul_right w hy

theorem divNat_index (y : Fin h) (x : Fin w) (hlt : y.1 * w + x.1 < h * w) :
    Fin.divNat ⟨y.1 * w + x.1, hlt⟩ = y := by
  have hw : 0 < w := Nat.lt_of_le_of_lt (Nat.zero_le x.1) x.2
  apply Fin.ext
  change (y.1 * w + x.1) / w = y.1
  rw [Nat.mul_comm, Nat.mul_add_div hw, Nat.div_eq_of_lt x.2, Nat.add_zero]

theorem modNat_index (y : Fin h) (x : Fin w) (hlt : y.1 * w + x.1 < h * w) :
    Fin.modNat ⟨y.1 * w + x.1, hlt⟩ = x := by
  apply Fin.ext
  change (y.1 * w + x.1) % w = x.1
  rw [Nat.mul_comm, Nat.mul_add_mod, Nat.mod_eq_of_lt x.2]

theorem index_inj {y x v u : ℕ} (hx : x < w) (hu : u < w) (heq : y * w + x = v * w + u) :
    y = v ∧ x = u := by
  have hw : 0 < w := Nat.lt_of_le_of_lt (Nat.zero_le x) hx
  have hy : y = v := by
    have hdiv : (y * w + x) / w = (v * w + u) / w := by rw [heq]
    rwa [Nat.mul_comm y, Nat.mul_comm v, Nat.mul_add_div hw, Nat.mul_add_div hw, Nat.div_eq_of_lt hx,
      Nat.div_eq_of_lt hu, Nat.add_zero, Nat.add_zero] at hdiv
  rw [hy] at heq
  exact ⟨hy, Nat.add_left_cancel heq⟩

theorem exists_index {i : ℕ} (hi : i < h * w) : ∃ y x, y < h ∧ x < w ∧ i = y * w + x := by
  have hw : 0 < w := Nat.pos_of_mul_pos_left (Nat.lt_of_le_of_lt (Nat.zero_le i) hi)
  refine ⟨i / w, i % w, Nat.div_lt_of_lt_mul (Nat.mul_comm h w ▸ hi), Nat.mod_lt i hw, ?_⟩
  rw [Nat.mul_comm, Nat.div_add_mod]

/-! ### A raster in memory -/

/-- The rows of a raster. -/
def rows (p : Grid α h w) : List (List α) := List.ofFn fun y => List.ofFn (p y)

/-- A raster in memory, one row after the other. -/
def toList (p : Grid α h w) : List α := (rows p).flatten

theorem length_rows (p : Grid α h w) : (rows p).length = h := List.length_ofFn

theorem length_of_mem_rows {p : Grid α h w} {r : List α} (hr : r ∈ rows p) : r.length = w := by
  obtain ⟨y, rfl⟩ := List.mem_ofFn.1 hr
  exact List.length_ofFn

theorem toList_eq_ofFn (p : Grid α h w) :
    toList p = List.ofFn fun i : Fin (h * w) => p i.divNat i.modNat := by
  rw [List.ofFn_mul, toList, rows]
  congr 2
  funext y
  congr 1
  funext x
  rw [divNat_index, modNat_index]

@[simp] theorem length_toList (p : Grid α h w) : (toList p).length = h * w := by
  rw [toList_eq_ofFn, List.length_ofFn]

theorem getElem?_toList (p : Grid α h w) (y : Fin h) (x : Fin w) :
    (toList p)[y.1 * w + x.1]? = some (p y x) := by
  rw [toList_eq_ofFn, List.getElem?_ofFn, dif_pos (index_lt y.2 x.2), divNat_index,
    modNat_index]

/-- A list is told by the values of rows and columns. -/
theorem eq_toList {l : List α} {p : Grid α h w} (hlength : l.length = h * w)
    (hget : ∀ (y : Fin h) (x : Fin w), l[y.1 * w + x.1]? = some (p y x)) : l = toList p := by
  apply List.ext_getElem?
  intro i
  by_cases hi : i < h * w
  · obtain ⟨y, x, hy, hx, rfl⟩ := exists_index hi
    rw [hget ⟨y, hy⟩ ⟨x, hx⟩]
    exact (getElem?_toList p ⟨y, hy⟩ ⟨x, hx⟩).symm
  · rw [List.getElem?_eq_none (by omega), List.getElem?_eq_none (by rw [length_toList]; omega)]

/-- **A list of the right length is a raster.** -/
theorem exists_eq_toList {l : List α} (hlength : l.length = h * w) :
    ∃ p : Grid α h w, l = toList p := by
  have hlt : ∀ (y : Fin h) (x : Fin w), y.1 * w + x.1 < l.length := by
    intro y x
    rw [hlength]
    exact index_lt y.2 x.2
  exact ⟨fun y x => l.get ⟨y.1 * w + x.1, hlt y x⟩, eq_toList hlength fun y x =>
    List.getElem?_eq_getElem (hlt y x)⟩

/-! ### Flips of rows -/

theorem reverse_ofFn {β : Type u} {n : ℕ} (f : Fin n → β) :
    (List.ofFn f).reverse = List.ofFn fun i => f i.rev := by
  apply List.ext_getElem
  · rw [List.length_reverse, List.length_ofFn, List.length_ofFn]
  · intro i h1 h2
    rw [List.getElem_reverse, List.getElem_ofFn, List.getElem_ofFn]
    congr 1
    apply Fin.ext
    simp only [List.length_ofFn, Fin.val_rev]
    omega

/-- **A flip in terms of rows.** -/
theorem rows_flip (m v : Bool) (p : Grid α h w) :
    rows (flip m v p) =
      ((if v then (rows p).reverse else rows p).map fun r => if m then r.reverse else r) := by
  have hmirror : ∀ r : Fin w → α, (if m then (List.ofFn r).reverse else List.ofFn r) =
      List.ofFn fun x => r (if m then x.rev else x) := by
    intro r
    cases m with
    | true => exact reverse_ofFn r
    | false => rfl
  cases v with
  | true =>
      rw [if_pos rfl, rows, rows, reverse_ofFn, List.map_ofFn]
      congr 1
      funext y
      exact (hmirror _).symm
  | false =>
      rw [if_neg (by decide), rows, rows, List.map_ofFn]
      congr 1
      funext y
      exact (hmirror _).symm

end Raster

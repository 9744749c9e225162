/-
**Tables that are stored row by row.**

The rows of a table have one length, and stand one behind the other, so the place of an entry is
computed from its row and its column.  Entries that are encoded with one width each have places in the
bytes in the same way.

Main definitions:

* `RowMajor.tabulate` — the table of the entries at the places of its rows and columns.

Main results:

* `RowMajor.getElem?_flatten` — an entry of a table is at its place in the list of all entries;
* `RowMajor.tabulate_flatten` — a table is read back from its places;
* `RowMajor.take_drop_flatMap` — an encoded entry is at its place in the bytes;
* `RowMajor.mapM_eq_some`, `RowMajor.mapM_eq_none` — computations of all entries, of which one may fail.
-/

import Mathlib.Algebra.Order.Ring.Nat
import Mathlib.Data.List.Basic
import Mathlib.Tactic.Ring

set_option relaxedAutoImplicit false
set_option autoImplicit false

namespace RowMajor

variable {α β : Type}

/-! ### Places -/

/-- The place of an entry is within the table. -/
theorem place_lt {rows cols r c : ℕ} (hr : r < rows) (hc : c < cols) : r * cols + c < rows * cols :=
  calc r * cols + c < r * cols + cols := by omega
    _ = (r + 1) * cols := by ring
    _ ≤ rows * cols := Nat.mul_le_mul_right cols hr

/-- A place within the table is that of an entry. -/
theorem exists_place {rows cols k : ℕ} (h : k < rows * cols) :
    ∃ r c, r < rows ∧ c < cols ∧ r * cols + c = k := by
  have hcols : 0 < cols := Nat.pos_of_ne_zero fun h0 => by simp [h0] at h
  exact ⟨k / cols, k % cols, Nat.div_lt_of_lt_mul (by rwa [Nat.mul_comm]), Nat.mod_lt k hcols,
    Nat.div_add_mod' k cols⟩

/-! ### Tables -/

/-- The table of the entries at the places of its rows and columns. -/
def tabulate (rows cols : ℕ) (entry : ℕ → α) : List (List α) :=
  (List.range rows).map fun r => (List.range cols).map fun c => entry (r * cols + c)

/-- An entry of a table is at its place in the list of all entries. -/
theorem getElem?_flatten {e : List (List α)} {cols : ℕ} (h : ∀ v ∈ e, v.length = cols) (r : ℕ)
    {c : ℕ} (hc : c < cols) : e.flatten[r * cols + c]? = e[r]?.bind fun v => v[c]? := by
  induction e generalizing r with
  | nil => rfl
  | cons v e ih =>
      have hv : v.length = cols := h v List.mem_cons_self
      cases r with
      | zero =>
          rw [Nat.zero_mul, Nat.zero_add, List.flatten_cons, List.getElem?_append_left (hv ▸ hc)]
          rfl
      | succ r =>
          have hplace : (r + 1) * cols + c = v.length + (r * cols + c) := by rw [hv]; ring
          rw [hplace, List.flatten_cons, List.getElem?_append_right (Nat.le_add_right _ _),
            Nat.add_sub_cancel_left, ih fun w hw => h w (List.mem_cons_of_mem v hw)]
          rfl

/-- A table has as many entries as its rows have. -/
theorem length_flatten {e : List (List α)} {cols : ℕ} (h : ∀ v ∈ e, v.length = cols) :
    e.flatten.length = e.length * cols := by
  induction e with
  | nil => simp
  | cons v e ih =>
      rw [List.flatten_cons, List.length_append, h v List.mem_cons_self,
        ih fun w hw => h w (List.mem_cons_of_mem v hw), List.length_cons]
      ring

/-- A table is read back from its places. -/
theorem tabulate_flatten {e : List (List α)} {cols : ℕ} (h : ∀ v ∈ e, v.length = cols)
    {entry : ℕ → α} (hentry : ∀ k a, e.flatten[k]? = some a → entry k = a) :
    tabulate e.length cols entry = e := by
  refine List.ext_getElem (by simp [tabulate]) fun r hr hr' => ?_
  simp only [tabulate, List.getElem_map, List.getElem_range]
  have hlen : e[r].length = cols := h _ (List.getElem_mem hr')
  refine List.ext_getElem (by simp [hlen]) fun c hc hc' => ?_
  rw [List.getElem_map, List.getElem_range]
  refine hentry _ _ ?_
  rw [getElem?_flatten h r (hlen ▸ hc'), List.getElem?_eq_getElem hr', Option.bind_some,
    List.getElem?_eq_getElem hc']

/-! ### Encoded entries -/

/-- The bytes of encoded entries. -/
theorem length_flatMap {w : ℕ} {enc : α → List β} (henc : ∀ a, (enc a).length = w) (l : List α) :
    (l.flatMap enc).length = l.length * w := by
  induction l with
  | nil => simp
  | cons x l ih =>
      rw [List.flatMap_cons, List.length_append, henc, ih, List.length_cons]
      ring

/-- An encoded entry is at its place in the bytes. -/
theorem take_drop_flatMap {w : ℕ} {enc : α → List β} (henc : ∀ a, (enc a).length = w) {l : List α}
    {k : ℕ} {a : α} (hk : l[k]? = some a) : ((l.flatMap enc).drop (k * w)).take w = enc a := by
  induction l generalizing k with
  | nil => simp at hk
  | cons x l ih =>
      cases k with
      | zero =>
          obtain rfl : x = a := by simpa using hk
          rw [Nat.zero_mul, List.drop_zero, List.flatMap_cons, ← henc x, List.take_left]
      | succ k =>
          have hplace : (k + 1) * w = (enc x).length + k * w := by rw [henc x]; ring
          rw [hplace, List.flatMap_cons, List.drop_append, List.drop_of_length_le (by omega),
            List.nil_append, Nat.add_sub_cancel_left]
          exact ih (by simpa using hk)

/-! ### Computations that may fail -/

/-- What is computed of all entries, where each can be. -/
theorem mapM_eq_some {f : α → Option β} {g : α → β} {l : List α} (h : ∀ a ∈ l, f a = some (g a)) :
    l.mapM f = some (l.map g) := by
  induction l with
  | nil => rfl
  | cons a l ih =>
      rw [List.mapM_cons, h a List.mem_cons_self, ih fun b hb => h b (List.mem_cons_of_mem a hb)]
      rfl

/-- What is not computed because of one entry. -/
theorem mapM_eq_none {f : α → Option β} {l : List α} {a : α} (ha : a ∈ l) (h : f a = none) :
    l.mapM f = none := by
  induction l with
  | nil => cases ha
  | cons b l ih =>
      rw [List.mapM_cons]
      rcases List.mem_cons.mp ha with rfl | ha
      · rw [h]
        rfl
      · rw [ih ha]
        cases f b <;> rfl

end RowMajor

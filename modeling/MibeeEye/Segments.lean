/-
**The places of segments.**

Segments are laid out one after another behind a first part.  Each begins where those before it end.

Main definitions:

* `Segments.starts` — where the segments begin.

Main results:

* `Segments.getElem?_starts` — a segment begins behind those before it;
* `Segments.drop_start` — **what is at the beginning of a segment**;
* `Segments.starts_lt_iff` — where the last one begins;
* `Segments.pairwise_starts` — segments that are not empty begin at different places, in order.
-/

import Mathlib.Data.List.Basic
import Mathlib.Algebra.Order.Ring.Nat

set_option relaxedAutoImplicit false
set_option autoImplicit false

namespace Segments

variable {α : Type} {ss : List (List α)} {s : List α} {n m i : ℕ}

/-- Where segments begin, the first one at `n`. -/
@[grind =] def starts (n : ℕ) : List (List α) → List ℕ
  | [] => []
  | s :: ss => n :: starts (n + s.length) ss

@[simp] theorem length_starts (n : ℕ) (ss : List (List α)) : (starts n ss).length = ss.length := by
  induction ss generalizing n with
  | nil => rfl
  | cons s ss ih => rw [starts, List.length_cons, ih, List.length_cons]

/-- A segment begins behind those before it. -/
theorem getElem?_starts (n i : ℕ) (ss : List (List α)) :
    (starts n ss)[i]? = ss[i]?.map fun _ => n + (ss.take i).flatten.length := by
  induction ss generalizing n i with
  | nil => rfl
  | cons s ss ih =>
      cases i with
      | zero => rfl
      | succ i =>
          rw [starts, List.getElem?_cons_succ, ih, List.getElem?_cons_succ, List.take_succ_cons,
            List.flatten_cons, List.length_append, Nat.add_assoc]

theorem le_of_mem_starts (h : m ∈ starts n ss) : n ≤ m := by
  induction ss generalizing n with
  | nil => cases h
  | cons s ss ih =>
      rcases List.mem_cons.1 h with rfl | h
      · exact Nat.le_refl _
      · exact Nat.le_trans (Nat.le_add_right n s.length) (ih h)

/-- **Segments that are not empty begin at different places, in order.** -/
theorem pairwise_starts (h : ∀ s ∈ ss, s ≠ []) : (starts n ss).Pairwise (· < ·) := by
  induction ss generalizing n with
  | nil => exact List.Pairwise.nil
  | cons s ss ih =>
      refine List.pairwise_cons.2 ⟨?_, ih fun s' hs' => h s' (List.mem_cons_of_mem s hs')⟩
      intro m hm
      have hpos : 0 < s.length := List.length_pos_iff.2 (h s List.mem_cons_self)
      have hle := le_of_mem_starts hm
      omega

/-- **What is at the beginning of a segment.** -/
theorem drop_start (pre : List α) (h : ss[i]? = some s) (post : List α) :
    (pre ++ ss.flatten ++ post).drop (pre.length + (ss.take i).flatten.length) =
      s ++ (ss.drop (i + 1)).flatten ++ post := by
  have hsplit : ss = ss.take i ++ s :: ss.drop (i + 1) := by
    obtain ⟨hi, rfl⟩ := List.getElem?_eq_some_iff.1 h
    rw [← List.drop_eq_getElem_cons hi, List.take_append_drop]
  have hflat : ss.flatten = (ss.take i).flatten ++ (s ++ (ss.drop (i + 1)).flatten) := by
    conv_lhs => rw [hsplit]
    rw [List.flatten_append, List.flatten_cons]
  rw [hflat, ← List.append_assoc pre, List.append_assoc (pre ++ (ss.take i).flatten)]
  exact List.drop_left' List.length_append

/-- All segments begin before a place if the last one does. -/
theorem starts_lt_iff (h : ss ≠ []) :
    (∀ k ∈ starts n ss, k < m) ↔ n + ss.dropLast.flatten.length < m := by
  induction ss generalizing n with
  | nil => exact absurd rfl h
  | cons s ss ih =>
      cases ss with
      | nil => simp [starts]
      | cons s' ss =>
          rw [starts, List.forall_mem_cons, ih (List.cons_ne_nil _ _), List.dropLast_cons_cons,
            List.flatten_cons, List.length_append, Nat.add_assoc]
          exact and_iff_right_of_imp fun hlt => Nat.lt_of_le_of_lt (Nat.le_add_right n _) hlt

/-- What is at the beginning of the last segment. -/
theorem drop_last_start (pre : List α) (h : ss.getLast? = some s) (post : List α) :
    (pre ++ ss.flatten ++ post).drop (pre.length + ss.dropLast.flatten.length) = s ++ post := by
  have hlast : ss[ss.length - 1]? = some s := by rw [← List.getLast?_eq_getElem?, h]
  have hrest : ss.drop (ss.length - 1 + 1) = [] := List.drop_eq_nil_of_le (by omega)
  rw [List.dropLast_eq_take, drop_start pre hlast post, hrest, List.flatten_nil, List.append_nil]

/-- The next segment begins where this one ends. -/
theorem length_take_succ (h : ss[i]? = some s) :
    (ss.take (i + 1)).flatten.length = (ss.take i).flatten.length + s.length := by
  rw [List.take_add_one, h, Option.toList_some, List.flatten_append, List.length_append,
    List.flatten_singleton]

end Segments

/-
**The whole blocks of a list, and the rest.**

A function that consumes its input in blocks of one size sees a list as its whole blocks and a rest
that is shorter than a block.  When more is appended, the blocks that are there stay, and the rest is
what the new ones begin with.

Main definitions:

* `Wire.Block` — a list of one length;
* `Wire.blocks`, `Wire.rest` — the whole blocks of a list, and what is left behind them.

Main results:

* `Wire.blocks_append`, `Wire.rest_append` — **more is appended to the rest**;
* `Wire.blocks_block_append` — a block in front is the first of the blocks.
-/

import Mathlib.Algebra.Order.Ring.Nat

set_option relaxedAutoImplicit false
set_option autoImplicit false

namespace Wire

variable {α : Type} {n : ℕ}

/-- A list of length `n`. -/
abbrev Block (α : Type) (n : ℕ) : Type := { l : List α // l.length = n }

/-- The whole blocks of length `n` that a list begins with. -/
def blocks (n : ℕ) (l : List α) : List (Block α n) :=
  if h : 0 < n ∧ n ≤ l.length then
    ⟨l.take n, by rw [List.length_take]; omega⟩ :: blocks n (l.drop n)
  else []
termination_by l.length
decreasing_by
  rw [List.length_drop]
  omega

/-- What is left behind the whole blocks. -/
def rest (n : ℕ) (l : List α) : List α :=
  if 0 < n ∧ n ≤ l.length then rest n (l.drop n) else l
termination_by l.length
decreasing_by
  rw [List.length_drop]
  omega

theorem blocks_of_lt {l : List α} (h : l.length < n) : blocks n l = [] := by
  rw [blocks, dif_neg (by omega)]

theorem rest_of_lt {l : List α} (h : l.length < n) : rest n l = l := by
  rw [rest, if_neg (by omega)]

/-- A block in front is the first of the blocks. -/
theorem blocks_block_append (hn : 0 < n) (b : Block α n) (l : List α) :
    blocks n (b.1 ++ l) = b :: blocks n l := by
  have hb := b.2
  have hlen : 0 < n ∧ n ≤ (b.1 ++ l).length := by
    rw [List.length_append]
    omega
  rw [blocks, dif_pos hlen, List.drop_left' hb]
  exact congrArg (· :: blocks n l) (Subtype.ext (List.take_left' hb))

theorem rest_block_append (hn : 0 < n) (b : Block α n) (l : List α) :
    rest n (b.1 ++ l) = rest n l := by
  have hb := b.2
  rw [rest, if_pos (by rw [List.length_append]; omega), List.drop_left' hb]

/-- Induction along the blocks: a list that is shorter than one, and a block before a list. -/
theorem blocks_induction (hn : 0 < n) {P : List α → Prop} (short : ∀ l, l.length < n → P l)
    (block : ∀ (b : Block α n) (l : List α), P l → P (b.1 ++ l)) : ∀ l, P l := by
  intro l
  induction h : l.length using Nat.strong_induction_on generalizing l with
  | _ k ih =>
      subst h
      rcases Nat.lt_or_ge l.length n with hlt | hge
      · exact short l hlt
      · have hrest := ih (l.drop n).length (by rw [List.length_drop]; omega) _ rfl
        have hl := block ⟨l.take n, List.length_take_of_le hge⟩ _ hrest
        rwa [List.take_append_drop] at hl

theorem length_rest (hn : 0 < n) (l : List α) : (rest n l).length = l.length % n := by
  induction l using blocks_induction hn with
  | short l h => rw [rest_of_lt h, Nat.mod_eq_of_lt h]
  | block b l ih => rw [rest_block_append hn, ih, List.length_append, b.2, Nat.add_mod_left]

theorem length_rest_lt (hn : 0 < n) (l : List α) : (rest n l).length < n := by
  rw [length_rest hn]
  exact Nat.mod_lt _ hn

/-- **More is appended to the rest.** -/
theorem blocks_append (hn : 0 < n) (l l' : List α) :
    blocks n (l ++ l') = blocks n l ++ blocks n (rest n l ++ l') := by
  induction l using blocks_induction hn with
  | short l h => rw [blocks_of_lt h, rest_of_lt h, List.nil_append]
  | block b l ih =>
      rw [List.append_assoc, blocks_block_append hn, blocks_block_append hn, rest_block_append hn,
        ih, List.cons_append]

theorem rest_append (hn : 0 < n) (l l' : List α) : rest n (l ++ l') = rest n (rest n l ++ l') := by
  induction l using blocks_induction hn with
  | short l h => rw [rest_of_lt h]
  | block b l ih => rw [List.append_assoc, rest_block_append hn, rest_block_append hn, ih]

end Wire

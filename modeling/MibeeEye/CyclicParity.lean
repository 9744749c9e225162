/-
**Parities around a closed walk.**

A closed walk is a list of points, of which the last is followed by the first; a predicate of pairs is
evaluated on its edges, and the parity of those that satisfy it is taken.  The parity does not depend
on where the walk begins; nor on its direction, where the predicate is symmetric; and a point can be
inserted on an edge that satisfies it just if one of its two parts does.

Main definitions:

* `Parity.path`, `Parity.cycle` — the parity along a walk, and around a closed one.

Main results:

* `Parity.cycle_rotate`, `Parity.cycle_reverse` — **another beginning, another direction**;
* `Parity.cycle_insert` — **another point**.
-/

import Mathlib.Data.List.Rotate

set_option relaxedAutoImplicit false
set_option autoImplicit false

namespace Parity

variable {α : Type} (f : α → α → Bool)

/-- The parity along a walk, from a point before it. -/
@[grind =] def path : α → List α → Bool
  | _, [] => false
  | p, q :: l => f p q ^^ path q l

/-- The parity around a closed walk. -/
@[grind =] def cycle : List α → Bool
  | [] => false
  | p :: l => path f (l.getLastD p) (p :: l)

variable {f}

theorem path_append (p : α) (l l' : List α) :
    path f p (l ++ l') = (path f p l ^^ path f (l.getLastD p) l') := by
  induction l generalizing p with
  | nil => exact (Bool.false_xor _).symm
  | cons q l ih => rw [List.cons_append, path, ih, path, Bool.xor_assoc, List.getLastD_cons]

theorem cycle_concat (l : List α) (p : α) : cycle f (l ++ [p]) = path f p (l ++ [p]) := by
  cases l with
  | nil => rfl
  | cons q l => rw [List.cons_append, cycle, List.getLastD_concat]

/-- The walk begins one point later. -/
theorem cycle_cons (p : α) (l : List α) : cycle f (p :: l) = cycle f (l ++ [p]) := by
  rw [cycle_concat, path_append, cycle, path, path, path, Bool.xor_false, Bool.xor_comm]

theorem cycle_append_comm (l l' : List α) : cycle f (l ++ l') = cycle f (l' ++ l) := by
  induction l generalizing l' with
  | nil => rw [List.nil_append, List.append_nil]
  | cons p l ih =>
      rw [List.cons_append, cycle_cons, List.append_assoc, ih, List.append_assoc,
        List.singleton_append]

/-- **Another beginning.** -/
theorem cycle_rotate (l : List α) (n : ℕ) : cycle f (l.rotate n) = cycle f l := by
  rw [List.rotate_eq_drop_append_take_mod, cycle_append_comm, List.take_append_drop]

theorem path_reverse (hf : ∀ p q, f p q = f q p) (p q : α) (l : List α) :
    path f p (l ++ [q]) = path f q (l.reverse ++ [p]) := by
  induction l generalizing p with
  | nil => rw [List.reverse_nil, List.nil_append, List.nil_append, path, path, path, path, hf]
  | cons a l ih =>
      rw [List.cons_append, path, ih, List.reverse_cons, path_append q (l.reverse ++ [a]) [p],
        List.getLastD_concat, path, path, Bool.xor_false, hf p a, Bool.xor_comm]

/-- **Another direction.** -/
theorem cycle_reverse (hf : ∀ p q, f p q = f q p) (l : List α) : cycle f l.reverse = cycle f l := by
  cases l with
  | nil => rfl
  | cons p l =>
      rw [List.reverse_cons, cycle_concat, cycle_cons, cycle_concat, path_reverse hf,
        List.reverse_reverse]

/-- **Another point**, between the last and the first. -/
theorem cycle_insert {p q m : α} {l : List α} (hlast : (q :: l).getLast? = some p)
    (hf : (f p m ^^ f m q) = f p q) : cycle f (m :: q :: l) = cycle f (q :: l) := by
  have hp : l.getLastD q = p := by
    rw [List.getLast?_cons, Option.some.injEq] at hlast
    rwa [List.getLastD_eq_getLast?]
  rw [cycle, cycle, List.getLastD_cons, hp, path, path, path, ← Bool.xor_assoc, hf]

end Parity

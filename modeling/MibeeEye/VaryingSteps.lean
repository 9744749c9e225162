/-
**Steps that grow with the number.**

A number can be told roughly by its leading bits: the leading one, `p` bits behind it, and how many there are
after those.  The numbers with the same leading bits make a step.  Steps are twice as wide from each power of
two on, so that the middle of a step differs from its numbers by a fixed part of them.

Main definitions:

* `Steps.width` — how wide the step of a number is;
* `Steps.floor`, `Steps.middle` — where its step begins, and the middle of it.

Main results:

* `Steps.lead_bounds` — the leading bits of a number;
* `Steps.middle_near` — **how far a number is from the middle of its step**;
* `Steps.middle_mono` — a greater number has no smaller middle.
-/

import Mathlib.Data.Nat.Log
import Mathlib.Tactic.Ring

set_option relaxedAutoImplicit false
set_option autoImplicit false

namespace Steps

variable {p n m : ℕ}

/-- How wide the step of a number is: `p` bits behind the leading one are kept. -/
def width (p n : ℕ) : ℕ := 2 ^ (Nat.log 2 n - p)

/-- Where the step of a number begins. -/
def floor (p n : ℕ) : ℕ := n / width p n * width p n

/-- The middle of the step of a number. -/
def middle (p n : ℕ) : ℕ := floor p n + width p n / 2

theorem width_pos (p n : ℕ) : 0 < width p n := Nat.two_pow_pos _

/-- A number is in its step. -/
theorem floor_le (p n : ℕ) : floor p n ≤ n := Nat.div_mul_le_self n (width p n)

theorem lt_floor_add (p n : ℕ) : n < floor p n + width p n := Nat.lt_div_mul_add (width_pos p n)

theorem pow_mul_width (h : p ≤ Nat.log 2 n) : 2 ^ p * width p n = 2 ^ Nat.log 2 n := by
  rw [width, ← Nat.pow_add, Nat.add_sub_cancel' h]

/-- **The leading bits of a number.** -/
theorem lead_bounds (hn : n ≠ 0) (h : p ≤ Nat.log 2 n) :
    2 ^ p ≤ n / width p n ∧ n / width p n < 2 ^ (p + 1) := by
  constructor
  · rw [Nat.le_div_iff_mul_le (width_pos p n), pow_mul_width h]
    exact Nat.pow_log_le_self 2 hn
  · rw [Nat.div_lt_iff_lt_mul (width_pos p n), Nat.pow_succ, Nat.mul_right_comm, pow_mul_width h,
      ← Nat.pow_succ]
    exact Nat.lt_pow_succ_log_self Nat.one_lt_two n

/-- A step lies between two powers of two. -/
theorem floor_bounds (hn : n ≠ 0) (h : p ≤ Nat.log 2 n) :
    2 ^ Nat.log 2 n ≤ floor p n ∧ floor p n + width p n ≤ 2 ^ (Nat.log 2 n + 1) := by
  obtain ⟨hle, hlt⟩ := lead_bounds hn h
  constructor
  · rw [← pow_mul_width h]
    exact Nat.mul_le_mul_right _ hle
  · have hsucc := Nat.mul_le_mul_right (width p n) (Nat.succ_le_of_lt hlt)
    rw [Nat.succ_mul, Nat.pow_succ, Nat.mul_right_comm, pow_mul_width h, ← Nat.pow_succ] at hsucc
    exact hsucc

/-- Steps are of even width. -/
theorem half_width (h : p < Nat.log 2 n) : width p n / 2 * 2 = width p n := by
  rw [width, ← Nat.sub_add_cancel (Nat.sub_pos_of_lt h), Nat.pow_succ, Nat.mul_div_cancel _ Nat.two_pos]

/-- **How far a number is from the middle of its step**: by half a step at most, which is a fixed part of the
number. -/
theorem middle_near (hn : n ≠ 0) (h : p < Nat.log 2 n) :
    n < middle p n + width p n / 2 ∧ middle p n ≤ n + width p n / 2 ∧
      2 ^ (p + 1) * (width p n / 2) ≤ n := by
  have hfloor := floor_le p n
  have hlt := lt_floor_add p n
  have hhalf := half_width h
  refine ⟨?_, ?_, ?_⟩
  · rw [middle]
    omega
  · rw [middle]
    omega
  · rw [Nat.pow_succ, Nat.mul_assoc, Nat.mul_comm 2, hhalf, pow_mul_width h.le]
    exact Nat.pow_log_le_self 2 hn

/-- A greater number has no smaller middle. -/
theorem middle_mono (hn : n ≠ 0) (h : p ≤ Nat.log 2 n) (hle : n ≤ m) : middle p n ≤ middle p m := by
  rcases Nat.lt_or_eq_of_le (Nat.log_mono_right (b := 2) hle) with hlog | hlog
  · -- the step of the greater one begins behind a power of two, and the other ends before it
    have hm : m ≠ 0 := fun hm => hn (Nat.le_zero.1 (hm ▸ hle))
    have hn' := (floor_bounds hn h).2
    have hm' := (floor_bounds hm (h.trans hlog.le)).1
    have hpow := Nat.pow_le_pow_right Nat.two_pos hlog
    rw [middle, middle]
    omega
  · have hwidth : width p n = width p m := by rw [width, width, hlog]
    have hfloor : floor p n ≤ floor p m := by
      rw [floor, floor, hwidth]
      exact Nat.mul_le_mul_right _ (Nat.div_le_div_right hle)
    rw [middle, middle, hwidth]
    omega

end Steps

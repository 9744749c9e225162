/-
**Fixed-width arithmetic of a program that is built in one of two ways.**

An operation of fixed-width numbers whose result is too large panics in a build that checks for
overflow, and wraps round in one that does not.  What is proved for both builds does not depend on the
flag.

Main definitions:

* `Build`, `Build.result` — the result of an operation, by what it is in the natural numbers;
* `saturated` — the result of an operation that saturates.

Main results:

* `Build.result_eq_self_iff` — **an operation has the right result exactly where that fits**;
* `Build.le_of_result`, `Build.add_le_of_result` — and a smaller one otherwise;
* `Build.eq_of_result` — in a build that checks it has no other;
* `Build.result_bind_mul` — a product of results is the result of the product.
-/

import Mathlib.Data.Nat.Basic
import Mathlib.Algebra.Order.Ring.Nat

set_option relaxedAutoImplicit false
set_option autoImplicit false

namespace FixedWidth

/-- What a build does where an operation overflows. -/
inductive Build
  /-- it panics -/
  | checked
  /-- it wraps round -/
  | wrapping
  deriving DecidableEq

/-- The result of an operation of unsigned numbers of `w` bits; `none` is a panic. -/
def Build.result (b : Build) (w n : ℕ) : Option ℕ :=
  if n < 2 ^ w then some n
  else
    match b with
    | .checked => none
    | .wrapping => some (n % 2 ^ w)

/-- The result of an operation that saturates. -/
def saturated (w n : ℕ) : ℕ := min n (2 ^ w - 1)

variable {b : Build} {w n m : ℕ}

theorem Build.result_eq (h : n < 2 ^ w) : b.result w n = some n := if_pos h

/-- No result is larger than it should be. -/
theorem Build.le_of_result (h : b.result w n = some m) : m ≤ n := by
  unfold Build.result at h
  split at h
  · exact (Option.some.inj h).ge
  · cases b with
    | checked => cases h
    | wrapping => exact Option.some.inj h ▸ Nat.mod_le n _

/-- A result has the width. -/
theorem Build.lt_of_result (h : b.result w n = some m) : m < 2 ^ w := by
  unfold Build.result at h
  split at h
  · next hn => exact Option.some.inj h ▸ hn
  · cases b with
    | checked => cases h
    | wrapping => exact Option.some.inj h ▸ Nat.mod_lt n (Nat.two_pow_pos w)

/-- **An operation has the right result exactly where that fits.** -/
theorem Build.result_eq_self_iff : b.result w n = some n ↔ n < 2 ^ w :=
  ⟨Build.lt_of_result, Build.result_eq⟩

/-- A result that wraps round is less by the width at least. -/
theorem Build.add_le_of_result (h : b.result w n = some m) (hn : 2 ^ w ≤ n) : m + 2 ^ w ≤ n := by
  unfold Build.result at h
  rw [if_neg (Nat.not_lt.2 hn)] at h
  cases b with
  | checked => cases h
  | wrapping =>
      have hdiv := Nat.div_pos hn (Nat.two_pow_pos w)
      have hsum := Nat.mod_add_div n (2 ^ w)
      have hle := Nat.le_mul_of_pos_right (2 ^ w) hdiv
      rw [Option.some.inj h] at hsum
      omega

/-- In a build that checks, or where it fits, a result is the right one. -/
theorem Build.eq_of_result (hb : b = .checked ∨ n < 2 ^ w) (h : b.result w n = some m) : m = n := by
  unfold Build.result at h
  split at h
  · exact (Option.some.inj h).symm
  · next hn =>
      rcases hb with rfl | hb
      · cases h
      · exact absurd hb hn

theorem Build.result_checked (h : 2 ^ w ≤ n) : Build.checked.result w n = none :=
  if_neg (Nat.not_lt.2 h)

theorem Build.result_wrapping : Build.wrapping.result w n = some (n % 2 ^ w) := by
  by_cases h : n < 2 ^ w
  · rw [Build.result_eq h, Nat.mod_eq_of_lt h]
  · exact if_neg h

/-- A result that is multiplied is the result of the product. -/
theorem Build.result_bind_mul {k : ℕ} (hk : 0 < k) :
    ((b.result w n).bind fun m => b.result w (m * k)) = b.result w (n * k) := by
  cases b with
  | wrapping => simp only [Build.result_wrapping, Option.bind_some, Nat.mod_mul_mod]
  | checked =>
      by_cases h : n < 2 ^ w
      · rw [Build.result_eq h, Option.bind_some]
      · have hn : 2 ^ w ≤ n := Nat.not_lt.1 h
        rw [Build.result_checked hn, Build.result_checked (hn.trans (Nat.le_mul_of_pos_right n hk)),
          Option.bind_none]

theorem saturated_le : saturated w n ≤ n := Nat.min_le_left _ _

theorem saturated_le_iff (hm : m < 2 ^ w - 1) : saturated w n ≤ m ↔ n ≤ m := by
  unfold saturated
  omega

theorem saturated_le_of_le (hm : 2 ^ w - 1 ≤ m) : saturated w n ≤ m :=
  (Nat.min_le_right _ _).trans hm

theorem saturated_eq (h : n < 2 ^ w) : saturated w n = n := by
  unfold saturated
  omega

end FixedWidth

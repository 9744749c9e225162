/-
**Floating-point numbers of 64 bits, by the rationals that they are.**

A number of the format binary64 is a rational with a significand of 53 bits, or fewer near zero.  An
operation gives the rational result rounded to the nearest such number, and to the one with the even
significand if two are as near.  What overflows is left out.

Main definitions:

* `Binary64.roundEven` — the nearest integer;
* `Binary64.ulp` — the distance of the numbers of the format about a rational;
* `Binary64.rnd` — the nearest number of the format.

Main results:

* `Binary64.rnd_eq_self` — **what has a significand of 53 bits is not rounded**;
* `Binary64.abs_rnd_sub_le` — **the relative error**;
* `Binary64.rnd_lt_rnd` — numbers that are far enough apart keep their order.
-/

import Mathlib.Algebra.Order.Floor.Semiring
import Mathlib.Data.Int.Log
import Mathlib.Data.Rat.Floor
import Mathlib.Tactic.Linarith
import Mathlib.Tactic.NormNum
import Mathlib.Tactic.Positivity
import Mathlib.Tactic.Ring

set_option relaxedAutoImplicit false
set_option autoImplicit false

namespace Binary64

/-! ### The nearest integer -/

/-- The nearest integer, and the even one of two. -/
def roundEven (q : ℚ) : ℤ :=
  if q - ⌊q⌋ < 1 / 2 then ⌊q⌋
  else if 1 / 2 < q - ⌊q⌋ then ⌊q⌋ + 1
  else if ⌊q⌋ % 2 = 0 then ⌊q⌋
  else ⌊q⌋ + 1

theorem roundEven_intCast (n : ℤ) : roundEven n = n := by
  rw [roundEven, Int.floor_intCast, sub_self, if_pos (by norm_num)]

theorem abs_roundEven_sub_le (q : ℚ) : |(roundEven q : ℚ) - q| ≤ 1 / 2 := by
  have hfloor := Int.floor_le q
  have hceil := Int.lt_floor_add_one q
  rw [abs_le, roundEven]
  split
  · constructor <;> linarith
  · split
    · push_cast
      constructor <;> linarith
    · split
      · constructor <;> linarith
      · push_cast
        constructor <;> linarith

/-! ### The nearest number -/

/-- The exponent of the last place of a significand. -/
def ulpExp (q : ℚ) : ℤ := max (Int.log 2 |q|) (-1022) - 52

/-- The distance of the numbers about a rational. -/
def ulp (q : ℚ) : ℚ := 2 ^ ulpExp q

/-- The nearest number. -/
def rnd (q : ℚ) : ℚ := roundEven (q / ulp q) * ulp q

theorem ulp_pos (q : ℚ) : 0 < ulp q := zpow_pos two_pos _

theorem abs_rnd_sub_le_ulp (q : ℚ) : |rnd q - q| ≤ ulp q / 2 := by
  have hpos := ulp_pos q
  have hdiff : rnd q - q = (roundEven (q / ulp q) - q / ulp q) * ulp q := by
    rw [sub_mul, div_mul_cancel₀ _ hpos.ne', rnd]
  calc |rnd q - q| = |roundEven (q / ulp q) - q / ulp q| * ulp q := by rw [hdiff, abs_mul, abs_of_pos hpos]
    _ ≤ 1 / 2 * ulp q := mul_le_mul_of_nonneg_right (abs_roundEven_sub_le _) hpos.le
    _ = ulp q / 2 := by ring

@[simp] theorem rnd_zero : rnd 0 = 0 := by
  have hround : roundEven 0 = 0 := roundEven_intCast 0
  rw [rnd, zero_div, hround, Int.cast_zero, zero_mul]

/-- A rational that is not rounded down to the least numbers. -/
def Normal (q : ℚ) : Prop := q = 0 ∨ 2 ^ (-1022 : ℤ) ≤ |q|

/-- **The relative error.** -/
theorem abs_rnd_sub_le {q : ℚ} (h : Normal q) : |rnd q - q| ≤ |q| / 2 ^ 53 := by
  rcases h with rfl | h
  · rw [rnd_zero, sub_zero, abs_zero, zero_div]
  · have hq : 0 < |q| := (zpow_pos two_pos _).trans_le h
    have hlog : -1022 ≤ Int.log 2 |q| := (Int.zpow_le_iff_le_log one_lt_two hq).1 h
    have hulp : ulp q ≤ |q| / 2 ^ 52 := by
      rw [ulp, ulpExp, max_eq_left hlog, zpow_sub₀ two_ne_zero]
      exact div_le_div_of_nonneg_right (Int.zpow_log_le_self one_lt_two hq) (by positivity)
    calc |rnd q - q| ≤ ulp q / 2 := abs_rnd_sub_le_ulp q
      _ ≤ |q| / 2 ^ 52 / 2 := by linarith
      _ = |q| / 2 ^ 53 := by rw [div_div]; norm_num

/-- The numbers about a rational with a significand of 53 bits are as near as its last place. -/
theorem ulpExp_le {m e : ℤ} (hm : |m| < 2 ^ 53) (hne : m ≠ 0) (he : -1074 ≤ e) :
    ulpExp (m * 2 ^ e) ≤ e := by
  have hpow : (0 : ℚ) < 2 ^ e := zpow_pos two_pos e
  have hpos : 0 < |(m * 2 ^ e : ℚ)| := abs_pos.2 (mul_ne_zero (Int.cast_ne_zero.2 hne) hpow.ne')
  have hsignificand : |(m : ℚ)| < 2 ^ 53 := by exact_mod_cast hm
  have hlt : |(m * 2 ^ e : ℚ)| < ((2 : ℕ) : ℚ) ^ (53 + e) := by
    rw [abs_mul, abs_of_pos hpow, Nat.cast_ofNat, zpow_add₀ two_ne_zero]
    exact mul_lt_mul_of_pos_right hsignificand hpow
  have hlog := (Int.lt_zpow_iff_log_lt one_lt_two hpos).1 hlt
  rw [ulpExp]
  omega

/-- **What has a significand of 53 bits is not rounded.** -/
theorem rnd_eq_self {m e : ℤ} (hm : |m| < 2 ^ 53) (he : -1074 ≤ e) :
    rnd (m * 2 ^ e) = m * 2 ^ e := by
  by_cases hne : m = 0
  · rw [hne, Int.cast_zero, zero_mul, rnd_zero]
  obtain ⟨k, hk⟩ := Int.eq_ofNat_of_zero_le (sub_nonneg.2 (ulpExp_le hm hne he))
  have hsplit : (2 : ℚ) ^ e = 2 ^ k * ulp (m * 2 ^ e) := by
    rw [ulp, ← zpow_natCast, ← zpow_add₀ two_ne_zero, ← hk, sub_add_cancel]
  have hquot : (m * 2 ^ e : ℚ) / ulp (m * 2 ^ e) = ((m * 2 ^ k : ℤ) : ℚ) := by
    rw [div_eq_iff (ulp_pos _).ne', Int.cast_mul, Int.cast_pow, Int.cast_ofNat, mul_assoc, ← hsplit]
  rw [rnd, hquot, roundEven_intCast, ← hquot, div_mul_cancel₀ _ (ulp_pos _).ne']

/-- An integer is not rounded. -/
theorem rnd_natCast {n : ℕ} (hn : n < 2 ^ 53) : rnd n = n := by
  have hexact := @rnd_eq_self n 0 (by simpa using hn) (by decide)
  simpa using hexact

/-- And half an integer is not. -/
theorem rnd_natCast_div_two {n : ℕ} (hn : n < 2 ^ 53) : rnd (n / 2) = n / 2 := by
  have hexact := @rnd_eq_self n (-1) (by simpa using hn) (by decide)
  simpa [div_eq_mul_inv] using hexact

/-- **Numbers that are far enough apart keep their order.** -/
theorem rnd_lt_rnd {p q : ℚ} (hp : Normal p) (hq : Normal q) (h : p + (|p| + |q|) / 2 ^ 53 < q) :
    rnd p < rnd q := by
  have hp := (abs_le.1 (abs_rnd_sub_le hp)).2
  have hq := (abs_le.1 (abs_rnd_sub_le hq)).1
  rw [add_div] at h
  linarith

end Binary64

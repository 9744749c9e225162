/-
**Arithmetic where overflow is checked.**

The result of an operation of fixed-width numbers is the number it is in the integers, if that has the
width, and a panic otherwise.

Main definitions:

* `Checked.unsigned`, `Checked.signed` — the result of an operation, by what it is in the integers.

Main results:

* `Checked.unsigned_eq_ok_iff`, `Checked.bind_unsigned_eq_ok_iff` — when an operation, and what follows
  it, returns;
* `Checked.signed_eq` — an operation within the bounds.
-/

import MibeeEye.CheckedReads
import Mathlib.Algebra.Ring.Int.Defs

set_option relaxedAutoImplicit false
set_option autoImplicit false

namespace Checked

variable {ε β : Type} {w : ℕ} {v : ℤ}

/-- The result of an operation of unsigned numbers of `w` bits. -/
def unsigned (w : ℕ) (v : ℤ) : Run ε ℤ := if 0 ≤ v ∧ v < 2 ^ w then .ok v else panics

/-- The result of an operation of signed numbers of `w + 1` bits. -/
def signed (w : ℕ) (v : ℤ) : Run ε ℤ := if -2 ^ w ≤ v ∧ v < 2 ^ w then .ok v else panics

/-- An operation within the bounds. -/
theorem unsigned_eq (h : 0 ≤ v ∧ v < 2 ^ w) : (unsigned w v : Run ε ℤ) = .ok v := if_pos h

theorem unsigned_of_not (h : ¬ (0 ≤ v ∧ v < 2 ^ w)) : (unsigned w v : Run ε ℤ) = panics := if_neg h

/-- An operation within the bounds. -/
theorem signed_eq (h : -2 ^ w ≤ v ∧ v < 2 ^ w) : (signed w v : Run ε ℤ) = .ok v := if_pos h

/-- What follows an operation is done if it is within the bounds. -/
theorem bind_unsigned_eq_ok_iff {f : ℤ → Run ε β} {b : β} :
    unsigned w v >>= f = .ok b ↔ (0 ≤ v ∧ v < 2 ^ w) ∧ f v = .ok b := by
  by_cases h : 0 ≤ v ∧ v < 2 ^ w
  · rw [unsigned_eq h, ok_bind]
    exact ⟨fun hf => ⟨h, hf⟩, fun hf => hf.2⟩
  · rw [unsigned_of_not h, panics_bind]
    exact ⟨fun hf => by simp [panics] at hf, fun hf => absurd hf.1 h⟩

theorem unsigned_eq_ok_iff {n : ℤ} :
    (unsigned w v : Run ε ℤ) = .ok n ↔ (0 ≤ v ∧ v < 2 ^ w) ∧ v = n := by
  by_cases h : 0 ≤ v ∧ v < 2 ^ w
  · rw [unsigned_eq h, Except.ok.injEq]
    exact ⟨fun hv => ⟨h, hv⟩, fun hv => hv.2⟩
  · rw [unsigned_of_not h]
    exact ⟨fun hv => by simp [panics] at hv, fun hv => absurd hv.1 h⟩

end Checked

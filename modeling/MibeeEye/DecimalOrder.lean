/-
**The order of decimal numbers as texts.**

Texts are compared character by character, and a text is larger than what it begins with.  Between
digits that is the order of the numbers as long as there are equally many of them; of a text with more
digits only as many count as the other one has.

Main definitions:

* `Decimal.Digits` — a text of digits;
* `Decimal.value` — the number that a text of digits is.

Main results:

* `Decimal.lt_iff_value_lt` — **equally many digits are ordered as their numbers are**;
* `Decimal.toDigits_lt_iff` — a number is before a shorter one exactly when its first digits are.
-/

import Mathlib.Data.List.Basic
import Mathlib.Tactic.Ring

set_option relaxedAutoImplicit false
set_option autoImplicit false

namespace Decimal

/-! ### Digits and their value -/

/-- A text of digits. -/
def Digits (l : List Char) : Prop := ∀ c ∈ l, c.isDigit

/-- The number that a text of digits is. -/
def value (l : List Char) : ℕ := Nat.ofDigitChars 10 l 0

variable {a b : List Char} {c : Char} {n m : ℕ}

theorem Digits.tail (h : Digits (c :: a)) : Digits a := by
  intro d hd
  exact h d (List.mem_cons_of_mem c hd)

theorem Digits.append (ha : Digits a) (hb : Digits b) : Digits (a ++ b) := by
  intro d hd
  rcases List.mem_append.1 hd with hd | hd
  · exact ha d hd
  · exact hb d hd

theorem digits_toDigits (n : ℕ) : Digits (Nat.toDigits 10 n) := by
  intro c hc
  exact Nat.isDigit_of_mem_toDigits (by decide) (by decide) hc

theorem digit_bounds (h : c.isDigit) : 48 ≤ c.toNat ∧ c.toNat ≤ 57 := Char.isDigit_iff_toNat.1 h

@[simp] theorem value_nil : value [] = 0 := Nat.ofDigitChars_nil

theorem value_cons (c : Char) (l : List Char) :
    value (c :: l) = 10 ^ l.length * (c.toNat - 48) + value l := by
  rw [value, Nat.ofDigitChars_cons, Nat.ofDigitChars_eq_ofDigitChars_zero, Nat.mul_zero, Nat.zero_add]
  rfl

theorem value_append (a b : List Char) : value (a ++ b) = 10 ^ b.length * value a + value b := by
  rw [value, Nat.ofDigitChars_append, Nat.ofDigitChars_eq_ofDigitChars_zero]
  rfl

@[simp] theorem value_toDigits (n : ℕ) : value (Nat.toDigits 10 n) = n := Nat.ofDigitChars_ten_toDigits

/-- A number has no more than its digits. -/
theorem value_lt (h : Digits a) : value a < 10 ^ a.length := by
  induction a with
  | nil => exact Nat.one_pos
  | cons c l ih =>
      have hc := digit_bounds (h c List.mem_cons_self)
      have hdigit : 10 ^ l.length * (c.toNat - 48) ≤ 10 ^ l.length * 9 :=
        Nat.mul_le_mul_left _ (by omega)
      rw [value_cons, List.length_cons, pow_succ]
      have := ih h.tail
      omega

/-! ### The order -/

/-- **Equally many digits are ordered as their numbers are.** -/
theorem lt_iff_value_lt (ha : Digits a) (hb : Digits b) (h : a.length = b.length) :
    a < b ↔ value a < value b := by
  induction a generalizing b with
  | nil =>
      have hnil : b = [] := List.length_eq_zero_iff.1 h.symm
      rw [hnil]
      simp
  | cons c l ih =>
      cases b with
      | nil => exact absurd h (Nat.succ_ne_zero _)
      | cons d r =>
          have hlen : l.length = r.length := Nat.succ.inj h
          have hc := digit_bounds (ha c List.mem_cons_self)
          have hd := digit_bounds (hb d List.mem_cons_self)
          have hl := value_lt ha.tail
          have hr := value_lt hb.tail
          rw [List.cons_lt_cons_iff, ih ha.tail hb.tail hlen, value_cons, value_cons, hlen]
          rw [hlen] at hl
          -- the first digits decide, unless they are the same
          rcases lt_trichotomy c.toNat d.toNat with hlt | heq | hgt
          · have hstep : 10 ^ r.length * (c.toNat - 48 + 1) ≤ 10 ^ r.length * (d.toNat - 48) :=
              Nat.mul_le_mul_left _ (by omega)
            rw [Nat.mul_add, Nat.mul_one] at hstep
            exact ⟨fun _ => by omega, fun _ => Or.inl hlt⟩
          · have hcd : c = d := Char.toNat_inj.1 heq
            rw [hcd]
            simp
          · have hstep : 10 ^ r.length * (d.toNat - 48 + 1) ≤ 10 ^ r.length * (c.toNat - 48) :=
              Nat.mul_le_mul_left _ (by omega)
            rw [Nat.mul_add, Nat.mul_one] at hstep
            constructor
            · rintro (hlt | ⟨hcd, -⟩)
              · exact absurd hlt (Nat.lt_asymm hgt)
              · exact absurd (congrArg Char.toNat hcd) (Nat.ne_of_gt hgt)
            · intro hlt
              omega

/-- Of a text with more digits only as many count as the other one has. -/
theorem lt_iff_take_lt (h : a.length ≤ b.length) : b < a ↔ b.take a.length < a := by
  induction a generalizing b with
  | nil => simp
  | cons c l ih =>
      cases b with
      | nil => exact absurd h (by simp)
      | cons d r =>
          rw [List.length_cons, List.take_succ_cons, List.cons_lt_cons_iff, List.cons_lt_cons_iff,
            ih (Nat.le_of_succ_le_succ h)]

/-! ### Numbers of different lengths -/

/-- The first digits of a number are the quotient by a power of ten. -/
theorem value_take (h : Digits a) (k : ℕ) : value (a.take k) = value a / 10 ^ (a.length - k) := by
  have hrest : Digits (a.drop k) := fun d hd => h d (List.mem_of_mem_drop hd)
  have hlt := value_lt hrest
  have hsplit : value a = 10 ^ (a.drop k).length * value (a.take k) + value (a.drop k) := by
    rw [← value_append, List.take_append_drop]
  rw [List.length_drop] at hlt hsplit
  rw [hsplit, Nat.mul_add_div (Nat.pow_pos (by decide)), Nat.div_eq_of_lt hlt, Nat.add_zero]

theorem length_toDigits_mono (h : n ≤ m) :
    (Nat.toDigits 10 n).length ≤ (Nat.toDigits 10 m).length := by
  rw [Nat.length_toDigits_le_iff (by decide) Nat.length_toDigits_pos]
  have hm : m < 10 ^ (Nat.toDigits 10 m).length := by
    rw [← Nat.length_toDigits_le_iff (by decide) Nat.length_toDigits_pos]
  exact lt_of_le_of_lt h hm

/-- **A number is before one with at most as many digits exactly when its first digits are.** -/
theorem toDigits_lt_iff (h : (Nat.toDigits 10 n).length ≤ (Nat.toDigits 10 m).length) :
    Nat.toDigits 10 m < Nat.toDigits 10 n ↔
      m / 10 ^ ((Nat.toDigits 10 m).length - (Nat.toDigits 10 n).length) < n := by
  have htake : Digits ((Nat.toDigits 10 m).take (Nat.toDigits 10 n).length) :=
    fun c hc => digits_toDigits m c (List.mem_of_mem_take hc)
  rw [lt_iff_take_lt h, lt_iff_value_lt htake (digits_toDigits n) (List.length_take_of_le h),
    value_take (digits_toDigits m), value_toDigits, value_toDigits]

end Decimal

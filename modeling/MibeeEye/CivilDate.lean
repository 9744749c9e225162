/-
**Dates of the Gregorian calendar.**

A number of days is turned into a date by the arithmetic of the 400-year cycle of the calendar: years
begin in March, so that a leap day is the last of its year, and a cycle always has 146097 days.  A
date is written as decimal fields of at least a given width.

Main definitions:

* `Civil.yearOfEra`, `Civil.dayOfYear`, `Civil.monthIndex` — the arithmetic within one cycle;
* `Civil.Date`, `Civil.ofDays` — the date of a day, counted from the first of March of the year 0;
* `Civil.field` — a decimal number, padded to a width.

Main results:

* `Civil.yearOfEra_eq` — the year within a cycle, by centuries and spans of four years;
* `Civil.ofDays_injective` — **different days have different dates**;
* `Civil.append_field_inj` — what is written is read off from the end.
-/

import Mathlib.Algebra.Order.Ring.Int
import Mathlib.Data.List.Basic

set_option relaxedAutoImplicit false
set_option autoImplicit false

namespace Civil

/-! ### Within one cycle -/

/-- The year within a cycle of a day of it. -/
def yearOfEra (doe : ℤ) : ℤ := (doe - doe / 1460 + doe / 36524 - doe / 146096) / 365

/-- The day within its year of a day of a cycle; the first of March is day 0. -/
def dayOfYear (doe : ℤ) : ℤ :=
  doe - (365 * yearOfEra doe + yearOfEra doe / 4 - yearOfEra doe / 100)

/-- The month of a day of a year, from March on. -/
def monthIndex (doy : ℤ) : ℤ := (5 * doy + 2) / 153

/-- A day of a cycle is in a century, and there in a span of four years; only the last century has a
last span of full length. -/
theorem exists_parts {doe : ℤ} (h0 : 0 ≤ doe) (h1 : doe < 146097) :
    ∃ c q r : ℤ, doe = 36524 * c + 1461 * q + r ∧ (0 ≤ c ∧ c ≤ 3) ∧ (0 ≤ q ∧ q ≤ 24) ∧
      (0 ≤ r ∧ r ≤ 1460) ∧ (q = 24 → r = 1460 → c = 3) := by
  refine ⟨min (doe / 36524) 3, (doe - 36524 * min (doe / 36524) 3) / 1461,
    (doe - 36524 * min (doe / 36524) 3) % 1461, ?_⟩
  omega

theorem yearOfEra_eq {c q r : ℤ} (hc : 0 ≤ c ∧ c ≤ 3) (hq : 0 ≤ q ∧ q ≤ 24) (hr : 0 ≤ r ∧ r ≤ 1460)
    (hlast : q = 24 → r = 1460 → c = 3) :
    yearOfEra (36524 * c + 1461 * q + r) = 100 * c + 4 * q + min (r / 365) 3 := by
  have hleap : (36524 * c + 1461 * q + r) / 1460 = 25 * c + q + (24 * c + q + r) / 1460 := by omega
  -- the last day of the cycle counts as one of a fifth century
  have hcentury : (36524 * c + 1461 * q + r) / 36524 = c + if q = 24 ∧ r = 1460 then 1 else 0 := by
    split <;> omega
  have hcycle : (36524 * c + 1461 * q + r) / 146096 = if q = 24 ∧ r = 1460 then 1 else 0 := by
    split <;> omega
  rw [yearOfEra, hleap, hcentury, hcycle]
  omega

variable {doe doy : ℤ}

theorem yearOfEra_bounds (h0 : 0 ≤ doe) (h1 : doe < 146097) :
    0 ≤ yearOfEra doe ∧ yearOfEra doe < 400 := by
  rw [yearOfEra]
  omega

/-- A year has at most 366 days. -/
theorem dayOfYear_bounds (h0 : 0 ≤ doe) (h1 : doe < 146097) :
    0 ≤ dayOfYear doe ∧ dayOfYear doe ≤ 365 := by
  obtain ⟨c, q, r, rfl, hc, hq, hr, hlast⟩ := exists_parts h0 h1
  obtain ⟨a, ha⟩ : ∃ a, a = min (r / 365) 3 := ⟨_, rfl⟩
  have hyear : 0 ≤ a ∧ a ≤ 3 ∧ 365 * a ≤ r ∧ r ≤ 365 * a + 365 := by omega
  have hleap : (100 * c + 4 * q + a) / 4 = 25 * c + q := by omega
  have hcentury : (100 * c + 4 * q + a) / 100 = c := by omega
  rw [dayOfYear, yearOfEra_eq hc hq hr hlast, ← ha, hleap, hcentury]
  omega

theorem monthIndex_bounds (h : 0 ≤ doy ∧ doy ≤ 365) : 0 ≤ monthIndex doy ∧ monthIndex doy ≤ 11 := by
  rw [monthIndex]
  omega

/-- The days of a month. -/
theorem dayOfMonth_bounds (doy : ℤ) :
    0 ≤ doy - (153 * monthIndex doy + 2) / 5 ∧ doy - (153 * monthIndex doy + 2) / 5 ≤ 30 := by
  rw [monthIndex]
  omega

/-! ### Dates -/

/-- A date. -/
@[ext] structure Date where
  year : ℤ
  month : ℤ
  day : ℤ
  deriving DecidableEq

/-- The date of a day, counted from the first of March of the year 0. -/
@[grind =] def ofDays (z : ℤ) : Date :=
  let doy := dayOfYear (z % 146097)
  let mp := monthIndex doy
  let month := if mp < 10 then mp + 3 else mp - 9
  let year := yearOfEra (z % 146097) + z / 146097 * 400
  { year := if month ≤ 2 then year + 1 else year
    month := month
    day := doy - (153 * mp + 2) / 5 + 1 }

variable {z : ℤ}

theorem cycle_bounds (z : ℤ) : 0 ≤ z % 146097 ∧ z % 146097 < 146097 := by omega

theorem month_bounds (z : ℤ) : 1 ≤ (ofDays z).month ∧ (ofDays z).month ≤ 12 := by
  obtain ⟨h0, h1⟩ := cycle_bounds z
  have hmonth := monthIndex_bounds (dayOfYear_bounds h0 h1)
  simp only [ofDays]
  split <;> omega

theorem day_bounds (z : ℤ) : 1 ≤ (ofDays z).day ∧ (ofDays z).day ≤ 31 := by
  have hday := dayOfMonth_bounds (dayOfYear (z % 146097))
  simp only [ofDays]
  omega

theorem year_nonneg (h : 0 ≤ z) : 0 ≤ (ofDays z).year := by
  obtain ⟨h0, h1⟩ := cycle_bounds z
  have hyear := yearOfEra_bounds h0 h1
  simp only [ofDays]
  split <;> omega

/-- **Different days have different dates.** -/
theorem ofDays_injective : Function.Injective ofDays := by
  intro z w h
  obtain ⟨hz0, hz1⟩ := cycle_bounds z
  obtain ⟨hw0, hw1⟩ := cycle_bounds w
  have hzy := yearOfEra_bounds hz0 hz1
  have hwy := yearOfEra_bounds hw0 hw1
  have hzm := monthIndex_bounds (dayOfYear_bounds hz0 hz1)
  have hwm := monthIndex_bounds (dayOfYear_bounds hw0 hw1)
  simp only [ofDays, Date.mk.injEq] at h
  obtain ⟨hyear, hmonth, hday⟩ := h
  have hmp : monthIndex (dayOfYear (z % 146097)) = monthIndex (dayOfYear (w % 146097)) := by
    split at hmonth <;> split at hmonth <;> omega
  have hdoy : dayOfYear (z % 146097) = dayOfYear (w % 146097) := by
    rw [hmp] at hday
    omega
  have hyears : yearOfEra (z % 146097) + z / 146097 * 400 =
      yearOfEra (w % 146097) + w / 146097 * 400 := by
    rw [hmp] at hyear
    split at hyear <;> omega
  have hyoe : yearOfEra (z % 146097) = yearOfEra (w % 146097) := by omega
  have hdoe : z % 146097 = w % 146097 := by
    rw [dayOfYear, dayOfYear, hyoe] at hdoy
    omega
  omega

/-! ### Fields -/

/-- A number in decimal, padded with zeros after its sign to `w` characters. -/
def field (w : ℕ) : ℤ → List Char
  | .ofNat n => (Nat.toDigits 10 n).leftpad w '0'
  | .negSucc n => '-' :: (Nat.toDigits 10 (n + 1)).leftpad (w - 1) '0'

theorem field_natCast (w n : ℕ) : field w n = (Nat.toDigits 10 n).leftpad w '0' := rfl

/-- Zeros in front do not count. -/
theorem ofDigitChars_leftpad (w n : ℕ) :
    Nat.ofDigitChars 10 ((Nat.toDigits 10 n).leftpad w '0') 0 = n := by
  have hzeros : ∀ k l, Nat.ofDigitChars 10 (List.replicate k '0' ++ l) 0 = Nat.ofDigitChars 10 l 0 := by
    intro k l
    induction k with
    | zero => rfl
    | succ k ih =>
        rw [List.replicate_succ, List.cons_append, Nat.ofDigitChars_cons]
        exact ih
  rw [List.leftpad, hzeros, Nat.ofDigitChars_ten_toDigits]

theorem field_inj {w : ℕ} {m n : ℤ} (hm : 0 ≤ m) (hn : 0 ≤ n) (h : field w m = field w n) : m = n := by
  lift m to ℕ using hm
  lift n to ℕ using hn
  rw [field_natCast, field_natCast] at h
  rw [← ofDigitChars_leftpad w m, h, ofDigitChars_leftpad]

/-- A number that fits has the width. -/
theorem length_field {w : ℕ} {n : ℤ} (hw : 0 < w) (hn : 0 ≤ n) (h : n < 10 ^ w) :
    (field w n).length = w := by
  lift n to ℕ using hn
  have hdigits : (Nat.toDigits 10 n).length ≤ w := by
    rw [Nat.length_toDigits_le_iff (by decide) hw]
    exact_mod_cast h
  rw [field_natCast, List.length_leftpad]
  exact max_eq_left hdigits

/-- **What is written is read off from the end**, where the last number fits its field. -/
theorem append_field_inj {a b : List Char} {w : ℕ} {m n : ℤ} (hw : 0 < w) (hm : 0 ≤ m ∧ m < 10 ^ w)
    (hn : 0 ≤ n ∧ n < 10 ^ w) (h : a ++ field w m = b ++ field w n) : a = b ∧ m = n := by
  have hlength : (field w m).length = (field w n).length := by
    rw [length_field hw hm.1 hm.2, length_field hw hn.1 hn.2]
  obtain ⟨hab, hfield⟩ := List.append_inj' h hlength
  exact ⟨hab, field_inj hm.1 hn.1 hfield⟩

end Civil

/-
**The calendar, day by day.**

The calendar says how long a month is and which day comes after a day.  The arithmetic of the 400-year
cycle walks through it: the date of the next day is the next date, so that dates are ordered as days are
and counting the months of all years gives the day back.

Main definitions:

* `Civil.IsLeap`, `Civil.monthLength`, `Civil.Date.Valid` — the calendar;
* `Civil.Date.next` — the day after a day;
* `Civil.dayNumber` — a date counted in months from the first of January of a year.

Main results:

* `Civil.ofDays_succ` — **the date of the next day is the next date**;
* `Civil.before_of_lt` — dates are ordered as days are;
* `Civil.dayNumber_ofDays` — counting the months of a date gives the day.
-/

import Mathlib.Algebra.Order.Ring.Int
import Mathlib.Tactic.IntervalCases
import MibeeEye.CivilDate

set_option relaxedAutoImplicit false
set_option autoImplicit false

namespace Civil

/-! ### The calendar -/

/-- Whether a year has a leap day. -/
def IsLeap (y : ℤ) : Prop := y % 4 = 0 ∧ (y % 100 ≠ 0 ∨ y % 400 = 0)

instance (y : ℤ) : Decidable (IsLeap y) :=
  inferInstanceAs (Decidable (y % 4 = 0 ∧ (y % 100 ≠ 0 ∨ y % 400 = 0)))

/-- The days of a month. -/
def monthLength (y m : ℤ) : ℤ :=
  if m = 2 then if IsLeap y then 29 else 28
  else if m = 4 ∨ m = 6 ∨ m = 9 ∨ m = 11 then 30
  else 31

/-- The months of a year and the days of its months. -/
def Date.Valid (d : Date) : Prop :=
  (1 ≤ d.month ∧ d.month ≤ 12) ∧ 1 ≤ d.day ∧ d.day ≤ monthLength d.year d.month

/-- The day after a day. -/
def Date.next (d : Date) : Date :=
  if d.day < monthLength d.year d.month then { d with day := d.day + 1 }
  else if d.month < 12 then { d with month := d.month + 1, day := 1 }
  else { year := d.year + 1, month := 1, day := 1 }

theorem Date.next_of_day {d : Date} (h : d.day < monthLength d.year d.month) :
    d.next = { d with day := d.day + 1 } := if_pos h

theorem Date.next_of_month {d : Date} (h : ¬d.day < monthLength d.year d.month) (hm : d.month < 12) :
    d.next = { d with month := d.month + 1, day := 1 } := by
  rw [Date.next, if_neg h, if_pos hm]

theorem Date.next_of_year {d : Date} (h : ¬d.day < monthLength d.year d.month) (hm : ¬d.month < 12) :
    d.next = { year := d.year + 1, month := 1, day := 1 } := by
  rw [Date.next, if_neg h, if_neg hm]

/-- The order of dates: the year first, then the month, then the day. -/
def Date.Before (d e : Date) : Prop :=
  d.year < e.year ∨ d.year = e.year ∧ (d.month < e.month ∨ d.month = e.month ∧ d.day < e.day)

variable {d e f : Date} {z w y : ℤ}

theorem Date.Before.trans (hde : d.Before e) (hef : e.Before f) : d.Before f := by
  unfold Date.Before at *
  omega

theorem before_next (d : Date) : d.Before d.next := by
  unfold Date.next
  split
  · exact Or.inr ⟨rfl, Or.inr ⟨rfl, Int.lt_succ d.day⟩⟩
  · split
    · exact Or.inr ⟨rfl, Or.inl (Int.lt_succ d.month)⟩
    · exact Or.inl (Int.lt_succ d.year)

theorem monthLength_le (y m : ℤ) : monthLength y m ≤ 31 := by
  unfold monthLength
  split
  · split <;> decide
  · split <;> decide

/-! ### Years from March on -/

/-- The year, from March on, of a day. -/
def marchYear (z : ℤ) : ℤ := yearOfEra (z % 146097) + z / 146097 * 400

/-- The day within its year, from March on. -/
def marchDay (z : ℤ) : ℤ := dayOfYear (z % 146097)

/-- The day on which a year begins. -/
def yearStart (y : ℤ) : ℤ := 365 * y + y / 4 - y / 100 + y / 400

/-- The last day of a year that ends with February of the year `y`. -/
def lastDay (y : ℤ) : ℤ := if IsLeap y then 365 else 364

theorem lastDay_eq (y : ℤ) : lastDay y = 364 ∨ lastDay y = 365 := by
  unfold lastDay
  split
  · exact Or.inr rfl
  · exact Or.inl rfl

theorem lastDay_le (y : ℤ) : lastDay y ≤ 365 := by
  have := lastDay_eq y
  omega

theorem yearStart_succ (y : ℤ) : yearStart (y + 1) = yearStart y + lastDay (y + 1) + 1 := by
  unfold yearStart lastDay
  split
  · rename_i hleap
    unfold IsLeap at hleap
    omega
  · rename_i hleap
    unfold IsLeap at hleap
    omega

theorem yearStart_mono (h : y ≤ w) : yearStart y ≤ yearStart w := by
  unfold yearStart
  omega

theorem eq_yearStart_add (z : ℤ) : z = yearStart (marchYear z) + marchDay z := by
  obtain ⟨h0, h1⟩ := cycle_bounds z
  have hyear := yearOfEra_bounds h0 h1
  unfold yearStart marchYear marchDay dayOfYear
  omega

/-- A year of the cycle ends with the February after it. -/
theorem dayOfYear_le {doe : ℤ} (h0 : 0 ≤ doe) (h1 : doe < 146097) :
    dayOfYear doe ≤ lastDay (yearOfEra doe + 1) := by
  obtain ⟨c, q, r, rfl, hc, hq, hr, hlast⟩ := exists_parts h0 h1
  obtain ⟨a, ha⟩ : ∃ a, a = min (r / 365) 3 := ⟨_, rfl⟩
  have hyear : 0 ≤ a ∧ a ≤ 3 ∧ 365 * a ≤ r ∧ r ≤ 365 * a + 365 := by omega
  have hleap : (100 * c + 4 * q + a) / 4 = 25 * c + q := by omega
  have hcentury : (100 * c + 4 * q + a) / 100 = c := by omega
  rw [dayOfYear, yearOfEra_eq hc hq hr hlast, ← ha, hleap, hcentury, lastDay]
  split
  · omega
  · rename_i hnot
    unfold IsLeap at hnot
    omega

theorem marchDay_bounds (z : ℤ) : 0 ≤ marchDay z ∧ marchDay z ≤ lastDay (marchYear z + 1) := by
  obtain ⟨h0, h1⟩ := cycle_bounds z
  have hleap : IsLeap (marchYear z + 1) ↔ IsLeap (yearOfEra (z % 146097) + 1) := by
    unfold IsLeap marchYear
    omega
  refine ⟨(dayOfYear_bounds h0 h1).1, ?_⟩
  have hday := dayOfYear_le h0 h1
  simp only [lastDay] at hday ⊢
  simp only [hleap]
  exact hday

/-- The years do not share a day. -/
theorem marchYear_eq (h : yearStart y ≤ z) (hlt : z < yearStart (y + 1)) : marchYear z = y := by
  have heq := eq_yearStart_add z
  have hday := marchDay_bounds z
  have hsucc := yearStart_succ (marchYear z)
  rcases lt_trichotomy (marchYear z) y with hbefore | hsame | hafter
  · have := yearStart_mono (show marchYear z + 1 ≤ y by omega)
    omega
  · exact hsame
  · have := yearStart_mono (show y + 1 ≤ marchYear z by omega)
    omega

/-- The next day is in the same year, or it is the first day of the next one. -/
theorem march_succ (z : ℤ) :
    marchYear (z + 1) = marchYear z ∧ marchDay (z + 1) = marchDay z + 1 ∧
        marchDay z < lastDay (marchYear z + 1) ∨
      marchYear (z + 1) = marchYear z + 1 ∧ marchDay (z + 1) = 0 ∧
        marchDay z = lastDay (marchYear z + 1) := by
  have heq := eq_yearStart_add z
  have hnext := eq_yearStart_add (z + 1)
  have hday := marchDay_bounds z
  have hsucc := yearStart_succ (marchYear z)
  rcases lt_or_eq_of_le hday.2 with hlt | hlast
  · have hyear : marchYear (z + 1) = marchYear z := marchYear_eq (by omega) (by omega)
    rw [hyear] at hnext
    exact Or.inl ⟨hyear, by omega, hlt⟩
  · have hyear : marchYear (z + 1) = marchYear z + 1 := by
      have hpos := yearStart_succ (marchYear z + 1)
      have hlen := lastDay_eq (marchYear z + 1 + 1)
      exact marchYear_eq (by omega) (by omega)
    rw [hyear] at hnext
    exact Or.inr ⟨hyear, by omega, hlast⟩

/-! ### Months from March on -/

/-- The date of a day of a year, from March on. -/
def ofMarch (y doy : ℤ) : Date :=
  let mp := monthIndex doy
  let month := if mp < 10 then mp + 3 else mp - 9
  { year := if month ≤ 2 then y + 1 else y
    month := month
    day := doy - (153 * mp + 2) / 5 + 1 }

theorem month_ofMarch (y doy : ℤ) :
    (ofMarch y doy).month =
      if monthIndex doy < 10 then monthIndex doy + 3 else monthIndex doy - 9 := rfl

theorem year_ofMarch (y doy : ℤ) :
    (ofMarch y doy).year =
      if (if monthIndex doy < 10 then monthIndex doy + 3 else monthIndex doy - 9) ≤ 2 then y + 1
      else y := rfl

theorem day_ofMarch (y doy : ℤ) :
    (ofMarch y doy).day = doy - (153 * monthIndex doy + 2) / 5 + 1 := rfl

theorem ofDays_eq (z : ℤ) : ofDays z = ofMarch (marchYear z) (marchDay z) := rfl

variable {doy : ℤ}

/-- The months of a year, from March on; the last one is February, which has what is left. -/
theorem monthLength_ofMarch (h0 : 0 ≤ doy) (h1 : doy ≤ lastDay (y + 1)) :
    monthLength (ofMarch y doy).year (ofMarch y doy).month =
      if monthIndex doy = 11 then lastDay (y + 1) - 336
      else (153 * (monthIndex doy + 1) + 2) / 5 - (153 * monthIndex doy + 2) / 5 := by
  have hlast := lastDay_le (y + 1)
  obtain ⟨hmp0, hmp1⟩ := monthIndex_bounds ⟨h0, h1.trans hlast⟩
  simp only [ofMarch]
  generalize monthIndex doy = mp at *
  interval_cases mp <;> try rfl
  -- February
  unfold monthLength lastDay
  norm_num
  split <;> rfl

theorem day_ofMarch_le (h0 : 0 ≤ doy) (h1 : doy ≤ lastDay (y + 1)) :
    (ofMarch y doy).day ≤ monthLength (ofMarch y doy).year (ofMarch y doy).month := by
  rw [monthLength_ofMarch h0 h1]
  simp only [ofMarch]
  split
  · rename_i hfeb
    rw [hfeb]
    omega
  · unfold monthIndex
    omega

theorem valid_ofMarch (h0 : 0 ≤ doy) (h1 : doy ≤ lastDay (y + 1)) : (ofMarch y doy).Valid := by
  have hlast := lastDay_le (y + 1)
  have hmonth := monthIndex_bounds ⟨h0, h1.trans hlast⟩
  have hday := dayOfMonth_bounds doy
  refine ⟨?_, ?_, day_ofMarch_le h0 h1⟩
  · simp only [ofMarch]
    split <;> omega
  · simp only [ofMarch]
    omega

/-- The next day is in the same month, or it is the first day of the next one. -/
theorem monthIndex_succ (h0 : 0 ≤ doy) (h1 : doy < lastDay (y + 1)) :
    (ofMarch y doy).day < monthLength (ofMarch y doy).year (ofMarch y doy).month ∧
        monthIndex (doy + 1) = monthIndex doy ∨
      ¬(ofMarch y doy).day < monthLength (ofMarch y doy).year (ofMarch y doy).month ∧
        monthIndex (doy + 1) = monthIndex doy + 1 ∧ monthIndex doy < 11 ∧
        doy + 1 = (153 * (monthIndex doy + 1) + 2) / 5 := by
  have hlast := lastDay_le (y + 1)
  have hmp := monthIndex_bounds ⟨h0, h1.le.trans hlast⟩
  rw [monthLength_ofMarch h0 h1.le, day_ofMarch]
  by_cases hfeb : monthIndex doy = 11
  · rw [if_pos hfeb]
    unfold monthIndex at *
    omega
  · rw [if_neg hfeb]
    unfold monthIndex at *
    omega

theorem ofMarch_succ (h0 : 0 ≤ doy) (h1 : doy < lastDay (y + 1)) :
    ofMarch y (doy + 1) = (ofMarch y doy).next := by
  have hmp := monthIndex_bounds ⟨h0, h1.le.trans (lastDay_le (y + 1))⟩
  rcases monthIndex_succ h0 h1 with ⟨hday, hsame⟩ | ⟨hday, hnext, hmonth, hfirst⟩
  · rw [Date.next_of_day hday]
    ext
    · rw [year_ofMarch, hsame, year_ofMarch]
    · rw [month_ofMarch, hsame, month_ofMarch]
    · rw [day_ofMarch, hsame, day_ofMarch]
      dsimp only
      omega
  · by_cases hdec : (ofMarch y doy).month < 12
    · rw [Date.next_of_month hday hdec]
      rw [month_ofMarch] at hdec
      ext
      · rw [year_ofMarch, hnext, year_ofMarch]
        omega
      · rw [month_ofMarch, hnext, month_ofMarch]
        dsimp only
        omega
      · rw [day_ofMarch, hnext, ← hfirst]
        dsimp only
        omega
    · rw [Date.next_of_year hday hdec]
      rw [month_ofMarch] at hdec
      ext
      · rw [year_ofMarch, hnext, year_ofMarch]
        dsimp only
        omega
      · rw [month_ofMarch, hnext]
        dsimp only
        omega
      · rw [day_ofMarch, hnext, ← hfirst]
        dsimp only
        omega

theorem ofMarch_last (y : ℤ) : ofMarch (y + 1) 0 = (ofMarch y (lastDay (y + 1))).next := by
  have hleap := lastDay_eq (y + 1)
  have hlength := @monthLength_ofMarch y (lastDay (y + 1)) (by omega) le_rfl
  have hfeb : monthIndex (lastDay (y + 1)) = 11 := by
    unfold monthIndex
    omega
  have hmarch : monthIndex 0 = 0 := rfl
  rw [if_pos hfeb] at hlength
  rw [Date.next_of_month]
  · ext
    · rw [year_ofMarch, year_ofMarch, hfeb, hmarch]
      rfl
    · rw [month_ofMarch, month_ofMarch, hfeb, hmarch]
      rfl
    · rfl
  · rw [hlength, day_ofMarch, hfeb]
    omega
  · rw [month_ofMarch, hfeb]
    decide

/-! ### Days -/

/-- **The date of the next day is the next date.** -/
theorem ofDays_succ (z : ℤ) : ofDays (z + 1) = (ofDays z).next := by
  have hday := marchDay_bounds z
  rw [ofDays_eq, ofDays_eq]
  rcases march_succ z with ⟨hyear, hnext, hlt⟩ | ⟨hyear, hnext, hlast⟩
  · rw [hyear, hnext, ofMarch_succ hday.1 hlt]
  · rw [hyear, hnext, hlast, ofMarch_last]

/-- The date some days later. -/
theorem ofDays_add (z : ℤ) (n : ℕ) : ofDays (z + n) = Date.next^[n] (ofDays z) := by
  induction n with
  | zero => rw [Nat.cast_zero, add_zero, Function.iterate_zero_apply]
  | succ n ih => rw [Nat.cast_succ, ← add_assoc, ofDays_succ, ih, Function.iterate_succ_apply']

theorem valid_ofDays (z : ℤ) : (ofDays z).Valid :=
  valid_ofMarch (marchDay_bounds z).1 (marchDay_bounds z).2

/-- Dates are ordered as days are. -/
theorem before_of_lt (h : z < w) : (ofDays z).Before (ofDays w) := by
  induction w, h using Int.leInduction with
  | base =>
      rw [ofDays_succ]
      exact before_next _
  | succ w _ ih =>
      rw [ofDays_succ]
      exact ih.trans (before_next _)

/-! ### Counting months -/

/-- The days of the first months of a year. -/
def monthsLength (y : ℤ) : ℕ → ℤ
  | 0 => 0
  | n + 1 => monthsLength y n + monthLength y (n + 1)

/-- The days of years, counted by their months. -/
def yearsLength (y : ℤ) : ℕ → ℤ
  | 0 => 0
  | n + 1 => yearsLength y n + monthsLength (y + n) 12

/-- A date counted in months from the first of January of the year `y`. -/
def dayNumber (y : ℤ) (d : Date) : ℤ :=
  yearsLength y (d.year - y).toNat + monthsLength d.year (d.month - 1).toNat + (d.day - 1)

theorem dayNumber_next (hvalid : d.Valid) (hy : y ≤ d.year) :
    dayNumber y d.next = dayNumber y d + 1 := by
  obtain ⟨⟨hm1, hm12⟩, hday1, hday⟩ := hvalid
  unfold Date.next
  split
  · simp only [dayNumber]
    omega
  · rename_i hlast
    have hlength : d.day = monthLength d.year d.month := by omega
    split
    · have hmonth : (d.month + 1 - 1).toNat = (d.month - 1).toNat + 1 := by omega
      have hcast : ((d.month - 1).toNat : ℤ) + 1 = d.month := by omega
      simp only [dayNumber, hmonth, monthsLength, hcast]
      omega
    · have hmonth : (d.month - 1).toNat = 11 := by omega
      have hyear : (d.year + 1 - y).toNat = (d.year - y).toNat + 1 := by omega
      have hcast : y + ((d.year - y).toNat : ℤ) = d.year := by omega
      have hdec : d.month = 12 := by omega
      rw [hdec] at hlength
      have hdays : monthsLength d.year 12 = monthsLength d.year 11 + monthLength d.year 12 := rfl
      have hfirst : monthsLength (d.year + 1) (1 - 1 : ℤ).toNat = 0 := rfl
      simp only [dayNumber, hmonth, hyear, yearsLength, hcast, hfirst]
      omega

theorem le_year_of_le (h : z ≤ w) : (ofDays z).year ≤ (ofDays w).year := by
  rcases eq_or_lt_of_le h with rfl | hlt
  · exact le_rfl
  · rcases before_of_lt hlt with hyear | ⟨hyear, -⟩
    · exact hyear.le
    · exact hyear.le

/-- **Counting the months of a date gives the day**, from any first of January on. -/
theorem dayNumber_ofDays {z0 : ℤ} (hjan : (ofDays z0).month = 1 ∧ (ofDays z0).day = 1) (h : z0 ≤ z) :
    dayNumber (ofDays z0).year (ofDays z) = z - z0 := by
  induction z, h using Int.leInduction with
  | base =>
      obtain ⟨hmonth, hday⟩ := hjan
      rw [dayNumber, hmonth, hday, Int.sub_self, Int.sub_self, Int.sub_self]
      rfl
  | succ z hle ih =>
      rw [ofDays_succ, dayNumber_next (valid_ofDays z) (le_year_of_le hle), ih]
      omega

end Civil

/-
**The stamps of segments are dates.**

The stamp in the name of a segment is the date and the time of the second in which it is opened: the
date that one comes to from the first of January 1970 by going from day to day, whose months counted
one by one give the days.  Up to the year 9999 stamps have fourteen digits, and listing the files of a
camera by name lists them by time.

Main definitions:

* `Recording.Stamp`, `Recording.Stamp.digits` — a date with a time of the day, and how it is written;
* `Recording.utc` — the date and the time of a second, by the calendar.

Main results:

* `Recording.formatLocalTimestamp_eq_digits` — a file's stamp is the date and the time of its second;
* `Recording.formatLocalTimestamp_calendar` — **stamps are calendar-correct and ordered as time is**.
-/

import MibeeEye.Calendar
import MibeeEye.DecimalOrder
import MibeeEye.SegmentNames

set_option relaxedAutoImplicit false
set_option autoImplicit false

namespace Recording

open Civil Decimal

/-! ### Fields of digits -/

variable {w : ℕ} {m n : ℤ}

theorem digits_field (w : ℕ) (hn : 0 ≤ n) : Digits (field w n) := by
  lift n to ℕ using hn
  rw [field_natCast, List.leftpad]
  refine Digits.append (fun c hc => ?_) (digits_toDigits n)
  rw [List.eq_of_mem_replicate hc]
  decide

theorem value_field (w : ℕ) (hn : 0 ≤ n) : (value (field w n) : ℤ) = n := by
  lift n to ℕ using hn
  rw [field_natCast, value, ofDigitChars_leftpad]

/-! ### The date and the time of a second -/

/-- A date, and a time of the day. -/
structure Stamp where
  date : Date
  hour : ℕ
  minute : ℕ
  second : ℕ

/-- A date of the calendar, up to the year 9999, and a time of the clock. -/
structure Stamp.Valid (t : Stamp) : Prop where
  date : t.date.Valid
  year : 0 ≤ t.date.year ∧ t.date.year < 10000
  hour : t.hour < 24
  minute : t.minute < 60
  second : t.second < 60

/-- `YYYYmmddHHMMSS`. -/
def Stamp.digits (t : Stamp) : List Char :=
  field 4 t.date.year ++ field 2 t.date.month ++ field 2 t.date.day ++ field 2 t.hour ++
    field 2 t.minute ++ field 2 t.second

/-- The seconds since the first of January 1970, the days counted by the months. -/
def Stamp.epochSecs (t : Stamp) : ℤ :=
  86400 * dayNumber 1970 t.date + 3600 * t.hour + 60 * t.minute + t.second

/-- The date and the time of a second, by going from day to day. -/
def utc (s : ℕ) : Stamp where
  date := Date.next^[s / 86400] { year := 1970, month := 1, day := 1 }
  hour := s % 86400 / 3600
  minute := s % 86400 % 3600 / 60
  second := s % 86400 % 60

/-- The first of January 1970. -/
theorem ofDays_epoch : ofDays 719468 = { year := 1970, month := 1, day := 1 } := by decide

theorem ofDays_eq_date (s : ℕ) : ofDays ((s / 86400 : ℕ) + 719468) = (utc s).date := by
  rw [add_comm, ofDays_add, ofDays_epoch]
  rfl

/-- **A file's stamp is the date and the time of its second.** -/
theorem formatLocalTimestamp_eq_digits (s : ℕ) : formatLocalTimestamp s = (utc s).digits := by
  rw [formatLocalTimestamp_eq, ofDays_eq_date]
  rfl

theorem epochSecs_utc (s : ℕ) : (utc s).epochSecs = s := by
  have hcount : dayNumber 1970 (utc s).date = (s / 86400 : ℕ) := by
    have h := @dayNumber_ofDays ((s / 86400 : ℕ) + 719468) 719468 (by rw [ofDays_epoch]; exact ⟨rfl, rfl⟩)
      (by omega)
    rw [ofDays_epoch, ofDays_eq_date] at h
    rw [h]
    omega
  rw [Stamp.epochSecs, hcount]
  simp only [utc]
  omega

theorem valid_utc {s : ℕ} (h : (utc s).date.year < 10000) : (utc s).Valid where
  date := by
    rw [← ofDays_eq_date]
    exact valid_ofDays _
  year := by
    refine ⟨?_, h⟩
    rw [← ofDays_eq_date]
    exact year_nonneg (by omega)
  hour := by simp only [utc]; omega
  minute := by simp only [utc]; omega
  second := by simp only [utc]; omega

/-- The last second of the year 9999. -/
theorem year_lt_iff (s : ℕ) : (utc s).date.year < 10000 ↔ s < 253402300800 := by
  have hlast : (ofDays 3652364).year = 9999 := by decide
  have hfirst : (ofDays 3652365).year = 10000 := by decide
  rw [← ofDays_eq_date]
  constructor
  · intro h
    by_contra hs
    have hle := @le_year_of_le 3652365 ((s / 86400 : ℕ) + 719468) (by omega)
    rw [hfirst] at hle
    omega
  · intro hs
    have hle := @le_year_of_le ((s / 86400 : ℕ) + 719468) 3652364 (by omega)
    rw [hlast] at hle
    omega

/-! ### Fourteen digits -/

variable {t u : Stamp}

theorem month_day_fit (h : t.date.Valid) :
    (0 ≤ t.date.month ∧ t.date.month < 10 ^ 2) ∧ 0 ≤ t.date.day ∧ t.date.day < 10 ^ 2 := by
  obtain ⟨hmonth, hday⟩ := h
  have hlength := monthLength_le t.date.year t.date.month
  omega

theorem length_digits (h : t.Valid) : t.digits.length = 14 := by
  obtain ⟨hmonth, hday⟩ := month_day_fit h.date
  have hhour := h.hour
  have hminute := h.minute
  have hsecond := h.second
  rw [Stamp.digits]
  simp only [List.length_append]
  rw [length_field (by decide) h.year.1 h.year.2, length_field (by decide) hmonth.1 hmonth.2,
    length_field (by decide) hday.1 hday.2, length_field (by decide) (by omega) (by omega),
    length_field (by decide) (by omega) (by omega), length_field (by decide) (by omega) (by omega)]

theorem digits_digits (h : t.Valid) : Digits t.digits := by
  obtain ⟨hmonth, hday⟩ := month_day_fit h.date
  have hnat : ∀ k : ℕ, (0 : ℤ) ≤ k := fun k => Int.natCast_nonneg k
  exact ((((Digits.append (digits_field 4 h.year.1) (digits_field 2 hmonth.1)).append
    (digits_field 2 hday.1)).append (digits_field 2 (hnat _))).append (digits_field 2 (hnat _))).append
    (digits_field 2 (hnat _))

/-- The number that the digits are. -/
theorem value_digits (h : t.Valid) :
    (value t.digits : ℤ) =
      ((((t.date.year * 100 + t.date.month) * 100 + t.date.day) * 100 + t.hour) * 100 + t.minute) * 100 +
        t.second := by
  obtain ⟨hmonth, hday⟩ := month_day_fit h.date
  have hnat : ∀ k : ℕ, (0 : ℤ) ≤ k := fun k => Int.natCast_nonneg k
  have hhour := h.hour
  have hminute := h.minute
  have hsecond := h.second
  rw [Stamp.digits]
  simp only [value_append]
  rw [length_field (by decide) hmonth.1 hmonth.2, length_field (by decide) hday.1 hday.2,
    length_field (by decide) (hnat _) (by omega), length_field (by decide) (hnat _) (by omega),
    length_field (by decide) (hnat _) (by omega)]
  push_cast
  rw [value_field _ h.year.1, value_field _ hmonth.1, value_field _ hday.1, value_field _ (hnat _),
    value_field _ (hnat _), value_field _ (hnat _)]
  omega

/-- Stamps are ordered as their dates and times are. -/
theorem digits_lt (ht : t.Valid) (hu : u.Valid)
    (h : t.date.Before u.date ∨ t.date = u.date ∧
      3600 * t.hour + 60 * t.minute + t.second < 3600 * u.hour + 60 * u.minute + u.second) :
    t.digits < u.digits := by
  obtain ⟨hmt, hdt⟩ := month_day_fit ht.date
  obtain ⟨hmu, hdu⟩ := month_day_fit hu.date
  have h1 := ht.hour
  have h2 := ht.minute
  have h3 := ht.second
  have h4 := hu.hour
  have h5 := hu.minute
  have h6 := hu.second
  rw [lt_iff_value_lt (digits_digits ht) (digits_digits hu) (by rw [length_digits ht, length_digits hu]),
    ← Int.ofNat_lt, value_digits ht, value_digits hu]
  rcases h with hdate | ⟨hdate, htime⟩
  · unfold Date.Before at hdate
    omega
  · rw [hdate]
    omega

theorem utc_lt {s t : ℕ} (h : s < t) :
    (utc s).date.Before (utc t).date ∨ (utc s).date = (utc t).date ∧
      3600 * (utc s).hour + 60 * (utc s).minute + (utc s).second <
        3600 * (utc t).hour + 60 * (utc t).minute + (utc t).second := by
  rcases lt_or_eq_of_le (Nat.div_le_div_right (c := 86400) h.le) with hday | hday
  · refine Or.inl ?_
    rw [← ofDays_eq_date, ← ofDays_eq_date]
    exact before_of_lt (by omega)
  · refine Or.inr ⟨by rw [← ofDays_eq_date, ← ofDays_eq_date, hday], ?_⟩
    simp only [utc]
    omega

/-- **Stamps are calendar-correct and ordered as time is.** -/
theorem formatLocalTimestamp_calendar (s : ℕ) (hs : (utc s).date.year < 10000) :
    (formatLocalTimestamp s = (utc s).digits ∧ (utc s).Valid ∧ (utc s).epochSecs = s ∧
      (formatLocalTimestamp s).length = 14 ∧ Digits (formatLocalTimestamp s)) ∧
    ∀ t, s < t → (utc t).date.year < 10000 → formatLocalTimestamp s < formatLocalTimestamp t := by
  have hvalid := valid_utc hs
  refine ⟨⟨formatLocalTimestamp_eq_digits s, hvalid, epochSecs_utc s, ?_, ?_⟩, ?_⟩
  · rw [formatLocalTimestamp_eq_digits]
    exact length_digits hvalid
  · rw [formatLocalTimestamp_eq_digits]
    exact digits_digits hvalid
  · intro t hst ht
    rw [formatLocalTimestamp_eq_digits, formatLocalTimestamp_eq_digits]
    exact digits_lt hvalid (valid_utc ht) (utc_lt hst)

/-- The first two seconds. -/
theorem formatLocalTimestamp_calendar_zero :
    formatLocalTimestamp 0 = (utc 0).digits ∧ formatLocalTimestamp 0 < formatLocalTimestamp 1 := by
  have hyear : ∀ s : ℕ, s < 253402300800 → (utc s).date.year < 10000 := fun s => (year_lt_iff s).2
  obtain ⟨⟨hdigits, -⟩, hlt⟩ := formatLocalTimestamp_calendar 0 (hyear 0 (by decide))
  exact ⟨hdigits, hlt 1 (by decide) (hyear 1 (by decide))⟩

end Recording

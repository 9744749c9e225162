/-
**The away schedule.**

`spawn_scheduler` of `crates/web/src/away.rs` looks at the clock every 20 seconds.  In the minute
`schedule_arm` it arms a device that is not armed, in the minute `schedule_disarm` it disarms one that
is, on working days only if so set.  So that it acts once in a minute, it keeps the `HH:MM` at which it
last acted, and passes over a poll with the same `HH:MM`.

What is kept is the time of day and not the day, and it is kept only when the scheduler acts: a poll
that finds the device in the state it wants keeps nothing.

Main definitions:

* `Away.hhmm`, `Away.scheduleFires` — the clock, and when an edge is due;
* `Away.Scheduler`, `Away.poll`, `Away.scheduleStep` — the loop, among the calls made by hand;
* `Away.FiresEveryDay` — what is to hold of a history;
* `Away.WellLatched` — the steps at which the kept time of day says what it is kept for.

Main results:

* `Away.hhmm_inj` — the text names the minute of the day;
* `Away.firesEveryDay_iff` — **the schedule fires every day exactly in the histories of such steps**;
* `Away.acted_of_armOnly` — a scheduler with an arming time only acts once.
-/

import MibeeEye.AwayEngine

set_option relaxedAutoImplicit false
set_option autoImplicit false

namespace Away

open Machine

/-! ### The clock -/

/-- A number below 100 in two digits. -/
def twoDigits (n : ℕ) : List Char := [Nat.digitChar (n / 10), Nat.digitChar (n % 10)]

/-- The minute of the day; the clock counts the seconds from the midnight before a Monday. -/
def minuteOfDay (now : ℕ) : ℕ := now % 86400 / 60

/-- `%H:%M` -/
def hhmmOf (minute : ℕ) : List Char := twoDigits (minute / 60) ++ ':' :: twoDigits (minute % 60)

/-- `now.format("%H:%M")` -/
def hhmm (now : ℕ) : List Char := hhmmOf (minuteOfDay now)

/-- `num_days_from_monday` -/
def weekday (now : ℕ) : ℕ := now / 86400 % 7

theorem minuteOfDay_lt (now : ℕ) : minuteOfDay now < 1440 := by
  unfold minuteOfDay
  omega

/-- What the digits of a text `HH:MM` say. -/
@[grind =] def readHhmm : List Char → ℕ
  | [a, b, _, c, d] =>
      ((a.toNat - 48) * 10 + (b.toNat - 48)) * 60 + ((c.toNat - 48) * 10 + (d.toNat - 48))
  | _ => 0

theorem readHhmm_hhmmOf : ∀ minute < 1440, readHhmm (hhmmOf minute) = minute := by
  have hdigit : ∀ d < 10, (Nat.digitChar d).toNat - 48 = d := by decide
  intro minute hminute
  simp only [hhmmOf, twoDigits, List.cons_append, List.nil_append, readHhmm]
  rw [hdigit (minute / 60 / 10) (by omega), hdigit (minute / 60 % 10) (by omega),
    hdigit (minute % 60 / 10) (by omega), hdigit (minute % 60 % 10) (by omega)]
  omega

/-- **The text names the minute of the day.** -/
theorem hhmm_inj {now now' : ℕ} : hhmm now = hhmm now' ↔ minuteOfDay now = minuteOfDay now' := by
  constructor
  · intro h
    rw [← readHhmm_hhmmOf _ (minuteOfDay_lt now), ← readHhmm_hhmmOf _ (minuteOfDay_lt now')]
    exact congrArg readHhmm h
  · intro h
    rw [hhmm, h, hhmm]

theorem hhmm_ne_nil (now : ℕ) : hhmm now ≠ [] := by
  simp [hhmm, hhmmOf, twoDigits]

/-! ### The loop -/

/-- The knobs of the schedule, and that of the summary. -/
structure Settings where
  scheduleArm : List Char
  scheduleDisarm : List Char
  weekdaysOnly : Bool
  summaryOnDisarm : Bool
  deriving DecidableEq, Repr

/-- `schedule_fires` -/
def scheduleFires (setting nowHhmm : List Char) (weekday : ℕ) (weekdaysOnly : Bool) : Bool :=
  if setting.isEmpty || setting != nowHhmm then false else !weekdaysOnly || decide (weekday < 5)

/-- The arming edge is due. -/
def Settings.armDue (c : Settings) (now : ℕ) : Bool :=
  scheduleFires c.scheduleArm (hhmm now) (weekday now) c.weekdaysOnly

/-- The disarming edge is due. -/
def Settings.disarmDue (c : Settings) (now : ℕ) : Bool :=
  scheduleFires c.scheduleDisarm (hhmm now) (weekday now) c.weekdaysOnly

/-- The engine and the loop.  Recorded beside them: the last event, the last poll, the poll at which
the scheduler last acted, and whether the device was switched by hand in the minute of the last poll
since the first poll of this minute. -/
structure Scheduler where
  engine : Engine
  lastMinute : List Char := []
  /-- `set_active(false)` waits for the summary, and the loop for it. -/
  summarising : Bool := false
  clock : ℕ := 0
  lastPoll : Option ℕ := none
  acted : Option ℕ := none
  manual : Bool := false
  deriving DecidableEq, Repr

/-- No poll yet in the minute of `now`. -/
def Scheduler.FirstPoll (s : Scheduler) (now : ℕ) : Prop := ∀ t ∈ s.lastPoll, t / 60 ≠ now / 60

instance (s : Scheduler) (now : ℕ) : Decidable (s.FirstPoll now) :=
  inferInstanceAs (Decidable (∀ t ∈ s.lastPoll, t / 60 ≠ now / 60))

/-- The arming branch: the minute is kept whether or not arming is available. -/
def Scheduler.scheduledArm (s : Scheduler) (available : Bool) (now : ℕ) : Scheduler :=
  { s with
    lastMinute := hhmm now
    acted := some now
    engine := if available then s.engine.arm (1000 * now) else s.engine }

/-- The disarming branch, up to the summary if there is to be one. -/
def Scheduler.scheduledDisarm (s : Scheduler) (c : Settings) (now : ℕ) : Scheduler :=
  { s with
    lastMinute := hhmm now
    acted := some now
    engine := if c.summaryOnDisarm then s.engine else s.engine.disarm
    summarising := c.summaryOnDisarm }

/-- One turn of the loop; `available` is what `is_available` says. -/
def poll (c : Settings) (s : Scheduler) (available : Bool) (now : ℕ) : Scheduler :=
  if c.scheduleArm.isEmpty && c.scheduleDisarm.isEmpty then s
  else if hhmm now = s.lastMinute then s
  else if c.armDue now && !s.engine.armed then s.scheduledArm available now
  else if c.disarmDue now && s.engine.armed then s.scheduledDisarm c now
  else s

/-- What can happen. -/
inductive ScheduleEvent
  /-- The loop wakes up. -/
  | poll (available : Bool) (now : ℕ)
  /-- A call by the route or the voice command changes the flag. -/
  | manual (active : Bool) (now : ℕ)
  /-- The summary of a scheduled disarming is there. -/
  | summarised (now : ℕ)
  deriving DecidableEq, Repr

/-- One step.  The clock does not go back, and the polls are at most 20 seconds apart. -/
@[grind =] def scheduleStep (c : Settings) (s : Scheduler) : ScheduleEvent → Option Scheduler
  | .poll available now =>
      if s.summarising = false ∧ s.clock ≤ now ∧ ∀ t ∈ s.lastPoll, t < now ∧ now ≤ t + 20 then
        some { poll c s available now with
          clock := now
          lastPoll := some now
          manual := if s.FirstPoll now then false else s.manual }
      else none
  | .manual active now =>
      if s.clock ≤ now then
        some { s with
          engine := if active then s.engine.arm (1000 * now) else s.engine.disarm
          clock := now
          manual := s.manual || (s.engine.armed != active && !decide (s.FirstPoll now)) }
      else none
  | .summarised now =>
      if s.summarising = true ∧ s.clock ≤ now then
        some { s with engine := s.engine.disarm, summarising := false, clock := now }
      else none

/-! ### What is to hold -/

/-- What the scheduler owes at one step.  At the first poll of a minute it follows the edge that is due
(a disarming one at the latest when the summary is there); when the device was switched by hand since
that poll, inside the minute, it neither switches the device nor sets about it. -/
def Keeps (c : Settings) (s : Scheduler) : ScheduleEvent → Scheduler → Prop
  | .poll available now, t =>
      (s.FirstPoll now → c.armDue now = true → s.engine.armed = false → available = true →
        t.engine.armed = true) ∧
      (s.FirstPoll now → c.disarmDue now = true → s.engine.armed = true →
        t.engine.armed = false ∨ t.summarising = true) ∧
      (¬ s.FirstPoll now → s.manual = true →
        t.engine.armed = s.engine.armed ∧ t.summarising = false)
  | .summarised _, t => s.manual = true → t.engine.armed = s.engine.armed
  | .manual _ _, _ => True

/-- **The schedule fires every day**, and does not fight the hand. -/
def FiresEveryDay (c : Settings) (initial : Scheduler) (es : List ScheduleEvent) : Prop :=
  ∀ s e t, Occurs (scheduleStep c) initial es s e → scheduleStep c s e = some t → Keeps c s e t

/-- The scheduler last acted at the time of day of `now`, on this day or an earlier one. -/
def Scheduler.LastActedAt (s : Scheduler) (now : ℕ) : Prop :=
  ∃ t ∈ s.acted, minuteOfDay t = minuteOfDay now

instance (s : Scheduler) (now : ℕ) : Decidable (s.LastActedAt now) :=
  inferInstanceAs (Decidable (∃ t ∈ s.acted, minuteOfDay t = minuteOfDay now))

/-- An edge is due that would switch the device. -/
def Wants (c : Settings) (s : Scheduler) (available : Bool) (now : ℕ) : Prop :=
  (c.armDue now = true ∧ s.engine.armed = false ∧ available = true) ∨
    (c.disarmDue now = true ∧ s.engine.armed = true)

instance (c : Settings) (s : Scheduler) (available : Bool) (now : ℕ) :
    Decidable (Wants c s available now) :=
  inferInstanceAs (Decidable ((c.armDue now = true ∧ s.engine.armed = false ∧ available = true) ∨
    (c.disarmDue now = true ∧ s.engine.armed = true)))

/-- **The steps at which the kept time of day says what it is kept for**: when an edge would switch the
device at the first poll of a minute, the scheduler did not last act at this time of day; when one would
at a later poll, after the device was switched by hand, it did; and a device that was switched by hand
while the summary was written is not armed when it is there. -/
def WellLatched (c : Settings) (s : Scheduler) : ScheduleEvent → Prop
  | .poll available now => Wants c s available now →
      (s.FirstPoll now → ¬ s.LastActedAt now) ∧
      (¬ s.FirstPoll now → s.manual = true → s.LastActedAt now)
  | .summarised _ => s.manual = true → s.engine.armed = false
  | .manual _ _ => True

instance (c : Settings) (s : Scheduler) : DecidablePred (WellLatched c s)
  | .poll available now => inferInstanceAs (Decidable (Wants c s available now →
      (s.FirstPoll now → ¬ s.LastActedAt now) ∧
      (¬ s.FirstPoll now → s.manual = true → s.LastActedAt now)))
  | .summarised _ => inferInstanceAs (Decidable (s.manual = true → s.engine.armed = false))
  | .manual _ _ => inferInstanceAs (Decidable True)

/-! ### One step -/

theorem scheduleFires_nil (nowHhmm : List Char) (weekday : ℕ) (weekdaysOnly : Bool) :
    scheduleFires [] nowHhmm weekday weekdaysOnly = false := rfl

/-- **What one turn of the loop does**: nothing, or it arms, or it disarms. -/
theorem poll_cases (c : Settings) (s : Scheduler) (available : Bool) (now : ℕ) :
    (poll c s available now = s ∧ (hhmm now = s.lastMinute ∨
      ¬ (c.armDue now = true ∧ s.engine.armed = false) ∧
      ¬ (c.disarmDue now = true ∧ s.engine.armed = true))) ∨
    (hhmm now ≠ s.lastMinute ∧ c.armDue now = true ∧ s.engine.armed = false ∧
      poll c s available now = s.scheduledArm available now) ∨
    (hhmm now ≠ s.lastMinute ∧ c.disarmDue now = true ∧ s.engine.armed = true ∧
      poll c s available now = s.scheduledDisarm c now) := by
  unfold poll
  split_ifs with hempty hlatched harm hdisarm
  · -- without settings no edge is due
    rw [Bool.and_eq_true, List.isEmpty_iff, List.isEmpty_iff] at hempty
    refine .inl ⟨rfl, .inr ⟨?_, ?_⟩⟩
    · rintro ⟨h, -⟩
      rw [Settings.armDue, hempty.1, scheduleFires_nil] at h
      cases h
    · rintro ⟨h, -⟩
      rw [Settings.disarmDue, hempty.2, scheduleFires_nil] at h
      cases h
  · exact .inl ⟨rfl, .inl hlatched⟩
  · rw [Bool.and_eq_true, Bool.not_eq_true'] at harm
    exact .inr (.inl ⟨hlatched, harm.1, harm.2, rfl⟩)
  · rw [Bool.and_eq_true] at hdisarm
    exact .inr (.inr ⟨hlatched, hdisarm.1, hdisarm.2, rfl⟩)
  · refine .inl ⟨rfl, .inr ⟨?_, ?_⟩⟩
    · rintro ⟨h, h'⟩
      simp [h, h'] at harm
    · rintro ⟨h, h'⟩
      simp [h, h'] at hdisarm

/-- **What is kept**: the text of the minute in which the scheduler last acted. -/
def Scheduler.Latched (s : Scheduler) : Prop := s.lastMinute = (s.acted.map hhmm).getD []

theorem Scheduler.Latched.iff {s : Scheduler} (h : s.Latched) (now : ℕ) :
    hhmm now = s.lastMinute ↔ s.LastActedAt now := by
  unfold Latched at h
  unfold LastActedAt
  rw [h]
  cases s.acted with
  | none => simp [hhmm_ne_nil]
  | some t => simp [hhmm_inj, eq_comm]

theorem latched_poll {c : Settings} {s : Scheduler} {available : Bool} {now : ℕ}
    (hs : s.Latched) : (poll c s available now).Latched := by
  rcases poll_cases c s available now with ⟨h, -⟩ | ⟨-, -, -, h⟩ | ⟨-, -, -, h⟩ <;> rw [h]
  · exact hs
  · exact rfl
  · exact rfl

/-- Every step keeps the time of day at which the scheduler last acted. -/
theorem latched_scheduleStep {c : Settings} {s t : Scheduler} {e : ScheduleEvent} (hs : s.Latched)
    (h : scheduleStep c s e = some t) : t.Latched := by
  cases e with
  | poll available now =>
      rw [scheduleStep, Option.ite_none_right_eq_some] at h
      cases h.2
      exact latched_poll (c := c) hs
  | manual active now =>
      rw [scheduleStep, Option.ite_none_right_eq_some] at h
      cases h.2
      exact hs
  | summarised now =>
      rw [scheduleStep, Option.ite_none_right_eq_some] at h
      cases h.2
      exact hs

/-- A poll does what it owes exactly where it is well latched. -/
theorem keeps_poll_iff {c : Settings} {s t : Scheduler} {available : Bool} {now : ℕ}
    (hs : s.Latched) (h : scheduleStep c s (.poll available now) = some t) :
    Keeps c s (.poll available now) t ↔ WellLatched c s (.poll available now) := by
  rw [scheduleStep, Option.ite_none_right_eq_some] at h
  obtain ⟨⟨hidle, -, -⟩, h⟩ := h
  cases h
  simp only [Keeps, WellLatched, Wants, ← hs.iff now]
  rcases poll_cases c s available now with ⟨hpoll, hwhy⟩ | ⟨hnot, hdue, harmed, hpoll⟩ |
    ⟨hnot, hdue, harmed, hpoll⟩
  · -- nothing is done: the minute was kept, or no edge would switch the device
    rw [hpoll]
    rcases hwhy with hkept | ⟨harm, hdisarm⟩
    · cases harmed : s.engine.armed <;> simp [hkept, hidle] <;> grind
    · cases harmed : s.engine.armed <;> simp_all
  · rw [hpoll]
    cases available <;> simp [hnot, hdue, harmed, hidle, Scheduler.scheduledArm]
  · rw [hpoll]
    cases hsummary : c.summaryOnDisarm <;>
      simp [hnot, hdue, harmed, hsummary, Scheduler.scheduledDisarm]

/-- **The scheduler does what it owes at one step exactly where it is well latched.** -/
theorem keeps_iff {c : Settings} {s t : Scheduler} {e : ScheduleEvent} (hs : s.Latched)
    (h : scheduleStep c s e = some t) : Keeps c s e t ↔ WellLatched c s e := by
  cases e with
  | poll available now => exact keeps_poll_iff hs h
  | manual active now => exact Iff.rfl
  | summarised now =>
      rw [scheduleStep, Option.ite_none_right_eq_some] at h
      cases h.2
      exact forall_congr' fun _ => eq_comm

/-! ### Every history -/

/-- The loop when it is started: nothing was polled, and nothing is kept. -/
structure JustStarted (s : Scheduler) : Prop where
  lastMinute : s.lastMinute = []
  summarising : s.summarising = false
  lastPoll : s.lastPoll = none
  acted : s.acted = none
  manual : s.manual = false

/-- **When the schedule fires every day**: in the histories in which every step is well latched, and in
no others. -/
theorem firesEveryDay_iff {c : Settings} {initial : Scheduler} {es : List ScheduleEvent}
    (hstart : JustStarted initial) :
    FiresEveryDay c initial es ↔
      ∀ s e t, Occurs (scheduleStep c) initial es s e → scheduleStep c s e = some t →
        WellLatched c s e := by
  have hlatched : ∀ s e, Occurs (scheduleStep c) initial es s e → s.Latched := fun s e h =>
    occurs_invariant (fun _ _ _ hs => latched_scheduleStep hs)
      (by rw [Scheduler.Latched, hstart.lastMinute, hstart.acted]; rfl) h
  constructor
  · intro h s e t hoccurs ht
    exact (keeps_iff (hlatched s e hoccurs) ht).1 (h s e t hoccurs ht)
  · intro h s e t hoccurs ht
    exact (keeps_iff (hlatched s e hoccurs) ht).2 (h s e t hoccurs ht)

/-- Armed at eight and disarmed at nine, on working days. -/
def eightToNine : Settings := ⟨"08:00".toList, "09:00".toList, true, false⟩

/-- A Monday at eight: the scheduler arms, the device is disarmed by hand, and stays so at the next
poll. -/
def mondayAtEight : List ScheduleEvent :=
  [.poll true 28800, .manual false 28810, .poll true 28820]

theorem firesEveryDay_mondayAtEight :
    FiresEveryDay eightToNine { engine := {} } mondayAtEight ∧
      (exec (scheduleStep eightToNine) { engine := {} } mondayAtEight).isSome = true :=
  ⟨(firesEveryDay_iff ⟨rfl, rfl, rfl, rfl, rfl⟩).2 fun s e _ h _ => of_decide_eq_true
    (forall_occurs_of_along (p := fun s e => decide (WellLatched eightToNine s e))
      (by decide) s e h), by decide⟩

/-! ### A schedule with one edge -/

/-- **A scheduler with an arming time only acts once**: when it has acted, it does nothing at any later
poll of any day. -/
theorem acted_of_armOnly {c : Settings} (hc : c.scheduleDisarm = []) {s : Scheduler}
    (hkept : s.lastMinute = c.scheduleArm) (available : Bool) (now : ℕ) :
    poll c s available now = s := by
  rcases poll_cases c s available now with ⟨h, -⟩ | ⟨hnot, hdue, -, -⟩ | ⟨-, hdue, -, -⟩
  · exact h
  · rw [Settings.armDue, scheduleFires] at hdue
    split at hdue
    · cases hdue
    · rename_i h
      simp only [Bool.or_eq_true, bne_iff_ne, ne_eq, not_or, not_not] at h
      exact absurd (hkept.trans h.2).symm hnot
  · rw [Settings.disarmDue, hc, scheduleFires_nil] at hdue
    cases hdue

/-- Polls every 20 seconds, `n` of them, after the one at `now`. -/
def pollsAfter (now : ℕ) : ℕ → List ScheduleEvent
  | 0 => []
  | n + 1 => .poll true (now + 20) :: pollsAfter (now + 20) n

/-- They do nothing, for any number of days. -/
theorem exec_pollsAfter {c : Settings} (hc : c.scheduleDisarm = []) (n : ℕ) :
    ∀ (s : Scheduler) (now : ℕ), s.lastMinute = c.scheduleArm → s.summarising = false →
      s.clock ≤ now + 20 → s.lastPoll = some now →
      ∃ t, exec (scheduleStep c) s (pollsAfter now n) = some t ∧ t.engine = s.engine ∧
        t.lastMinute = c.scheduleArm ∧ t.summarising = false ∧ t.clock ≤ now + 20 * n + 20 ∧
        t.lastPoll = some (now + 20 * n) := by
  induction n with
  | zero =>
      intro s now hkept hsummary hclock hpoll
      exact ⟨s, rfl, rfl, hkept, hsummary, hclock, hpoll⟩
  | succ n ih =>
      intro s now hkept hsummary hclock hpoll
      have hstep : scheduleStep c s (.poll true (now + 20)) = some { s with
          clock := now + 20
          lastPoll := some (now + 20)
          manual := if s.FirstPoll (now + 20) then false else s.manual } := by
        rw [scheduleStep, if_pos ⟨hsummary, hclock, by simp [hpoll]⟩, acted_of_armOnly hc hkept]
      obtain ⟨t, ht, hengine, hkept', hsummary', hclock', hpoll'⟩ :=
        ih { s with
          clock := now + 20
          lastPoll := some (now + 20)
          manual := if s.FirstPoll (now + 20) then false else s.manual }
          (now + 20) hkept hsummary (Nat.le_add_right _ 20) rfl
      refine ⟨t, ?_, hengine, hkept', hsummary', by omega, ?_⟩
      · rw [pollsAfter, exec_cons, hstep]
        exact ht
      · rw [hpoll', Nat.mul_succ]
        congr 1
        omega

/-- Armed at eight, and disarmed by hand. -/
def armAtEight : Settings := ⟨"08:00".toList, [], false, false⟩

/-- The loop after the scheduler has armed on Monday at eight and the device was disarmed by hand. -/
def mondayMorning : Scheduler :=
  { engine := {}, lastMinute := "08:00".toList, clock := 28810, lastPoll := some 28800,
    acted := some 28800, manual := true }

/-- When the polls until Tuesday at eight have done nothing, nothing is done at eight. -/
theorem not_keeps_tuesday {u : Scheduler} (hengine : u.engine = mondayMorning.engine)
    (hkept : u.lastMinute = armAtEight.scheduleArm) (hsummary : u.summarising = false)
    (hclock : u.clock ≤ 115200) (hpoll : u.lastPoll = some 115180) :
    ∃ t, scheduleStep armAtEight u (.poll true 115200) = some t ∧
      ¬ Keeps armAtEight u (.poll true 115200) t := by
  refine ⟨_, by rw [scheduleStep, if_pos ⟨hsummary, hclock, by simp [hpoll]⟩,
    acted_of_armOnly rfl hkept], ?_⟩
  intro h
  have hfirst : u.FirstPoll 115200 := by
    intro t ht
    rw [hpoll] at ht
    cases ht
    decide
  have harmed : u.engine.armed = false := by
    rw [hengine]
    rfl
  exact Bool.noConfusion (harmed.symm.trans (h.1 hfirst (by decide) harmed rfl))

/-- The scheduler arms on Monday at eight, the device is disarmed by hand, and the polls go on, 20
seconds apart, until Tuesday at eight. -/
def untilTuesday : List ScheduleEvent :=
  [.poll true 28800, .manual false 28810] ++ (pollsAfter 28800 4319 ++ [.poll true 115200])

/-- **The schedule does not fire on the second day**: at the first poll of the minute the device is not
armed, arming is available, and it is not armed after it. -/
theorem not_firesEveryDay_untilTuesday :
    ¬ FiresEveryDay armAtEight { engine := {} } untilTuesday := by
  obtain ⟨u, hu, hengine, hkept, hsummary, hclock, hpoll⟩ :=
    exec_pollsAfter (c := armAtEight) rfl 4319 mondayMorning 28800 rfl rfl (by decide) rfl
  obtain ⟨t, ht, hnot⟩ := not_keeps_tuesday hengine hkept hsummary hclock hpoll
  have hmonday : exec (scheduleStep armAtEight) { engine := {} }
      [.poll true 28800, .manual false 28810] = some mondayMorning := by decide
  intro h
  refine hnot (h u _ t ⟨[.poll true 28800, .manual false 28810] ++ pollsAfter 28800 4319, ?_, ?_⟩ ht)
  · exact ⟨[], (List.append_nil _).trans (List.append_assoc _ _ _)⟩
  · rw [exec_append, hmonday, Option.bind_some, hu]

end Away

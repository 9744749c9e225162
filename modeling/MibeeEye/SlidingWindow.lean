/-
**The rate of the calls that are let through.**

The limiter counts in windows that follow each other, while the limit is documented for every window.
The calls at the end of one window and those at the beginning of the next are together more than the
limit allows, and a limit of zero lets a first call through.  Where a window begins, the limit holds if it
is not zero and the calls let through before are as old as a window is long.

Main definitions:

* `RateLimit.SlidingBound` — what is to hold;
* `RateLimit.Calm` — the calls that begin no window too early.

Main results:

* `RateLimit.inv_count`, `RateLimit.inv_begin` — the invariant is kept by a call of the key;
* `RateLimit.inv_callStep` — **and by every call that begins no window too early**;
* `RateLimit.slidingBound_of_calm` — the limit holds in a run of such calls.
-/

import MibeeEye.RateLimit

set_option relaxedAutoImplicit false
set_option autoImplicit false

namespace RateLimit

open Machine

/-! ### What is to hold -/

/-- The call is one for the key, in the window that begins at `a`. -/
def Call.within (key : String) (a windowSecs : ℕ) (c : Call) : Bool :=
  decide (c.ip = key) && decide (a ≤ c.now) && decide (c.now < a + windowSecs)

/-- The call is one for the key, since `a`. -/
def Call.since (key : String) (a : ℕ) (c : Call) : Bool := decide (c.ip = key) && decide (a ≤ c.now)

/-- What is to hold of the calls that were let through: in every window there are at most `max` of the
key. -/
def SlidingBound (key : String) (max windowSecs : ℕ) (s : Limiter) : Prop :=
  ∀ a, s.accepted.countP (Call.within key a windowSecs) ≤ max

/-- The call does not begin a window of the key, or begins one when the limit is not zero and no call of
the key was let through for as long as a window is. -/
def Calm (key : String) (s : Limiter) (c : Call) : Prop :=
  c.ip = key → beginsWindow s.table c.now c.ip c.windowSecs = true →
    1 ≤ c.max ∧ ∀ c' ∈ s.accepted, c'.ip = key → c'.now + c.windowSecs ≤ c.now

instance (key : String) (s : Limiter) : DecidablePred (Calm key s) := fun c =>
  inferInstanceAs (Decidable (c.ip = key → beginsWindow s.table c.now c.ip c.windowSecs = true →
    1 ≤ c.max ∧ ∀ c' ∈ s.accepted, c'.ip = key → c'.now + c.windowSecs ≤ c.now))

/-! ### The invariant -/

/-- What the entry of the key says of the calls that were let through: they are in its window, and
counted, or older than it by as much as a window is long. -/
structure Counts (key : String) (windowSecs : ℕ) (accepted : List Call) (entry : RateLimitEntry) :
    Prop where
  counted : accepted.countP (Call.since key entry.windowStart) ≤ entry.count
  older : ∀ c ∈ accepted, c.ip = key →
    c.now + windowSecs ≤ entry.windowStart ∨ entry.windowStart ≤ c.now

/-- What the steps keep. -/
structure Inv (key : String) (max windowSecs : ℕ) (s : Limiter) : Prop where
  bound : SlidingBound key max windowSecs s
  past : ∀ c ∈ s.accepted, c.now ≤ s.clock
  entry : ∀ entry, s.table.find? key = some (key, entry) →
    entry.windowStart ≤ s.clock ∧ Counts key windowSecs s.accepted entry

variable {key : String} {max windowSecs : ℕ} {s t : Limiter} {c : Call}

theorem inv_initial (key : String) (max windowSecs : ℕ) : Inv key max windowSecs {} := by
  refine ⟨fun _ => Nat.zero_le _, ?_, ?_⟩
  · intro c hc
    exact absurd hc List.not_mem_nil
  · intro entry hentry
    cases hentry

/-- The entries that are left, later on. -/
theorem Inv.entry_prune (hs : Inv key max windowSecs s) {now w : ℕ} (hclock : s.clock ≤ now)
    {entry : RateLimitEntry} (h : (prune s.table now w).find? key = some (key, entry)) :
    entry.windowStart ≤ now ∧ Counts key windowSecs s.accepted entry := by
  rcases find?_prune s.table now w key with hsame | ⟨hnone, -⟩
  · obtain ⟨hstart, hcounts⟩ := hs.entry entry (hsame.symm.trans h)
    exact ⟨hstart.trans hclock, hcounts⟩
  · rw [hnone] at h
    cases h

/-- A call of another key does not count. -/
theorem Counts.of_ne {entry : RateLimitEntry} {accepted : List Call}
    (h : Counts key windowSecs accepted entry) (hne : c.ip ≠ key) :
    Counts key windowSecs (c :: accepted) entry := by
  refine ⟨?_, ?_⟩
  · rw [List.countP_cons_of_neg (by simp [Call.since, hne])]
    exact h.counted
  · intro c' hc' hkey
    rcases List.mem_cons.1 hc' with rfl | hc'
    · exact absurd hkey hne
    · exact h.older c' hc' hkey

/-- A list of calls with one more, in any window. -/
theorem countP_within_cons_le {accepted : List Call} {a : ℕ}
    (hbound : accepted.countP (Call.within key a windowSecs) ≤ max)
    (h : c.ip = key → a ≤ c.now → c.now < a + windowSecs →
      accepted.countP (Call.within key a windowSecs) + 1 ≤ max) :
    (c :: accepted).countP (Call.within key a windowSecs) ≤ max := by
  by_cases hc : Call.within key a windowSecs c = true
  · rw [List.countP_cons_of_pos hc]
    simp only [Call.within, Bool.and_eq_true, decide_eq_true_eq] at hc
    exact h hc.1.1 hc.1.2 hc.2
  · rw [List.countP_cons_of_neg hc]
    exact hbound

/-! ### Every call -/

/-- A call of another key. -/
theorem inv_of_ne (hs : Inv key max windowSecs s) (hne : c.ip ≠ key) (h : callStep s c = some t) :
    Inv key max windowSecs t := by
  obtain ⟨hclock, hnow, htable, haccepted⟩ := of_callStep h
  have hentry : ∀ entry, t.table.find? key = some (key, entry) →
      entry.windowStart ≤ t.clock ∧ Counts key windowSecs s.accepted entry := by
    intro entry hfind
    rw [htable, find?_checkRateLimit_of_ne hne] at hfind
    rw [hnow]
    exact hs.entry_prune hclock hfind
  have hpast : ∀ c' ∈ s.accepted, c'.now ≤ t.clock := by
    intro c' hc'
    rw [hnow]
    exact (hs.past c' hc').trans hclock
  cases hok : (checkRateLimit s.table c.now c.ip c.max c.windowSecs).1 with
  | false =>
      rw [hok] at haccepted
      refine ⟨fun a => ?_, ?_, ?_⟩
      · rw [haccepted]
        exact hs.bound a
      · rw [haccepted]
        exact hpast
      · rw [haccepted]
        exact hentry
  | true =>
      rw [hok] at haccepted
      refine ⟨fun a => ?_, ?_, ?_⟩
      · rw [haccepted]
        exact countP_within_cons_le (hs.bound a) fun hkey => absurd hkey hne
      · rw [haccepted]
        intro c' hc'
        rcases List.mem_cons.1 hc' with rfl | hc'
        · exact hnow.ge
        · exact hpast c' hc'
      · rw [haccepted]
        intro entry hfind
        obtain ⟨hstart, hcounts⟩ := hentry entry hfind
        exact ⟨hstart, hcounts.of_ne hne⟩

/-- A call of the key that is refused. -/
theorem inv_refuse (hs : Inv key max windowSecs s) {now : ℕ} (hclock : s.clock ≤ now) :
    Inv key max windowSecs
      { table := prune s.table now windowSecs, clock := now, accepted := s.accepted } :=
  ⟨hs.bound, fun c' hc' => (hs.past c' hc').trans hclock, fun _ => hs.entry_prune hclock⟩

/-- The entry of the key is what was stored for it. -/
theorem eq_of_find?_upsert {state : State} {entry entry' : RateLimitEntry}
    (h : (state.upsert (key, entry)).find? key = some (key, entry')) : entry' = entry := by
  rw [Keyed.Table.find?_upsert, if_pos rfl, Option.some.injEq, Prod.mk.injEq] at h
  exact h.2.symm

/-- **A call that is counted in the window of the key.** -/
theorem inv_count (hs : Inv key max windowSecs s) {now : ℕ} (hclock : s.clock ≤ now)
    {state : State} {entry : RateLimitEntry} (hstart : entry.windowStart ≤ now)
    (hcounts : Counts key windowSecs s.accepted entry) (hcount : entry.count < max)
    (hkey : c.ip = key) (hnow : c.now = now) :
    Inv key max windowSecs
      { table := state.upsert (key, { entry with count := entry.count + 1 })
        clock := now
        accepted := c :: s.accepted } := by
  refine ⟨fun a => countP_within_cons_le (hs.bound a) fun _ hlow hhigh => ?_, ?_, ?_⟩
  · -- in a window with this call, the earlier ones are those of the window of the entry
    have hle : s.accepted.countP (Call.within key a windowSecs) ≤
        s.accepted.countP (Call.since key entry.windowStart) := by
      refine List.countP_mono_left fun c' hc' hwithin => ?_
      simp only [Call.within, Bool.and_eq_true, decide_eq_true_eq] at hwithin
      obtain ⟨⟨hkey', hlow'⟩, -⟩ := hwithin
      rcases hcounts.older c' hc' hkey' with hold | hyoung
      · omega
      · simp [Call.since, hkey', hyoung]
    have hcounted := hcounts.counted
    omega
  · intro c' hc'
    rcases List.mem_cons.1 hc' with rfl | hc'
    · exact hnow.le
    · exact (hs.past c' hc').trans hclock
  · intro entry' hfind
    rw [eq_of_find?_upsert hfind]
    refine ⟨hstart, ?_, ?_⟩
    · rw [List.countP_cons_of_pos (by simp [Call.since, hkey, hnow, hstart])]
      exact Nat.succ_le_succ hcounts.counted
    · intro c' hc' hkey'
      rcases List.mem_cons.1 hc' with rfl | hc'
      · exact Or.inr (hstart.trans hnow.ge)
      · exact hcounts.older c' hc' hkey'

/-- **A call that begins a window of the key**, when those before are as old as a window is long. -/
theorem inv_begin (hs : Inv key max windowSecs s) {now : ℕ} (hclock : s.clock ≤ now)
    {state : State} (hmax : 1 ≤ max) (hwindow : 1 ≤ windowSecs)
    (hold : ∀ c' ∈ s.accepted, c'.ip = key → c'.now + windowSecs ≤ now)
    (hkey : c.ip = key) (hnow : c.now = now) :
    Inv key max windowSecs
      { table := state.upsert (key, ⟨1, now⟩), clock := now, accepted := c :: s.accepted } := by
  refine ⟨fun a => countP_within_cons_le (hs.bound a) fun _ hlow hhigh => ?_, ?_, ?_⟩
  · have hnone : s.accepted.countP (Call.within key a windowSecs) = 0 := by
      refine List.countP_eq_zero.2 fun c' hc' hwithin => ?_
      simp only [Call.within, Bool.and_eq_true, decide_eq_true_eq] at hwithin
      have hbefore := hold c' hc' hwithin.1.1
      omega
    omega
  · intro c' hc'
    rcases List.mem_cons.1 hc' with rfl | hc'
    · exact hnow.le
    · exact (hs.past c' hc').trans hclock
  · intro entry hfind
    rw [eq_of_find?_upsert hfind]
    refine ⟨le_rfl, ?_, ?_⟩
    · have hnone : s.accepted.countP (Call.since key now) = 0 := by
        refine List.countP_eq_zero.2 fun c' hc' hsince => ?_
        simp only [Call.since, Bool.and_eq_true, decide_eq_true_eq] at hsince
        have hbefore := hold c' hc' hsince.1
        omega
      rw [List.countP_cons_of_pos (by simp [Call.since, hkey, hnow]), hnone]
    · intro c' hc' hkey'
      rcases List.mem_cons.1 hc' with rfl | hc'
      · exact Or.inr hnow.ge
      · exact Or.inl (hold c' hc' hkey')

/-- **Every call that begins no window too early keeps the invariant.** -/
theorem inv_callStep (hwindow : 1 ≤ windowSecs)
    (hconsistent : c.ip = key → c.max = max ∧ c.windowSecs = windowSecs) (hcalm : Calm key s c)
    (hs : Inv key max windowSecs s) (h : callStep s c = some t) : Inv key max windowSecs t := by
  by_cases hkey : c.ip = key
  · obtain ⟨hmax, hsecs⟩ := hconsistent hkey
    rw [callStep, Option.ite_none_right_eq_some] at h
    obtain ⟨hclock, h⟩ := h
    rcases checkRateLimit_cases s.table c.now c.ip c.max c.windowSecs with
      ⟨hcall, -⟩ | ⟨entry, hfind, -, hcount, -, hcall⟩ | ⟨hbegins, -, hcall⟩
    · rw [hcall] at h
      cases h
      rw [hsecs]
      exact inv_refuse hs hclock
    · rw [hcall] at h
      cases h
      rw [hkey] at hfind ⊢
      obtain ⟨hstart, hcounts⟩ := hs.entry_prune hclock hfind
      exact inv_count hs hclock hstart hcounts (hmax ▸ hcount) hkey rfl
    · rw [hcall] at h
      cases h
      obtain ⟨hpos, hold⟩ := hcalm hkey hbegins
      rw [hsecs] at hold
      rw [hkey]
      exact inv_begin hs hclock (hmax ▸ hpos) hwindow hold hkey rfl
  · exact inv_of_ne hs hkey h

/-! ### Every run -/

/-- **The limit holds in a run whose calls of the key begin no window too early**: when the limit is not
zero, and no call of the key was let through for as long as a window is. -/
theorem slidingBound_of_calm {cs : List Call} (hwindow : 1 ≤ windowSecs)
    (hconsistent : ∀ c ∈ cs, c.ip = key → c.max = max ∧ c.windowSecs = windowSecs)
    (hcalm : ∀ s c, Occurs callStep {} cs s c → Calm key s c) (h : Passes callStep {} cs s) :
    SlidingBound key max windowSecs s := by
  refine (passes_induction (I := Inv key max windowSecs) ?_ (inv_initial key max windowSecs) h).bound
  intro u c v hoccurs hu hv
  exact inv_callStep hwindow (hconsistent c hoccurs.mem) (hcalm u c hoccurs) hu hv

/-- Two calls a minute; the third one comes a minute after the second. -/
def quietCalls : List Call :=
  [⟨0, "k", 2, 60⟩, ⟨30, "other", 1, 5⟩, ⟨59, "k", 2, 60⟩, ⟨119, "k", 2, 60⟩]

/-- The limit holds after these calls. -/
theorem slidingBound_quietCalls : ∃ s, exec callStep {} quietCalls = some s ∧
    s.accepted.length = 4 ∧ SlidingBound "k" 2 60 s := by
  have hcheck : (exec callStep {} quietCalls).any (fun s => decide (s.accepted.length = 4)) = true := by
    decide
  obtain ⟨s, hs, hlength⟩ := (Option.any_eq_true _ _).1 hcheck
  have hcalm : along callStep (fun s c => decide (Calm "k" s c)) {} quietCalls = true := by decide
  exact ⟨s, hs, of_decide_eq_true hlength, slidingBound_of_calm (by decide) (by decide)
    (fun u c hoccurs => of_decide_eq_true (forall_occurs_of_along hcalm u c hoccurs)) ⟨quietCalls, List.prefix_rfl, hs⟩⟩

/-- Two calls a minute, one of them at the end of a minute, and two at the beginning of the next. -/
def burstCalls : List Call :=
  [⟨0, "k", 2, 60⟩, ⟨59, "k", 2, 60⟩, ⟨60, "k", 2, 60⟩, ⟨60, "k", 2, 60⟩]

/-- Three of these calls are let through in two seconds. -/
theorem not_slidingBound_burstCalls :
    ¬ ∀ s, Passes callStep {} burstCalls s → SlidingBound "k" 2 60 s := by
  intro h
  have hcheck : (exec callStep {} burstCalls).any
      (fun s => decide (s.accepted.countP (Call.within "k" 59 60) = 3)) = true := by decide
  obtain ⟨s, hs, hthree⟩ := (Option.any_eq_true _ _).1 hcheck
  have hbound := h s ⟨burstCalls, List.prefix_rfl, hs⟩ 59
  rw [of_decide_eq_true hthree] at hbound
  omega

end RateLimit

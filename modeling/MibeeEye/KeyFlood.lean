/-
**A client key among others.**

The calls of the other keys leave the entry of a key as it is, or remove it.  They can also fill the
table, and a full table refuses every call: not only that of a new key, as it says, but that of a key in
the table too.  A call of a key with a count below the limit is let through exactly if there is room in the
table.

Main definitions:

* `RateLimit.Served` — what is to hold of a call;
* `RateLimit.flood` — calls of many keys at one time.

Main results:

* `RateLimit.find?_exec_of_others` — the entry of a key after calls of other keys;
* `RateLimit.checkRateLimit_below` — **which calls below the limit are let through**;
* `RateLimit.served_iff` — when a call is served, after any calls of other keys;
* `RateLimit.exec_flood` — the table after a flood.
-/

import MibeeEye.RateLimit

set_option relaxedAutoImplicit false
set_option autoImplicit false

namespace RateLimit

open Machine

variable {key : String} {s t : Limiter} {c : Call} {entry : RateLimitEntry} {state : State}
  {now max windowSecs : ℕ}

/-! ### The other keys -/

/-- The entry of a key is as it was, or was removed. -/
def KeptOrGone (key : String) (entry : RateLimitEntry) (s : Limiter) : Prop :=
  s.table.find? key = some (key, entry) ∨ s.table.find? key = none

theorem keptOrGone_callStep (hs : KeptOrGone key entry s) (hne : c.ip ≠ key)
    (h : callStep s c = some t) : KeptOrGone key entry t := by
  obtain ⟨-, -, htable, -⟩ := of_callStep h
  have hfind : t.table.find? key = (prune s.table c.now c.windowSecs).find? key := by
    rw [htable]
    exact find?_checkRateLimit_of_ne hne
  rcases find?_prune s.table c.now c.windowSecs key with hsame | ⟨hnone, -⟩
  · rw [KeptOrGone, hfind, hsame]
    exact hs
  · exact Or.inr (hfind.trans hnone)

/-- **The entry of a key after calls of other keys.** -/
theorem find?_exec_of_others {cs : List Call} (hs : s.table.find? key = some (key, entry))
    (hothers : ∀ c ∈ cs, c.ip ≠ key) (h : exec callStep s cs = some t) : KeptOrGone key entry t :=
  exec_invariant (I := KeptOrGone key entry) (P := fun c => c.ip ≠ key)
    (fun _ _ _ hne hs hstep => keptOrGone_callStep hs hne hstep) hothers (Or.inl hs) h

/-! ### A call below the limit -/

/-- **Which calls below the limit are let through**: those that find room in the table, whether the window
is over or not. -/
theorem checkRateLimit_below (hs : KeptOrGone key entry s) (hcount : entry.count < max)
    (now windowSecs : ℕ) :
    (checkRateLimit s.table now key max windowSecs).1 = true ↔
      (prune s.table now windowSecs).size < maxTrackedClients := by
  rcases checkRateLimit_cases s.table now key max windowSecs with
    ⟨hcall, hfull | ⟨entry', hfind, hmany⟩⟩ | ⟨entry', -, -, -, hroom, hcall⟩ | ⟨-, hroom, hcall⟩
  · rw [hcall]
    exact iff_of_false Bool.false_ne_true (Nat.not_lt.2 hfull)
  · -- the entry that was counted out would be the one that is below the limit
    have hsame : s.table.find? key = some (key, entry') := by
      rcases find?_prune s.table now windowSecs key with hsame | ⟨hnone, -⟩
      · exact hsame.symm.trans hfind
      · rw [hnone] at hfind
        cases hfind
    rcases hs with hkept | hgone
    · rw [hkept] at hsame
      cases hsame
      omega
    · rw [hgone] at hsame
      cases hsame
  · rw [hcall]
    exact iff_of_true rfl hroom
  · rw [hcall]
    exact iff_of_true rfl hroom

/-- What is to hold of a call after some others: it is let through, and the table never had more keys
than it may have. -/
def Served (cs : List Call) (c : Call) : Prop :=
  (∃ t, exec callStep {} cs = some t ∧
    (checkRateLimit t.table c.now c.ip c.max c.windowSecs).1 = true) ∧
  ∀ u, Passes callStep {} (cs ++ [c]) u → u.table.size ≤ maxTrackedClients

/-- **A call of a key with a count below the limit is served after any calls of other keys exactly if
there is room in the table.** -/
theorem served_iff {before cs : List Call} (hbefore : exec callStep {} before = some s)
    (hs : s.table.find? c.ip = some (c.ip, entry)) (hothers : ∀ c' ∈ cs, c'.ip ≠ c.ip)
    (ht : exec callStep s cs = some t) (hcount : entry.count < c.max) :
    Served (before ++ cs) c ↔ (prune t.table c.now c.windowSecs).size < maxTrackedClients := by
  have hrun : exec callStep {} (before ++ cs) = some t := by
    rw [exec_append, hbefore]
    exact ht
  have hcall := checkRateLimit_below (find?_exec_of_others hs hothers ht) hcount c.now c.windowSecs
  constructor
  · rintro ⟨⟨t', ht', htrue⟩, -⟩
    cases hrun.symm.trans ht'
    exact hcall.1 htrue
  · exact fun hroom => ⟨⟨t, hrun, hcall.2 hroom⟩, fun u hu => size_passes hu⟩

/-! ### A flood -/

/-- Nothing is removed when no entry has expired. -/
theorem prune_of_live (hlive : ∀ e ∈ state.rows, isWindowExpired e.2 now windowSecs = false) :
    prune state now windowSecs = state := by
  rw [prune]
  split
  · exact Keyed.Table.filter_eq_self fun e he => by simp [hlive e he]
  · rfl

/-- A call of a new key, when no entry has expired. -/
theorem checkRateLimit_new {ip : String} (hroom : state.size < maxTrackedClients)
    (hnew : ip ∉ state.rows.map Prod.fst)
    (hlive : ∀ e ∈ state.rows, isWindowExpired e.2 now windowSecs = false) :
    checkRateLimit state now ip max windowSecs = (true, state.upsert (ip, ⟨1, now⟩)) := by
  rw [checkRateLimit, prune_of_live hlive]
  simp only [if_neg (Nat.not_le.2 hroom), Keyed.Table.find?_eq_none_iff.2 hnew]

/-- The names of the keys. -/
def floodKey (i : ℕ) : String := String.ofList (List.replicate i 'x')

/-- Calls of `n` keys. -/
def flood (n : ℕ) : List Call := (List.range n).map fun i => ⟨0, floodKey i, 5, 60⟩

theorem floodKey_inj {i j : ℕ} (h : floodKey i = floodKey j) : i = j := by
  have hlists := congrArg String.toList h
  rw [floodKey, floodKey, String.toList_ofList, String.toList_ofList] at hlists
  have hlength := congrArg List.length hlists
  rwa [List.length_replicate, List.length_replicate] at hlength

theorem floodKey_ne (i : ℕ) : floodKey i ≠ "k" := by
  intro h
  have hlists := congrArg String.toList h
  rw [floodKey, String.toList_ofList] at hlists
  have hk : 'k' ∈ List.replicate i 'x' := hlists ▸ (by decide : 'k' ∈ "k".toList)
  exact absurd (List.eq_of_mem_replicate hk) (by decide)

/-- A table that a flood of `n` keys has left behind one call. -/
structure Flooded (n : ℕ) (s : Limiter) : Prop where
  clock : s.clock = 0
  size : s.table.size = n + 1
  first : s.table.find? "k" = some ("k", ⟨1, 0⟩)
  row : ∀ e ∈ s.table.rows, e.2.windowStart = 0 ∧ (e.1 = "k" ∨ ∃ i < n, e.1 = floodKey i)

/-- No entry has expired in the same second. -/
theorem Flooded.live {n : ℕ} (hs : Flooded n s) :
    ∀ e ∈ s.table.rows, isWindowExpired e.2 0 60 = false := by
  intro e he
  rw [isWindowExpired, (hs.row e he).1]
  decide

theorem flooded_succ {n : ℕ} (hs : Flooded n s) (hn : n + 1 < maxTrackedClients) :
    ∃ t, callStep s ⟨0, floodKey n, 5, 60⟩ = some t ∧ Flooded (n + 1) t := by
  have hnew : floodKey n ∉ s.table.rows.map Prod.fst := by
    intro hmem
    obtain ⟨e, he, hkey⟩ := List.mem_map.1 hmem
    rcases (hs.row e he).2 with hk | ⟨i, hi, hother⟩
    · exact floodKey_ne n (hkey.symm.trans hk)
    · exact absurd (floodKey_inj (hother.symm.trans hkey)) (Nat.ne_of_lt hi)
  have hcall : checkRateLimit s.table 0 (floodKey n) 5 60 = _ :=
    checkRateLimit_new (hs.size ▸ hn) hnew hs.live
  refine ⟨⟨s.table.upsert (floodKey n, ⟨1, 0⟩), 0, ⟨0, floodKey n, 5, 60⟩ :: s.accepted⟩, ?_, rfl, ?_,
    ?_, ?_⟩
  · rw [callStep, if_pos (Nat.le_of_eq hs.clock), hcall]
    rfl
  · exact (Keyed.Table.size_upsert_of_not_mem hnew).trans (congrArg (· + 1) hs.size)
  · rw [Keyed.Table.find?_upsert, if_neg (floodKey_ne n)]
    exact hs.first
  · intro e he
    rcases Keyed.Table.mem_upsert he with hold | rfl
    · obtain ⟨hstart, hk | ⟨i, hi, hother⟩⟩ := hs.row e hold
      · exact ⟨hstart, Or.inl hk⟩
      · exact ⟨hstart, Or.inr ⟨i, Nat.lt_succ_of_lt hi, hother⟩⟩
    · exact ⟨rfl, Or.inr ⟨n, Nat.lt_succ_self n, rfl⟩⟩

/-- **The table after a flood.** -/
theorem exec_flood (hs : Flooded 0 s) {n : ℕ} (hn : n < maxTrackedClients) :
    ∃ t, exec callStep s (flood n) = some t ∧ Flooded n t := by
  induction n with
  | zero => exact ⟨s, rfl, hs⟩
  | succ n ih =>
      obtain ⟨u, hu, hflooded⟩ := ih (Nat.lt_of_succ_lt hn)
      obtain ⟨t, ht, hnext⟩ := flooded_succ hflooded hn
      refine ⟨t, ?_, hnext⟩
      rw [flood, List.range_succ, List.map_append, ← flood, exec_append, hu, Option.bind_some,
        List.map_singleton, exec_cons, ht]
      rfl

/-! ### A key that is shut out -/

/-- The first call of a key. -/
def firstCall : Call := ⟨0, "k", 5, 60⟩

/-- The limiter after it. -/
def afterFirst : Limiter := ⟨Keyed.Table.upsert .empty ("k", ⟨1, 0⟩), 0, [firstCall]⟩

theorem exec_firstCall : exec callStep {} [firstCall] = some afterFirst := rfl

theorem flooded_afterFirst : Flooded 0 afterFirst := by
  refine ⟨rfl, rfl, by decide, ?_⟩
  intro e he
  obtain rfl : e = ("k", ⟨1, 0⟩) := List.mem_singleton.1 he
  exact ⟨rfl, Or.inl rfl⟩

/-- A second call is served after one of another key. -/
theorem served_second : Served ([firstCall] ++ [⟨1, "x", 3, 10⟩]) ⟨2, "k", 5, 60⟩ := by
  obtain ⟨t, ht⟩ : ∃ t, exec callStep afterFirst [⟨1, "x", 3, 10⟩] = some t := ⟨_, rfl⟩
  have hroom : (prune t.table 2 60).size < maxTrackedClients := by
    cases ht
    decide
  exact (served_iff exec_firstCall flooded_afterFirst.first (by decide) ht (by decide)).2 hroom

/-- It is not after a flood of 8191 other keys. -/
theorem not_served_flood : ¬ ∀ cs t, (∀ c ∈ cs, c.ip ≠ "k") → exec callStep afterFirst cs = some t →
    Served ([firstCall] ++ cs) firstCall := by
  intro h
  obtain ⟨t, ht, hflooded⟩ := exec_flood (n := 8191) flooded_afterFirst (by decide)
  have hothers : ∀ c ∈ flood 8191, c.ip ≠ "k" := by
    intro c hc
    obtain ⟨i, -, rfl⟩ := List.mem_map.1 hc
    exact floodKey_ne i
  obtain ⟨⟨t', ht', htrue⟩, -⟩ := h (flood 8191) t hothers ht
  rw [exec_append, exec_firstCall, Option.bind_some, ht] at ht'
  rw [← Option.some.inj ht'] at htrue
  have hroom : (prune t.table 0 60).size < maxTrackedClients :=
    (checkRateLimit_below (Or.inl hflooded.first) (by decide) 0 60).1 htrue
  rw [prune_of_live hflooded.live, hflooded.size] at hroom
  exact absurd hroom (by decide)

end RateLimit

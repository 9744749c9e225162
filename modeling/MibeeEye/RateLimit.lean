/-
**The rate limiter.**

`check_rate_limit` of `crates/security/src/rate_limit.rs` counts the calls of every client key in a
window that begins with the first of them.  The table of the keys is shared: once it is half full, every
call first removes the entries that would have expired with the window of this call, and when it is full
all the same, the call is refused.

Main definitions:

* `RateLimit.State`, `RateLimit.checkRateLimit` — the table and a call;
* `RateLimit.beginsWindow` — the calls that begin a window;
* `RateLimit.Limiter`, `RateLimit.callStep` — calls one after another, with a list of those that were
  let through.

Main results:

* `RateLimit.checkRateLimit_cases` — **what a call can do**;
* `RateLimit.size_checkRateLimit` — the table does not outgrow its bound;
* `RateLimit.find?_checkRateLimit_of_ne` — what a call does to the entry of another key.
-/

import MibeeEye.KeyedTable
import MibeeEye.StepMachine
import Mathlib.Algebra.Order.Ring.Nat

set_option relaxedAutoImplicit false
set_option autoImplicit false

namespace RateLimit

/-! ### A call -/

/-- The calls that were counted, and when the first of them was. -/
structure RateLimitEntry where
  count : ℕ
  windowStart : ℕ
  deriving DecidableEq, Repr

/-- `STATE` -/
abbrev State := Keyed.Table (Prod.fst : String × RateLimitEntry → String)

/-- `MAX_TRACKED_CLIENTS` -/
def maxTrackedClients : ℕ := 8192

/-- `is_window_expired`; the end of the window is computed in 64 bits. -/
def isWindowExpired (entry : RateLimitEntry) (now windowSecs : ℕ) : Bool :=
  decide ((entry.windowStart + windowSecs) % 2 ^ 64 ≤ now)

/-- The table without what has expired, once it is half full. -/
def prune (state : State) (now windowSecs : ℕ) : State :=
  if maxTrackedClients / 2 ≤ state.size then
    state.filter fun e => !isWindowExpired e.2 now windowSecs
  else state

/-- `check_rate_limit` at a time, with the table after it. -/
def checkRateLimit (state : State) (now : ℕ) (ip : String) (max windowSecs : ℕ) : Bool × State :=
  let state := prune state now windowSecs
  if maxTrackedClients ≤ state.size then (false, state)
  else
    match state.find? ip with
    | some (_, entry) =>
        if !isWindowExpired entry now windowSecs then
          if entry.count < max then
            (true, state.upsert (ip, { entry with count := entry.count + 1 }))
          else (false, state)
        else (true, state.upsert (ip, ⟨1, now⟩))
    | none => (true, state.upsert (ip, ⟨1, now⟩))

/-- The entry of a key is not expired. -/
def tracked (state : State) (now : ℕ) (ip : String) (windowSecs : ℕ) : Option RateLimitEntry :=
  ((state.find? ip).map Prod.snd).filter fun entry => !isWindowExpired entry now windowSecs

/-- The call begins a window: there is room in the table, and no entry that is not expired. -/
def beginsWindow (state : State) (now : ℕ) (ip : String) (windowSecs : ℕ) : Bool :=
  let state := prune state now windowSecs
  decide (state.size < maxTrackedClients) && (tracked state now ip windowSecs).isNone

variable {state : State} {now max windowSecs : ℕ} {ip key : String} {entry : RateLimitEntry}

/-- **What a call can do**: it is refused, it is counted in the window of its key, or it begins one. -/
theorem checkRateLimit_cases (state : State) (now : ℕ) (ip : String) (max windowSecs : ℕ) :
    (checkRateLimit state now ip max windowSecs = (false, prune state now windowSecs) ∧
      (maxTrackedClients ≤ (prune state now windowSecs).size ∨
        ∃ entry, (prune state now windowSecs).find? ip = some (ip, entry) ∧ max ≤ entry.count)) ∨
    (∃ entry, (prune state now windowSecs).find? ip = some (ip, entry) ∧
      isWindowExpired entry now windowSecs = false ∧ entry.count < max ∧
      (prune state now windowSecs).size < maxTrackedClients ∧
      checkRateLimit state now ip max windowSecs =
        (true, (prune state now windowSecs).upsert (ip, { entry with count := entry.count + 1 }))) ∨
    (beginsWindow state now ip windowSecs = true ∧
      (prune state now windowSecs).size < maxTrackedClients ∧
      checkRateLimit state now ip max windowSecs =
        (true, (prune state now windowSecs).upsert (ip, ⟨1, now⟩))) := by
  rw [checkRateLimit, beginsWindow]
  by_cases hfull : maxTrackedClients ≤ (prune state now windowSecs).size
  · left
    simp [hfull]
  · have hroom : (prune state now windowSecs).size < maxTrackedClients := Nat.lt_of_not_le hfull
    simp only [if_neg hfull, tracked]
    cases hfind : (prune state now windowSecs).find? ip with
    | none => simp [hroom]
    | some e =>
        obtain ⟨ip', entry⟩ := e
        have hip : ip' = ip := (Keyed.Table.find?_eq_some_iff.1 hfind).2
        rw [hip]
        cases hexpired : isWindowExpired entry now windowSecs with
        | true => simp [hroom, hexpired]
        | false =>
            by_cases hcount : entry.count < max
            · simp [hroom, hexpired, hcount]
            · left
              simp [hexpired, hcount, Nat.le_of_not_lt hcount]

/-! ### The table -/

theorem size_prune_le (state : State) (now windowSecs : ℕ) :
    (prune state now windowSecs).size ≤ state.size := by
  rw [prune]
  split
  · exact state.size_filter_le _
  · exact Nat.le_refl _

/-- Nothing is added, and what is removed has expired. -/
theorem find?_prune (state : State) (now windowSecs : ℕ) (key : String) :
    (prune state now windowSecs).find? key = state.find? key ∨
      (prune state now windowSecs).find? key = none ∧
        ∃ entry, state.find? key = some (key, entry) ∧ isWindowExpired entry now windowSecs = true := by
  rw [prune]
  split
  · rw [Keyed.Table.find?_filter]
    cases hfind : state.find? key with
    | none => exact Or.inl rfl
    | some e =>
        obtain ⟨key', entry⟩ := e
        have hkey : key' = key := (Keyed.Table.find?_eq_some_iff.1 hfind).2
        rw [hkey]
        cases hexpired : isWindowExpired entry now windowSecs with
        | true => exact Or.inr ⟨by simp [hexpired], entry, rfl, hexpired⟩
        | false => exact Or.inl (by simp [hexpired])
  · exact Or.inl rfl

/-- **The table does not outgrow its bound.** -/
theorem size_checkRateLimit (h : state.size ≤ maxTrackedClients) :
    (checkRateLimit state now ip max windowSecs).2.size ≤ maxTrackedClients := by
  rcases checkRateLimit_cases state now ip max windowSecs with
    ⟨hcall, -⟩ | ⟨entry, -, -, -, hroom, hcall⟩ | ⟨-, hroom, hcall⟩
  · rw [hcall]
    exact Nat.le_trans (size_prune_le state now windowSecs) h
  · rw [hcall]
    exact Nat.le_trans (Keyed.Table.size_upsert_le _ _) hroom
  · rw [hcall]
    exact Nat.le_trans (Keyed.Table.size_upsert_le _ _) hroom

/-- **What a call does to the entry of another key**: nothing but the removal. -/
theorem find?_checkRateLimit_of_ne (h : ip ≠ key) :
    (checkRateLimit state now ip max windowSecs).2.find? key =
      (prune state now windowSecs).find? key := by
  rcases checkRateLimit_cases state now ip max windowSecs with
    ⟨hcall, -⟩ | ⟨entry, -, -, -, -, hcall⟩ | ⟨-, -, hcall⟩
  · rw [hcall]
  · rw [hcall, Keyed.Table.find?_upsert, if_neg h]
  · rw [hcall, Keyed.Table.find?_upsert, if_neg h]

/-! ### Calls one after another -/

/-- A call and its time. -/
structure Call where
  now : ℕ
  ip : String
  max : ℕ
  windowSecs : ℕ
  deriving DecidableEq, Repr

/-- The table and the clock; beside them the calls that were let through, the last one first. -/
structure Limiter where
  table : State := .empty
  clock : ℕ := 0
  accepted : List Call := []

/-- One call.  The clock does not go back. -/
def callStep (s : Limiter) (c : Call) : Option Limiter :=
  if s.clock ≤ c.now then
    let r := checkRateLimit s.table c.now c.ip c.max c.windowSecs
    some { table := r.2, clock := c.now, accepted := if r.1 then c :: s.accepted else s.accepted }
  else none

/-- What a step is. -/
theorem of_callStep {s t : Limiter} {c : Call} (h : callStep s c = some t) :
    s.clock ≤ c.now ∧ t.clock = c.now ∧
      t.table = (checkRateLimit s.table c.now c.ip c.max c.windowSecs).2 ∧
      t.accepted = if (checkRateLimit s.table c.now c.ip c.max c.windowSecs).1
        then c :: s.accepted else s.accepted := by
  rw [callStep, Option.ite_none_right_eq_some] at h
  obtain ⟨hclock, h⟩ := h
  cases h
  exact ⟨hclock, rfl, rfl, rfl⟩

/-- The bound of the table, in a run. -/
theorem size_passes {cs : List Call} {s : Limiter} (h : Machine.Passes callStep {} cs s) :
    s.table.size ≤ maxTrackedClients := by
  refine Machine.passes_invariant (I := fun s => s.table.size ≤ maxTrackedClients)
    (P := fun _ => True) ?_ (fun _ _ => trivial) (Nat.zero_le _) h
  intro s c t _ hs hstep
  obtain ⟨-, -, htable, -⟩ := of_callStep hstep
  rw [htable]
  exact size_checkRateLimit hs

end RateLimit

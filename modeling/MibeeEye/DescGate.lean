/-
**The gate before the description of alarm frames.**

`DescGate::try_admit` of `src/desc_gate.rs` admits one description at a time, and none too soon after
the last.  It swaps a flag, loads two more variables, and stores either the flag again or the two
variables; the lease it returns stores the flag when it is dropped.  All these operations are
sequentially consistent: the model is a step machine over any number of callers, with a step for each.

Only the caller that has won the swap reads and writes the other two variables, and it is the only one
until it gives the flag back.

Main definitions:

* `Desc.DescDecision` — how a call is answered;
* `Desc.Caller`, `Desc.Gate`, `Desc.gateStep` — the callers, what they share, and one operation;
* `Desc.SingleFlight` — what is claimed of every state;
* `Desc.Spares` — what is claimed of every operation.

Main results:

* `Desc.inv_gateStep` — **one operation**;
* `Desc.spares_gateStep` — no operation but its own drop ends a lease;
* `Desc.singleFlight_passes` — **every run**.
-/

import Mathlib.Data.List.Chain
import MibeeEye.StepMachine

set_option relaxedAutoImplicit false
set_option autoImplicit false

namespace Desc

open Machine

/-! ### Callers -/

/-- `DescDecision`. -/
inductive DescDecision
  | admitted
  | busy
  | throttled
  deriving DecidableEq

/-- `DescDecision::as_str`. -/
def DescDecision.asStr : DescDecision → String
  | .admitted => "admitted"
  | .busy => "busy"
  | .throttled => "throttled"

/-- A call of `try_admit`. -/
inductive Caller
  | unused
  /-- It is to swap the flag. -/
  | entered (nowMs : ℕ)
  /-- It has found the flag clear, and is to load `has_started`. -/
  | acquired (nowMs : ℕ)
  /-- It is to load `last_start_ms`. -/
  | loaded (nowMs : ℕ) (everStarted : Bool)
  /-- It is to clear the flag again. -/
  | undoing
  /-- It is to store `last_start_ms`. -/
  | starting (nowMs : ℕ)
  /-- It is to store `has_started`. -/
  | marking (nowMs : ℕ)
  /-- It has returned `Admitted`, and its lease is live. -/
  | holding
  /-- It has returned without a lease, or its lease was dropped. -/
  | returned (decision : DescDecision)
  deriving DecidableEq

/-- The flag is its own. -/
def Caller.inside : Caller → Bool
  | acquired _ | loaded _ _ | undoing | starting _ | marking _ | holding => true
  | unused | entered _ | returned _ => false

/-- `DescGate`, the callers in the order in which they call, and the moments of the admissions. -/
structure Gate where
  inFlight : Bool := false
  lastStartMs : ℕ := 0
  hasStarted : Bool := false
  next : ℕ := 0
  callers : ℕ → Caller := fun _ => .unused
  admissions : List ℕ := []

/-- Caller `k` is now `caller`. -/
def Gate.set (s : Gate) (k : ℕ) (caller : Caller) : Gate :=
  { s with callers := Function.update s.callers k caller }

/-- What can happen. -/
inductive GateEvent
  /-- `try_admit` is called. -/
  | call (nowMs : ℕ)
  /-- The next operation of call `k`. -/
  | run (k : ℕ)
  /-- The lease of call `k` is dropped. -/
  | drop (k : ℕ)
  deriving DecidableEq

/-- One operation. -/
@[grind =] def gateStep (minIntervalMs : ℕ) (s : Gate) : GateEvent → Option Gate
  | .call nowMs => some { s.set s.next (.entered nowMs) with next := s.next + 1 }
  | .run k =>
      match s.callers k with
      | .entered nowMs =>
          some ({ s with inFlight := true }.set k (if s.inFlight then .returned .busy else .acquired nowMs))
      | .acquired nowMs => some (s.set k (.loaded nowMs s.hasStarted))
      | .loaded nowMs everStarted =>
          some (s.set k (if everStarted = true ∧ nowMs - s.lastStartMs < minIntervalMs then .undoing
            else .starting nowMs))
      | .undoing => some ({ s with inFlight := false }.set k (.returned .throttled))
      | .starting nowMs => some ({ s with lastStartMs := nowMs }.set k (.marking nowMs))
      | .marking nowMs =>
          some ({ s with hasStarted := true, admissions := s.admissions ++ [nowMs] }.set k .holding)
      | .unused | .holding | .returned _ => none
  | .drop k =>
      match s.callers k with
      | .holding => some ({ s with inFlight := false }.set k (.returned .admitted))
      | _ => none

/-! ### What is claimed -/

/-- **At most one lease is live, the flag is set while one is, and admissions are spaced.** -/
structure SingleFlight (minIntervalMs : ℕ) (s : Gate) : Prop where
  single : ∀ j k, s.callers j = .holding → s.callers k = .holding → j = k
  flag : ∀ k, s.callers k = .holding → s.inFlight = true
  spaced : s.admissions.IsChain fun a b => a < b ∧ minIntervalMs ≤ b - a

/-- **An operation spares the leases of others**: a lease that is live stays live, and the flag stays
set, unless it is dropped. -/
def Spares (s : Gate) (e : GateEvent) (t : Gate) : Prop :=
  ∀ k, s.callers k = .holding → e = .drop k ∨ t.callers k = .holding ∧ t.inFlight = true

/-! ### The invariant -/

/-- The last admission is the last start. -/
def Gate.Current (s : Gate) : Prop := ∀ t ∈ s.admissions.getLast?, s.lastStartMs = t

/-- A moment is late enough for an admission. -/
def Gate.Clear (minIntervalMs : ℕ) (s : Gate) (nowMs : ℕ) : Prop :=
  ∀ t ∈ s.admissions.getLast?, t < nowMs ∧ minIntervalMs ≤ nowMs - t

/-- What the caller that has the flag knows. -/
def Knows (minIntervalMs : ℕ) (s : Gate) : Caller → Prop
  | .acquired _ | .undoing | .holding => s.Current
  | .loaded _ everStarted => s.Current ∧ everStarted = s.hasStarted
  | .starting nowMs => s.Clear minIntervalMs nowMs
  | .marking nowMs => s.lastStartMs = nowMs ∧ s.Clear minIntervalMs nowMs
  | .unused | .entered _ | .returned _ => True

/-- What the operations keep. -/
structure Inv (minIntervalMs : ℕ) (s : Gate) : Prop where
  fresh : ∀ k, s.next ≤ k → s.callers k = .unused
  alone : ∀ j k, (s.callers j).inside = true → (s.callers k).inside = true → j = k
  flag : ∀ k, (s.callers k).inside = true → s.inFlight = true
  knows : ∀ k, Knows minIntervalMs s (s.callers k)
  free : s.inFlight = false → s.Current
  started : s.hasStarted = !s.admissions.isEmpty
  spaced : s.admissions.IsChain fun a b => a < b ∧ minIntervalMs ≤ b - a

variable {minIntervalMs : ℕ} {s t : Gate} {e : GateEvent} {k : ℕ} {caller : Caller}

theorem inv_initial : Inv minIntervalMs {} where
  fresh := fun _ _ => rfl
  alone := fun _ _ h => Bool.noConfusion h
  flag := fun _ h => Bool.noConfusion h
  knows := fun _ => trivial
  free := fun _ t h => absurd h (Option.not_mem_none t)
  started := rfl
  spaced := .nil

theorem Inv.singleFlight (hs : Inv minIntervalMs s) : SingleFlight minIntervalMs s where
  single := fun j k hj hk => hs.alone j k (by rw [hj]; rfl) (by rw [hk]; rfl)
  flag := fun k hk => hs.flag k (by rw [hk]; rfl)
  spaced := hs.spaced

/-- A caller without the flag knows nothing. -/
theorem knows_of_not_inside (h : caller.inside = false) : Knows minIntervalMs s caller := by
  cases caller <;> trivial

theorem inside_update {j : ℕ} (h : (Function.update s.callers k caller j).inside = true) :
    (j = k ∧ caller.inside = true) ∨ (j ≠ k ∧ (s.callers j).inside = true) :=
  update_cases (p := fun c => Caller.inside c = true) h

theorem Inv.lt_next (hs : Inv minIntervalMs s) (hk : s.callers k ≠ .unused) : k < s.next :=
  lt_of_ne_unused hs.fresh hk

/-! ### Every operation -/

/-- A caller without the flag goes on without it. -/
theorem Inv.outside (hs : Inv minIntervalMs s) (hk : s.callers k ≠ .unused)
    (hcaller : caller.inside = false) : Inv minIntervalMs (s.set k caller) := by
  have hold : ∀ j, (Function.update s.callers k caller j).inside = true → (s.callers j).inside = true := by
    intro j hj
    rcases inside_update hj with ⟨-, hj⟩ | ⟨-, hj⟩
    · rw [hcaller] at hj
      cases hj
    · exact hj
  refine ⟨fresh_update hs.fresh (hs.lt_next hk) _, fun i j hi hj => hs.alone i j (hold i hi) (hold j hj),
    fun j hj => hs.flag j (hold j hj), fun j => ?_, hs.free, hs.started, hs.spaced⟩
  show Knows minIntervalMs _ (Function.update s.callers k caller j)
  by_cases hj : j = k
  · rw [hj, Function.update_self]
    exact knows_of_not_inside hcaller
  · rw [Function.update_of_ne hj]
    exact hs.knows j

/-- **The caller that has the flag goes on with it**, and may change what only it knows. -/
theorem Inv.stays (hs : Inv minIntervalMs s) (hk : (s.callers k).inside = true)
    (hcallers : t.callers = Function.update s.callers k caller) (hnext : t.next = s.next)
    (hflag : t.inFlight = s.inFlight) (hknows : Knows minIntervalMs t caller) (hstarted : t.hasStarted = !t.admissions.isEmpty)
    (hspaced : t.admissions.IsChain fun a b => a < b ∧ minIntervalMs ≤ b - a) : Inv minIntervalMs t := by
  have hown : ∀ j, (t.callers j).inside = true → j = k := by
    intro j hj
    rw [hcallers] at hj
    rcases inside_update hj with ⟨hj, -⟩ | ⟨-, hj⟩
    · exact hj
    · exact hs.alone j k hj hk
  have hset : t.inFlight = true := hflag.trans (hs.flag k hk)
  refine ⟨fun j hj => ?_, fun i j hi hj => (hown i hi).trans (hown j hj).symm, fun _ _ => hset,
    fun j => ?_, fun hclear => ?_, hstarted, hspaced⟩
  · rw [hcallers]
    refine fresh_update hs.fresh (hs.lt_next fun hunused => ?_) _ j (hnext ▸ hj)
    rw [hunused] at hk
    cases hk
  · by_cases hj : j = k
    · rw [hcallers, hj, Function.update_self]
      exact hknows
    · refine knows_of_not_inside (Bool.eq_false_iff.2 fun hinside => hj (hown j hinside))
  · rw [hset] at hclear
    cases hclear

/-- **The caller that has the flag gives it back.** -/
theorem Inv.release (hs : Inv minIntervalMs s) (hk : (s.callers k).inside = true)
    (hcurrent : s.Current) (decision : DescDecision) :
    Inv minIntervalMs ({ s with inFlight := false }.set k (.returned decision)) := by
  have hnone : ∀ j, (Function.update s.callers k (.returned decision) j).inside = false := by
    intro j
    refine Bool.eq_false_iff.2 fun hj => ?_
    rcases inside_update hj with ⟨-, hj⟩ | ⟨hne, hj⟩
    · cases hj
    · exact hne (hs.alone j k hj hk)
  refine ⟨fresh_update hs.fresh (hs.lt_next fun hunused => ?_) _, fun i j hi _ => ?_, fun j hj => ?_,
    fun j => knows_of_not_inside (hnone j), fun _ => hcurrent, hs.started, hs.spaced⟩
  · rw [hunused] at hk
    cases hk
  · exact absurd hi (Bool.eq_false_iff.1 (hnone i))
  · exact absurd hj (Bool.eq_false_iff.1 (hnone j))

/-- **The swap finds the flag clear.** -/
theorem Inv.acquire (hs : Inv minIntervalMs s) {nowMs : ℕ} (hk : s.callers k = .entered nowMs)
    (hclear : s.inFlight = false) :
    Inv minIntervalMs ({ s with inFlight := true }.set k (.acquired nowMs)) := by
  have hnone : ∀ j, (s.callers j).inside = false := fun j => Bool.eq_false_iff.2 fun hj => by
    rw [hs.flag j hj] at hclear
    cases hclear
  have hown : ∀ j, (Function.update s.callers k (.acquired nowMs) j).inside = true → j = k := by
    intro j hj
    rcases inside_update hj with ⟨hj, -⟩ | ⟨-, hj⟩
    · exact hj
    · rw [hnone j] at hj
      cases hj
  refine ⟨fresh_update hs.fresh (hs.lt_next (by simp [hk])) _,
    fun i j hi hj => (hown i hi).trans (hown j hj).symm, fun _ _ => rfl, fun j => ?_,
    fun h => Bool.noConfusion h, hs.started, hs.spaced⟩
  show Knows minIntervalMs _ (Function.update s.callers k (.acquired nowMs) j)
  by_cases hj : j = k
  · rw [hj, Function.update_self]
    exact hs.free hclear
  · exact knows_of_not_inside (Bool.eq_false_iff.2 fun hinside => hj (hown j hinside))

/-- What the two loads tell. -/
theorem clear_of_not_throttled (hmin : 1 ≤ minIntervalMs) (hs : Inv minIntervalMs s) {nowMs : ℕ}
    (hcurrent : s.Current) (hnot : ¬ (s.hasStarted = true ∧ nowMs - s.lastStartMs < minIntervalMs)) :
    s.Clear minIntervalMs nowMs := by
  intro t ht
  have hlast := hcurrent t ht
  have hstarted : s.hasStarted = true := by
    rw [hs.started]
    cases hadmissions : s.admissions with
    | nil =>
        rw [hadmissions] at ht
        cases ht
    | cons a as => rfl
  have hle : minIntervalMs ≤ nowMs - s.lastStartMs := Nat.le_of_not_lt fun hlt => hnot ⟨hstarted, hlt⟩
  omega

/-- **Every operation keeps the invariant.** -/
theorem inv_gateStep (hmin : 1 ≤ minIntervalMs) (hs : Inv minIntervalMs s)
    (h : gateStep minIntervalMs s e = some t) : Inv minIntervalMs t := by
  cases e with
  | call nowMs =>
      cases h
      have hnext : s.callers s.next = .unused := hs.fresh s.next le_rfl
      have hold : ∀ j, (Function.update s.callers s.next (.entered nowMs) j).inside = true →
          (s.callers j).inside = true := by
        intro j hj
        rcases inside_update hj with ⟨-, hj⟩ | ⟨-, hj⟩
        · cases hj
        · exact hj
      refine ⟨fresh_begin hs.fresh _, fun i j hi hj => hs.alone i j (hold i hi) (hold j hj),
        fun j hj => hs.flag j (hold j hj), fun j => ?_, hs.free, hs.started, hs.spaced⟩
      show Knows minIntervalMs _ (Function.update s.callers s.next (.entered nowMs) j)
      by_cases hj : j = s.next
      · rw [hj, Function.update_self]
        trivial
      · rw [Function.update_of_ne hj]
        exact hs.knows j
  | run k =>
      rw [gateStep] at h
      have hknows := hs.knows k
      split at h
      · next nowMs hk =>
          cases h
          cases hflag : s.inFlight with
          | true =>
              have hsame : ({ s with inFlight := true } : Gate) = s := by rw [← hflag]
              rw [hsame]
              exact hs.outside (by simp [hk]) rfl
          | false => exact hs.acquire hk hflag
      · next nowMs hk =>
          cases h
          rw [hk] at hknows
          exact hs.stays (by rw [hk]; rfl) rfl rfl rfl ⟨hknows, rfl⟩ hs.started hs.spaced
      · next nowMs everStarted hk =>
          cases h
          rw [hk] at hknows
          obtain ⟨hcurrent, hever⟩ := hknows
          refine hs.stays (by rw [hk]; rfl) rfl rfl rfl ?_ hs.started hs.spaced
          split
          · exact hcurrent
          · next hnot => exact clear_of_not_throttled hmin hs hcurrent (hever ▸ hnot)
      · next hk =>
          cases h
          rw [hk] at hknows
          exact hs.release (by rw [hk]; rfl) hknows .throttled
      · next nowMs hk =>
          cases h
          rw [hk] at hknows
          exact hs.stays (by rw [hk]; rfl) rfl rfl rfl ⟨rfl, hknows⟩ hs.started hs.spaced
      · next nowMs hk =>
          cases h
          rw [hk] at hknows
          refine hs.stays (by rw [hk]; rfl) rfl rfl rfl ?_ (by simp [Gate.set]) ?_
          · intro t ht
            have hlast : (s.admissions ++ [nowMs]).getLast? = some t := ht
            rw [List.getLast?_concat] at hlast
            exact hknows.1.trans (Option.some.inj hlast)
          · refine List.isChain_append.2 ⟨hs.spaced, .singleton nowMs, fun a ha b hb => ?_⟩
            cases hb
            exact hknows.2 a ha
      · cases h
      · cases h
      · cases h
  | drop k =>
      rw [gateStep] at h
      have hknows := hs.knows k
      split at h
      · next hk =>
          cases h
          rw [hk] at hknows
          exact hs.release (by rw [hk]; rfl) hknows .admitted
      · cases h

/-- **No operation but its own drop ends a lease.** -/
theorem spares_gateStep (hs : Inv minIntervalMs s) (h : gateStep minIntervalMs s e = some t) :
    Spares s e t := by
  intro k hk
  have hflag : s.inFlight = true := hs.flag k (by rw [hk]; rfl)
  -- A caller that has no lease leaves that of `k` alone, and those that clear the flag are `k`.
  have hother : ∀ {j : ℕ} {caller : Caller}, s.callers j ≠ .holding →
      Function.update s.callers j caller k = .holding := by
    intro j caller hj
    have hne : k ≠ j := fun heq => hj (heq ▸ hk)
    rw [Function.update_of_ne hne]
    exact hk
  have hself : ∀ {j : ℕ}, (s.callers j).inside = true → j = k := fun hj => hs.alone _ k hj (by rw [hk]; rfl)
  cases e with
  | call nowMs =>
      cases h
      exact .inr ⟨hother (by simp [hs.fresh s.next le_rfl]), hflag⟩
  | run j =>
      rw [gateStep] at h
      split at h
      · next nowMs hj =>
          cases h
          exact .inr ⟨hother (by simp [hj]), rfl⟩
      · next nowMs hj =>
          cases h
          exact .inr ⟨hother (by simp [hj]), hflag⟩
      · next nowMs everStarted hj =>
          cases h
          exact .inr ⟨hother (by simp [hj]), hflag⟩
      · next hj =>
          have heq := hself (by rw [hj]; rfl)
          rw [heq, hk] at hj
          cases hj
      · next nowMs hj =>
          cases h
          exact .inr ⟨hother (by simp [hj]), hflag⟩
      · next nowMs hj =>
          cases h
          exact .inr ⟨hother (by simp [hj]), hflag⟩
      · cases h
      · cases h
      · cases h
  | drop j =>
      rw [gateStep] at h
      split at h
      · next hj => exact .inl (congrArg _ (hself (by rw [hj]; rfl)))
      · cases h

/-! ### Every run -/

/-- **Every run of the gate**, whatever the callers, their clocks and the order of their operations:
single flight and spacing in every state, and no operation but its own drop ends a lease. -/
theorem singleFlight_passes (hmin : 1 ≤ minIntervalMs) (events : List GateEvent) :
    (∀ t, Passes (gateStep minIntervalMs) {} events t → SingleFlight minIntervalMs t) ∧
    ∀ u e v, Occurs (gateStep minIntervalMs) {} events u e → gateStep minIntervalMs u e = some v →
      Spares u e v := by
  have hstep : ∀ s e t, Inv minIntervalMs s → gateStep minIntervalMs s e = some t →
      Inv minIntervalMs t := fun s e t => inv_gateStep hmin
  refine ⟨fun t ht => ?_, fun u e v hu hv => ?_⟩
  · exact (passes_invariant (P := fun _ => True) (fun s e t _ => hstep s e t) (fun _ _ => trivial)
      inv_initial ht).singleFlight
  · exact spares_gateStep (occurs_invariant hstep inv_initial hu) hv

/-- Three triggers within a description: one is admitted and one is refused at once; the third finds
the flag clear after the drop, but comes too soon. -/
theorem singleFlight_threeTriggers :
    let events : List GateEvent :=
      [.call 1000, .call 1001, .run 0, .run 1, .run 0, .run 0, .run 0, .run 0, .drop 0, .call 1002,
        .run 2, .run 2, .run 2, .run 2]
    ((exec (gateStep 120000) {} events).map fun t =>
      ((List.range 3).map t.callers, t.admissions)) =
        some ([.returned .admitted, .returned .busy, .returned .throttled], [1000]) ∧
    (∀ t, Passes (gateStep 120000) {} events t → SingleFlight 120000 t) ∧
    ∀ u e v, Occurs (gateStep 120000) {} events u e → gateStep 120000 u e = some v → Spares u e v :=
  ⟨by decide, singleFlight_passes (by decide) _⟩

end Desc

/-
**Hardware elasticity.**

`decide` of `src/runtime/elastic.rs` takes the memory that is available and whether the host is on
battery, and moves the tier of the language model on the ladder `full`, `mid`, `lite`: to `lite` at once
on battery, one step down or up after some samples in a row in the low or the high band and not before
a cooldown is over; and it advises the minimal form after some samples in a row in the critical band.
Each band has a counter, and each branch resets some of them.

Main definitions:

* `Elastic.ElasticSignals`, `Elastic.ElasticPolicy`, `Elastic.ElasticAction`, `Elastic.ElasticState`;
* `Elastic.decide` — one call;
* `Elastic.Controller`, `Elastic.step` — the calls with what was returned;
* `Elastic.Band` — the branch a sample takes.

Main results:

* `Elastic.decided_of_decide` — **what a call can do**.
-/

import MibeeEye.FixedWidth
import MibeeEye.StepMachine

set_option relaxedAutoImplicit false
set_option autoImplicit false

namespace Elastic

open FixedWidth

/-! ### One call -/

/-- `ElasticSignals`. -/
structure ElasticSignals where
  memAvailableMib : ℕ
  battery : Bool

/-- `ElasticPolicy`. -/
structure ElasticPolicy where
  enterLowMib : ℕ := 1024
  exitLowMib : ℕ := 2560
  criticalMib : ℕ := 320
  cooldownSecs : ℕ := 180
  sustainSamples : ℕ := 3

/-- `ElasticAction`; `src` and `dst` are its `from` and `to`. -/
inductive ElasticAction
  | tierDown (src dst : String)
  | tierUp (src dst : String)
  | batteryPin (src dst : String)
  | recommendMinimalForm
  | noop
  deriving DecidableEq

/-- `ElasticState`. -/
structure ElasticState where
  tier : String
  lowStreak : ℕ := 0
  highStreak : ℕ := 0
  criticalStreak : ℕ := 0
  batteryLatched : Bool := false
  lastActionAtMs : ℕ := 0

/-- `step_down`. -/
def stepDown (tier : String) : Option String :=
  if tier = "full" then some "mid" else if tier = "mid" then some "lite" else none

/-- `step_up`. -/
def stepUp (tier : String) : Option String :=
  if tier = "lite" then some "mid" else if tier = "mid" then some "full" else none

/-- `cooldown_open`. -/
def cooldownOpen (b : Build) (policy : ElasticPolicy) (lastActionAtMs nowMs : ℕ) : Option Bool :=
  if lastActionAtMs = 0 then some true
  else do
    let cooldownMs ← b.result 64 (policy.cooldownSecs * 1000)
    return cooldownMs ≤ nowMs - lastActionAtMs

/-- `decide`; `none` is a panic. -/
def decide (b : Build) (policy : ElasticPolicy) (signals : ElasticSignals) (state : ElasticState)
    (nowMs : ℕ) : Option (ElasticState × ElasticAction) := do
  if signals.battery && !state.batteryLatched then
    let pinned := { state with batteryLatched := true, highStreak := 0, lowStreak := 0 }
    if state.tier ≠ "lite" then
      return ({ pinned with tier := "lite", lastActionAtMs := nowMs }, .batteryPin state.tier "lite")
    else return (pinned, .noop)
  else if signals.battery then return (state, .noop)
  else if signals.memAvailableMib < policy.criticalMib then
    let criticalStreak ← b.result 32 (state.criticalStreak + 1)
    let state := { state with batteryLatched := false, criticalStreak, lowStreak := 0, highStreak := 0 }
    if policy.sustainSamples ≤ criticalStreak then return (state, .recommendMinimalForm)
    else return (state, .noop)
  else
    let state := { state with batteryLatched := false, criticalStreak := 0 }
    let isOpen ← cooldownOpen b policy state.lastActionAtMs nowMs
    if signals.memAvailableMib < policy.enterLowMib then
      let lowStreak ← b.result 32 (state.lowStreak + 1)
      let state := { state with lowStreak, highStreak := 0 }
      if policy.sustainSamples ≤ lowStreak ∧ isOpen = true then
        match stepDown state.tier with
        | some tier =>
            return ({ state with tier, lastActionAtMs := nowMs, lowStreak := 0 },
              .tierDown state.tier tier)
        | none => return (state, .noop)
      else return (state, .noop)
    else
      let state := { state with lowStreak := 0 }
      if policy.exitLowMib < signals.memAvailableMib then
        let highStreak ← b.result 32 (state.highStreak + 1)
        let state := { state with highStreak }
        if policy.sustainSamples ≤ highStreak ∧ isOpen = true then
          match stepUp state.tier with
          | some tier =>
              return ({ state with tier, lastActionAtMs := nowMs, highStreak := 0 },
                .tierUp state.tier tier)
          | none => return (state, .noop)
        else return (state, .noop)
      else return ({ state with highStreak := 0 }, .noop)

/-! ### Runs -/

/-- The arguments of a call. -/
structure Call where
  signals : ElasticSignals
  nowMs : ℕ

/-- A call that has returned, with the tiers before and after it. -/
structure Entry where
  call : Call
  before : String
  action : ElasticAction
  after : String

/-- The state, and the calls that have returned. -/
structure Controller where
  state : ElasticState
  log : List Entry := []

/-- `ElasticState::new`. -/
def Controller.new (tier : String) : Controller := { state := { tier } }

/-- One more call. -/
def step (b : Build) (policy : ElasticPolicy) (s : Controller) (c : Call) : Option Controller :=
  (decide b policy c.signals s.state c.nowMs).map fun r =>
    ⟨r.1, s.log ++ [⟨c, s.state.tier, r.2, r.1.tier⟩]⟩

/-! ### What a call can do -/

/-- The branch that a sample takes. -/
inductive Band
  | battery
  | critical
  | low
  | high
  | middle
  deriving DecidableEq

/-- The branch that a sample takes. -/
def ElasticPolicy.band (policy : ElasticPolicy) (signals : ElasticSignals) : Band :=
  if signals.battery then .battery
  else if signals.memAvailableMib < policy.criticalMib then .critical
  else if signals.memAvailableMib < policy.enterLowMib then .low
  else if policy.exitLowMib < signals.memAvailableMib then .high
  else .middle

/-- **What a call can do**, by the branch that its sample takes. -/
inductive Decided (b : Build) (policy : ElasticPolicy) (state : ElasticState) (nowMs : ℕ) :
    Band → ElasticState → ElasticAction → Prop
  | pinned (hlatched : state.batteryLatched = false) (htier : state.tier ≠ "lite") :
      Decided b policy state nowMs .battery
        { state with
          tier := "lite"
          lastActionAtMs := nowMs
          batteryLatched := true
          highStreak := 0
          lowStreak := 0 }
        (.batteryPin state.tier "lite")
  | latched (htier : state.tier = "lite") :
      Decided b policy state nowMs .battery
        { state with batteryLatched := true, highStreak := 0, lowStreak := 0 } .noop
  | onBattery (hlatched : state.batteryLatched = true) :
      Decided b policy state nowMs .battery state .noop
  | critical {streak : ℕ} (hstreak : b.result 32 (state.criticalStreak + 1) = some streak) :
      Decided b policy state nowMs .critical
        { state with
          batteryLatched := false
          criticalStreak := streak
          lowStreak := 0
          highStreak := 0 }
        (if policy.sustainSamples ≤ streak then .recommendMinimalForm else .noop)
  | low {isOpen : Bool} {streak : ℕ}
      (hopen : cooldownOpen b policy state.lastActionAtMs nowMs = some isOpen)
      (hstreak : b.result 32 (state.lowStreak + 1) = some streak)
      (hstays : policy.sustainSamples ≤ streak → isOpen = true → stepDown state.tier = none) :
      Decided b policy state nowMs .low
        { state with
          batteryLatched := false
          criticalStreak := 0
          lowStreak := streak
          highStreak := 0 }
        .noop
  | down {streak : ℕ} {tier : String}
      (hopen : cooldownOpen b policy state.lastActionAtMs nowMs = some true)
      (hstreak : b.result 32 (state.lowStreak + 1) = some streak)
      (hsustained : policy.sustainSamples ≤ streak) (htier : stepDown state.tier = some tier) :
      Decided b policy state nowMs .low
        { state with
          tier := tier
          lastActionAtMs := nowMs
          batteryLatched := false
          criticalStreak := 0
          lowStreak := 0
          highStreak := 0 }
        (.tierDown state.tier tier)
  | high {streak : ℕ} (hstreak : b.result 32 (state.highStreak + 1) = some streak) :
      Decided b policy state nowMs .high
        { state with
          batteryLatched := false
          criticalStreak := 0
          lowStreak := 0
          highStreak := streak }
        .noop
  | up {streak : ℕ} {tier : String}
      (hopen : cooldownOpen b policy state.lastActionAtMs nowMs = some true)
      (hstreak : b.result 32 (state.highStreak + 1) = some streak)
      (hsustained : policy.sustainSamples ≤ streak) (htier : stepUp state.tier = some tier) :
      Decided b policy state nowMs .high
        { state with
          tier := tier
          lastActionAtMs := nowMs
          batteryLatched := false
          criticalStreak := 0
          lowStreak := 0
          highStreak := 0 }
        (.tierUp state.tier tier)
  | middle :
      Decided b policy state nowMs .middle
        { state with batteryLatched := false, criticalStreak := 0, lowStreak := 0, highStreak := 0 }
        .noop

variable {b : Build} {policy : ElasticPolicy} {signals : ElasticSignals} {state state' : ElasticState}
  {nowMs : ℕ} {action : ElasticAction}

theorem decided_of_decide (h : decide b policy signals state nowMs = some (state', action)) :
    Decided b policy state nowMs (policy.band signals) state' action := by
  unfold decide at h
  unfold ElasticPolicy.band
  cases hbattery : signals.battery with
  | true =>
      rw [hbattery, Bool.true_and] at h
      cases hlatched : state.batteryLatched with
      | true =>
          rw [hlatched] at h
          cases h
          exact .onBattery hlatched
      | false =>
          rw [hlatched] at h
          by_cases htier : state.tier = "lite"
          · rw [if_pos rfl, if_neg (not_not.2 htier)] at h
            cases h
            exact .latched htier
          · rw [if_pos rfl, if_pos htier] at h
            cases h
            exact .pinned hlatched htier
  | false =>
      rw [hbattery] at h
      simp only [Bool.false_and, Bool.false_eq_true, if_false] at h ⊢
      by_cases hcritical : signals.memAvailableMib < policy.criticalMib
      · rw [if_pos hcritical] at h ⊢
        obtain ⟨streak, hstreak, h⟩ := Option.bind_eq_some_iff.1 h
        have hdecided : Decided b policy state nowMs .critical _ _ := .critical hstreak
        by_cases hsustained : policy.sustainSamples ≤ streak
        · rw [if_pos hsustained] at h hdecided
          cases h
          exact hdecided
        · rw [if_neg hsustained] at h hdecided
          cases h
          exact hdecided
      · rw [if_neg hcritical] at h ⊢
        obtain ⟨isOpen, hopen, h⟩ := Option.bind_eq_some_iff.1 h
        by_cases hlow : signals.memAvailableMib < policy.enterLowMib
        · rw [if_pos hlow] at h ⊢
          obtain ⟨streak, hstreak, h⟩ := Option.bind_eq_some_iff.1 h
          by_cases hacts : policy.sustainSamples ≤ streak ∧ isOpen = true
          · rw [if_pos hacts] at h
            cases htier : stepDown state.tier with
            | none =>
                rw [htier] at h
                cases h
                exact .low hopen hstreak fun _ _ => htier
            | some tier =>
                rw [htier] at h
                cases h
                exact .down (hacts.2 ▸ hopen) hstreak hacts.1 htier
          · rw [if_neg hacts] at h
            cases h
            exact .low hopen hstreak fun hsustained hisOpen => absurd ⟨hsustained, hisOpen⟩ hacts
        · rw [if_neg hlow] at h ⊢
          by_cases hhigh : policy.exitLowMib < signals.memAvailableMib
          · rw [if_pos hhigh] at h ⊢
            obtain ⟨streak, hstreak, h⟩ := Option.bind_eq_some_iff.1 h
            by_cases hacts : policy.sustainSamples ≤ streak ∧ isOpen = true
            · rw [if_pos hacts] at h
              cases htier : stepUp state.tier with
              | none =>
                  rw [htier] at h
                  cases h
                  exact .high hstreak
              | some tier =>
                  rw [htier] at h
                  cases h
                  exact .up (hacts.2 ▸ hopen) hstreak hacts.1 htier
            · rw [if_neg hacts] at h
              cases h
              exact .high hstreak
          · rw [if_neg hhigh] at h ⊢
            cases h
            exact .middle

end Elastic

/-
**Tier changes are debounced.**

In every run of `Elastic.decide` the tier stays on its ladder, moves by one step, after as many samples
in a row as the policy asks for, and not before the cooldown is over.  A cooldown of zero is none: the
clock may then go back.

Main definitions:

* `Elastic.Debounced` — what is claimed of the calls that have returned;
* `Elastic.Tracks` — what the state has of them.

Main results:

* `Elastic.tracks_step` — **one call**;
* `Elastic.debounced_passes` — **every run**.
-/

import MibeeEye.Elastic
import MibeeEye.Streaks

set_option relaxedAutoImplicit false
set_option autoImplicit false

namespace Elastic

open FixedWidth Machine

/-! ### What is claimed -/

/-- `LADDER`. -/
def ladder : List String := ["full", "mid", "lite"]

/-- `dst` is one step below `src` on the ladder. -/
def OneBelow (src dst : String) : Prop := ∃ i : ℕ, ladder[i]? = some src ∧ ladder[i + 1]? = some dst

/-- On mains, with memory in the low band. -/
def ElasticPolicy.Low (policy : ElasticPolicy) (signals : ElasticSignals) : Prop :=
  signals.battery = false ∧ policy.criticalMib ≤ signals.memAvailableMib ∧
    signals.memAvailableMib < policy.enterLowMib

/-- On mains, with memory above the exit of the low band. -/
def ElasticPolicy.High (policy : ElasticPolicy) (signals : ElasticSignals) : Prop :=
  signals.battery = false ∧ policy.exitLowMib < signals.memAvailableMib

/-- An action that changes the tier. -/
def ElasticAction.moves : ElasticAction → Bool
  | .tierDown _ _ | .tierUp _ _ | .batteryPin _ _ => true
  | .recommendMinimalForm | .noop => false

/-- The tier after some calls. -/
def tierAfter (initial : String) (log : List Entry) : String :=
  (log.getLast?.map Entry.after).getD initial

/-- The last call that has changed the tier. -/
def lastMove (log : List Entry) : Option Entry := (log.filter fun e => e.action.moves).getLast?

/-- The names that an action has are the tiers before and after its call. -/
def Entry.Named (e : Entry) : Prop :=
  match e.action with
  | .tierDown src dst | .tierUp src dst | .batteryPin src dst => src = e.before ∧ dst = e.after
  | .recommendMinimalForm | .noop => e.after = e.before

/-- The call and the ones just before it are as many as the policy asks for, have such samples, and
follow the last change of the tier. -/
def Sustained (policy : ElasticPolicy) (p : ElasticSignals → Prop) (pre : List Entry) (e : Entry) :
    Prop :=
  p e.call.signals ∧ ∃ w, w <:+ pre ∧ w.length + 1 = policy.sustainSamples ∧
    ∀ f ∈ w, p f.call.signals ∧ f.after = f.before

/-- The last change of the tier is at least the cooldown ago, or there is no cooldown. -/
def Cooled (policy : ElasticPolicy) (pre : List Entry) (e : Entry) : Prop :=
  policy.cooldownSecs = 0 ∨
    ∀ f ∈ lastMove pre, f.call.nowMs + policy.cooldownSecs * 1000 ≤ e.call.nowMs

/-- What is claimed of a call after some others. -/
structure Lawful (policy : ElasticPolicy) (initial : String) (pre : List Entry) (e : Entry) : Prop where
  before : e.before = tierAfter initial pre
  ladder : e.before ∈ ladder ∧ e.after ∈ ladder
  named : e.Named
  down : ∀ src dst, e.action = .tierDown src dst →
    OneBelow src dst ∧ Sustained policy policy.Low pre e ∧ Cooled policy pre e
  up : ∀ src dst, e.action = .tierUp src dst →
    OneBelow dst src ∧ Sustained policy policy.High pre e ∧ Cooled policy pre e

/-- **Tier changes are debounced.** -/
def Debounced (policy : ElasticPolicy) (initial : String) (log : List Entry) : Prop :=
  ∀ pre e post, log = pre ++ e :: post → Lawful policy initial pre e

variable {b : Build} {policy : ElasticPolicy} {initial : String} {s t : Controller} {c : Call}
  {log pre : List Entry} {e : Entry} {signals : ElasticSignals}

/-! ### Bands and ladder -/

theorem low_of_band (h : policy.band signals = .low) : policy.Low signals := by
  unfold ElasticPolicy.band at h
  unfold ElasticPolicy.Low
  cases hbattery : signals.battery with
  | true => simp [hbattery] at h
  | false =>
      simp only [hbattery, Bool.false_eq_true, if_false] at h
      split at h
      · cases h
      · next hcritical =>
          split at h
          · next hlow => exact ⟨rfl, Nat.le_of_not_lt hcritical, hlow⟩
          · split at h <;> cases h

theorem high_of_band (h : policy.band signals = .high) : policy.High signals := by
  unfold ElasticPolicy.band at h
  unfold ElasticPolicy.High
  cases hbattery : signals.battery with
  | true => simp [hbattery] at h
  | false =>
      simp only [hbattery, Bool.false_eq_true, if_false] at h
      split at h
      · cases h
      · split at h
        · cases h
        · split at h
          · next hhigh => exact ⟨rfl, hhigh⟩
          · cases h

theorem lite_mem_ladder : "lite" ∈ ladder := by decide

theorem stepDown_eq_some {src dst : String} (h : stepDown src = some dst) :
    OneBelow src dst ∧ dst ∈ ladder := by
  unfold stepDown at h
  split at h
  · next hsrc =>
      cases h
      exact ⟨⟨0, by rw [hsrc]; rfl, rfl⟩, by decide⟩
  · split at h
    · next hsrc =>
        cases h
        exact ⟨⟨1, by rw [hsrc]; rfl, rfl⟩, by decide⟩
    · cases h

theorem stepUp_eq_some {src dst : String} (h : stepUp src = some dst) :
    OneBelow dst src ∧ dst ∈ ladder := by
  unfold stepUp at h
  split at h
  · next hsrc =>
      cases h
      exact ⟨⟨1, rfl, by rw [hsrc]; rfl⟩, by decide⟩
  · split at h
    · next hsrc =>
        cases h
        exact ⟨⟨0, rfl, by rw [hsrc]; rfl⟩, by decide⟩
    · cases h

/-! ### What the state has of the calls -/

/-- A call with a sample in a band that has not changed the tier. -/
def quietIn (policy : ElasticPolicy) (band : Band) (e : Entry) : Bool :=
  policy.band e.call.signals = band && e.after = e.before

/-- **What the state has of the calls**: the tier, no more of the two streaks than there is, and the
moment of the last change. -/
structure Tracks (policy : ElasticPolicy) (initial : String) (s : Controller) : Prop where
  tier : s.state.tier = tierAfter initial s.log
  ladder : s.state.tier ∈ ladder
  low : s.state.lowStreak ≤ Streak.length (quietIn policy .low) s.log
  high : s.state.highStreak ≤ Streak.length (quietIn policy .high) s.log
  latched : s.state.batteryLatched = true → s.state.lowStreak = 0 ∧ s.state.highStreak = 0
  last : s.state.lastActionAtMs = ((lastMove s.log).map fun e => e.call.nowMs).getD 0
  positive : ∀ e ∈ s.log, 0 < e.call.nowMs
  debounced : Debounced policy initial s.log

theorem tracks_new (htier : initial ∈ ladder) : Tracks policy initial (.new initial) where
  tier := rfl
  ladder := htier
  low := Nat.zero_le _
  high := Nat.zero_le _
  latched := by intro h; cases h
  last := rfl
  positive := by simp [Controller.new]
  debounced := by
    intro pre e post h
    simp [Controller.new] at h

/-- A streak that is long enough, with the call that makes it so. -/
theorem sustained_of_streak {band : Band} {p : ElasticSignals → Prop} {n streak : ℕ}
    (hp : ∀ {signals}, policy.band signals = band → p signals) (hsustain : 1 ≤ policy.sustainSamples)
    (hn : n ≤ Streak.length (quietIn policy band) log) (hstreak : b.result 32 (n + 1) = some streak)
    (hsustained : policy.sustainSamples ≤ streak) (he : policy.band e.call.signals = band) :
    Sustained policy p log e := by
  have hle := Build.le_of_result hstreak
  obtain ⟨w, hw, hlen, hall⟩ :=
    Streak.le_length_iff.1 (show policy.sustainSamples - 1 ≤ Streak.length (quietIn policy band) log by
      omega)
  refine ⟨hp he, w, hw, by omega, fun f hf => ?_⟩
  have hquiet := hall f hf
  rw [quietIn, Bool.and_eq_true, decide_eq_true_iff, decide_eq_true_iff] at hquiet
  exact ⟨hp hquiet.1, hquiet.2⟩

/-- A cooldown that is open. -/
theorem Tracks.cooled (h : Tracks policy initial s)
    (hb : b = .checked ∨ policy.cooldownSecs * 1000 < 2 ^ 64)
    (hopen : cooldownOpen b policy s.state.lastActionAtMs e.call.nowMs = some true) :
    Cooled policy s.log e := by
  refine or_iff_not_imp_left.2 fun hcooldown f hf => ?_
  have hlast := h.last
  rw [hf, Option.map_some, Option.getD_some] at hlast
  have hpos := h.positive f (List.mem_filter.1 (List.mem_of_getLast? hf)).1
  rw [cooldownOpen, if_neg (by omega)] at hopen
  obtain ⟨ms, hms, hle⟩ := Option.bind_eq_some_iff.1 hopen
  have hms' := Build.eq_of_result hb hms
  have hle' : ms ≤ e.call.nowMs - s.state.lastActionAtMs := of_decide_eq_true (Option.some.inj hle)
  omega

/-! ### One call -/

@[simp] theorem tierAfter_concat (initial : String) (log : List Entry) (e : Entry) :
    tierAfter initial (log ++ [e]) = e.after := by simp [tierAfter]

theorem lastMove_concat (log : List Entry) (e : Entry) :
    lastMove (log ++ [e]) = if e.action.moves then some e else lastMove log := by
  cases h : e.action.moves <;> simp [lastMove, h]

/-- The streak of a band goes on with a call in it that leaves the tier. -/
theorem streak_quiet {band : Band} {n streak : ℕ} (hn : n ≤ Streak.length (quietIn policy band) log)
    (hstreak : b.result 32 (n + 1) = some streak) (hband : policy.band e.call.signals = band)
    (hquiet : e.after = e.before) : streak ≤ Streak.length (quietIn policy band) (log ++ [e]) := by
  have he : quietIn policy band e = true := by simp [quietIn, hband, hquiet]
  rw [Streak.length_concat, if_pos he]
  exact (Build.le_of_result hstreak).trans (Nat.succ_le_succ hn)

/-- The state and the entry that a call leaves. -/
structure Left (policy : ElasticPolicy) (s : Controller) (state : ElasticState) (e : Entry) : Prop where
  before : e.before = s.state.tier
  after : e.after = state.tier
  positive : 0 < e.call.nowMs
  ladder : state.tier ∈ ladder
  low : state.lowStreak ≤ Streak.length (quietIn policy .low) (s.log ++ [e])
  high : state.highStreak ≤ Streak.length (quietIn policy .high) (s.log ++ [e])
  latched : state.batteryLatched = true → state.lowStreak = 0 ∧ state.highStreak = 0
  last : state.lastActionAtMs = if e.action.moves then e.call.nowMs else s.state.lastActionAtMs
  named : e.Named
  down : ∀ src dst, e.action = .tierDown src dst →
    OneBelow src dst ∧ Sustained policy policy.Low s.log e ∧ Cooled policy s.log e
  up : ∀ src dst, e.action = .tierUp src dst →
    OneBelow dst src ∧ Sustained policy policy.High s.log e ∧ Cooled policy s.log e

theorem Tracks.push (h : Tracks policy initial s) {state : ElasticState} (he : Left policy s state e) :
    Tracks policy initial ⟨state, s.log ++ [e]⟩ where
  tier := by rw [tierAfter_concat, he.after]
  ladder := he.ladder
  low := he.low
  high := he.high
  latched := he.latched
  last := by
    rw [he.last, lastMove_concat, h.last]
    split <;> rfl
  positive := by
    intro f hf
    rcases List.mem_append.1 hf with hf | hf
    · exact h.positive f hf
    · exact List.mem_singleton.1 hf ▸ he.positive
  debounced := Streak.forall_concat h.debounced
    { before := he.before.trans h.tier
      ladder := ⟨he.before ▸ h.ladder, he.after ▸ he.ladder⟩
      named := he.named
      down := he.down
      up := he.up }

/-- **One call.** -/
theorem tracks_step (hsustain : 1 ≤ policy.sustainSamples)
    (hb : b = .checked ∨ policy.cooldownSecs * 1000 < 2 ^ 64) (hpos : 0 < c.nowMs)
    (h : Tracks policy initial s) (hstep : step b policy s c = some t) : Tracks policy initial t := by
  obtain ⟨⟨state, action⟩, hdecide, rfl⟩ := Option.map_eq_some_iff.1 hstep
  have hdecided := decided_of_decide hdecide
  refine h.push ?_
  generalize hband : policy.band c.signals = band at hdecided
  cases hdecided with
  | pinned hlatched htier =>
      exact ⟨rfl, rfl, hpos, lite_mem_ladder, Nat.zero_le _, Nat.zero_le _, fun _ => ⟨rfl, rfl⟩, rfl,
        ⟨rfl, rfl⟩, by simp, by simp⟩
  | latched htier =>
      exact ⟨rfl, rfl, hpos, h.ladder, Nat.zero_le _, Nat.zero_le _, fun _ => ⟨rfl, rfl⟩, rfl, rfl,
        by simp, by simp⟩
  | onBattery hlatched =>
      obtain ⟨hlow, hhigh⟩ := h.latched hlatched
      exact ⟨rfl, rfl, hpos, h.ladder, hlow ▸ Nat.zero_le _, hhigh ▸ Nat.zero_le _,
        fun _ => ⟨hlow, hhigh⟩, rfl, rfl, by simp, by simp⟩
  | critical hstreak =>
      refine ⟨rfl, rfl, hpos, h.ladder, Nat.zero_le _, Nat.zero_le _, by simp, ?_, ?_, ?_, ?_⟩ <;>
        dsimp only <;> split <;> simp [ElasticAction.moves, Entry.Named]
  | low hopen hstreak hstays =>
      exact ⟨rfl, rfl, hpos, h.ladder, streak_quiet h.low hstreak hband rfl, Nat.zero_le _, by simp, rfl,
        rfl, by simp, by simp⟩
  | down hopen hstreak hsustained htier =>
      obtain ⟨hone, hladder⟩ := stepDown_eq_some htier
      refine ⟨rfl, rfl, hpos, hladder, Nat.zero_le _, Nat.zero_le _, by simp, rfl, ⟨rfl, rfl⟩, ?_,
        by simp⟩
      rintro src dst ⟨⟩
      exact ⟨hone, sustained_of_streak low_of_band hsustain h.low hstreak hsustained hband,
        h.cooled hb hopen⟩
  | high hstreak =>
      exact ⟨rfl, rfl, hpos, h.ladder, Nat.zero_le _, streak_quiet h.high hstreak hband rfl, by simp,
        rfl, rfl, by simp, by simp⟩
  | up hopen hstreak hsustained htier =>
      obtain ⟨hone, hladder⟩ := stepUp_eq_some htier
      refine ⟨rfl, rfl, hpos, hladder, Nat.zero_le _, Nat.zero_le _, by simp, rfl, ⟨rfl, rfl⟩, by simp,
        ?_⟩
      rintro src dst ⟨⟩
      exact ⟨hone, sustained_of_streak high_of_band hsustain h.high hstreak hsustained hband,
        h.cooled hb hopen⟩
  | middle =>
      exact ⟨rfl, rfl, hpos, h.ladder, Nat.zero_le _, Nat.zero_le _, by simp, rfl, rfl, by simp,
        by simp⟩

/-! ### Every run -/

/-- **Tier changes are debounced in every run.** -/
theorem debounced_passes (hsustain : 1 ≤ policy.sustainSamples)
    (hb : b = .checked ∨ policy.cooldownSecs * 1000 < 2 ^ 64) (htier : initial ∈ ladder)
    {calls : List Call} (hpos : ∀ c ∈ calls, 0 < c.nowMs)
    (h : Passes (step b policy) (.new initial) calls s) :
    s.state.tier ∈ ladder ∧ Debounced policy initial s.log := by
  have htracks := passes_invariant (P := fun c : Call => 0 < c.nowMs)
    (fun s c t hc hs ht => tracks_step hsustain hb hc hs ht) hpos (tracks_new htier) h
  exact ⟨htracks.ladder, htracks.debounced⟩

/-- A call on mains. -/
def Call.onMains (memAvailableMib nowMs : ℕ) : Call := ⟨⟨memAvailableMib, false⟩, nowMs⟩

/-- Three samples in the low band. -/
def threeLow : List Call := [.onMains 900 30000, .onMains 900 60000, .onMains 900 90000]

theorem debounced_threeLow :
    ∃ s, exec (step .wrapping {}) (.new "full") threeLow = some s ∧ s.state.tier = "mid" ∧
      s.state.tier ∈ ladder ∧ Debounced {} "full" s.log := by
  have hpos : ∀ c ∈ threeLow, 0 < c.nowMs := by simp [threeLow, Call.onMains]
  refine ⟨_, rfl, rfl, ?_⟩
  exact debounced_passes (b := .wrapping) (by decide) (.inr (by decide)) (by decide) hpos
    ⟨threeLow, List.prefix_refl _, rfl⟩

/-- A policy without a cooldown, and without a debounce. -/
def eager : ElasticPolicy := { cooldownSecs := 0, sustainSamples := 1 }

/-- **Without a cooldown a change can be before the last one**, where the clock has gone back. -/
theorem not_cooled_eager :
    ∃ s e f, exec (step .checked eager) (.new "full") [.onMains 900 5000, .onMains 900 3000] = some s ∧
      s.log = [f, e] ∧ e.action = .tierDown "mid" "lite" ∧ f ∈ lastMove [f] ∧
      ¬ f.call.nowMs + eager.cooldownSecs * 1000 ≤ e.call.nowMs := by
  refine ⟨_, _, _, rfl, rfl, rfl, rfl, ?_⟩
  decide

end Elastic

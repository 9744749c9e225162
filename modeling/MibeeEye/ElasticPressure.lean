/-
**Sustained memory pressure is acted on.**

What is claimed of `Elastic.decide` under pressure, and the runs in which it holds.  A sample in the
critical band is in the low band too, but sets its counter back, so that memory that falls below the
critical line now and then is never answered with a smaller tier; and a battery session leaves the
critical counter as it was, so that samples before it and after it are counted as if they were in a row.

Main definitions:

* `Elastic.Heeded`, `Elastic.Pressed` — what is claimed of a call, and of all of them;
* `Elastic.Fits`, `Elastic.Steady` — the calls that do not overflow, and those for which it holds.

Main results:

* `Elastic.decide_isSome` — a call that does not overflow returns;
* `Elastic.counts_step` — **one call**;
* `Elastic.pressed_of_steady` — **a run of such calls**.
-/

import MibeeEye.ElasticDebounce

set_option relaxedAutoImplicit false
set_option autoImplicit false

namespace Elastic

open FixedWidth Machine

/-! ### What is claimed -/

/-- On mains, with memory below a line. -/
def ElasticSignals.Below (signals : ElasticSignals) (lineMib : ℕ) : Prop :=
  signals.battery = false ∧ signals.memAvailableMib < lineMib

instance (signals : ElasticSignals) (lineMib : ℕ) : Decidable (signals.Below lineMib) :=
  inferInstanceAs (Decidable (_ ∧ _))

/-- A downgrade. -/
def ElasticAction.isDown : ElasticAction → Bool
  | .tierDown _ _ => true
  | .tierUp _ _ | .batteryPin _ _ | .recommendMinimalForm | .noop => false

/-- The cooldown is open at a moment after some calls. -/
def IsOpen (policy : ElasticPolicy) (pre : List Entry) (nowMs : ℕ) : Prop :=
  ∀ f ∈ lastMove pre, policy.cooldownSecs * 1000 ≤ nowMs - f.call.nowMs

/-- **What is claimed of a call after some others**: with as many samples below the line as the policy
asks for, the cooldown open and the tier not the last one, there is a downgrade among them; and the
minimal form is advised only with as many below the critical line. -/
structure Heeded (policy : ElasticPolicy) (pre : List Entry) (e : Entry) : Prop where
  acts : ∀ w, w <:+ pre → w.length + 1 = policy.sustainSamples →
    (∀ f ∈ w ++ [e], f.call.signals.Below policy.enterLowMib) → IsOpen policy pre e.call.nowMs →
      e.before ≠ "lite" → ∃ f ∈ w ++ [e], f.action.isDown = true
  advises : e.action = .recommendMinimalForm → ∃ w, w <:+ pre ∧ w.length = policy.sustainSamples - 1 ∧
    ∀ f ∈ w ++ [e], f.call.signals.Below policy.criticalMib

/-- **Sustained pressure is acted on.** -/
def Pressed (policy : ElasticPolicy) (log : List Entry) : Prop :=
  ∀ pre e post, log = pre ++ e :: post → Heeded policy pre e

/-! ### The calls for which it holds -/

/-- The cooldown has 64 bits where it is looked at. -/
def CooldownFits (policy : ElasticPolicy) (state : ElasticState) : Prop :=
  state.lastActionAtMs ≠ 0 → policy.cooldownSecs * 1000 < 2 ^ 64

/-- A call with a sample of a band does not overflow. -/
def Fits (policy : ElasticPolicy) (state : ElasticState) : Band → Prop
  | .battery => True
  | .critical => state.criticalStreak + 1 < 2 ^ 32
  | .low => state.lowStreak + 1 < 2 ^ 32 ∧ CooldownFits policy state
  | .high => state.highStreak + 1 < 2 ^ 32 ∧ CooldownFits policy state
  | .middle => CooldownFits policy state

/-- **The calls for which the claim holds**: they do not overflow; where a downgrade is due, no sample is
below the critical line, and the tier is on the ladder; and the samples that are counted as critical are
not interrupted by the battery. -/
structure Steady (policy : ElasticPolicy) (s : Controller) (c : Call) : Prop where
  fits : Fits policy s.state (policy.band c.signals)
  level : ∀ w, w <:+ s.log → w.length + 1 = policy.sustainSamples →
    (∀ f ∈ w, f.call.signals.Below policy.enterLowMib ∧ f.action.isDown = false) →
      c.signals.Below policy.enterLowMib → IsOpen policy s.log c.nowMs → s.state.tier ≠ "lite" →
        (∀ f ∈ w, policy.criticalMib ≤ f.call.signals.memAvailableMib) ∧
          policy.criticalMib ≤ c.signals.memAvailableMib ∧ (stepDown s.state.tier).isSome
  unbroken : policy.band c.signals = .critical →
    policy.sustainSamples ≤ s.state.criticalStreak + 1 →
      ∀ w, w <:+ s.log → w.length = policy.sustainSamples - 1 → ∀ f ∈ w, f.call.signals.battery = false

variable {b : Build} {policy : ElasticPolicy} {initial : String} {s t : Controller} {c : Call}
  {log : List Entry} {e : Entry} {signals : ElasticSignals} {state : ElasticState} {nowMs : ℕ}

/-! ### A call that does not overflow -/

theorem CooldownFits.exists_cooldownOpen (h : CooldownFits policy state) (nowMs : ℕ) :
    ∃ isOpen, cooldownOpen b policy state.lastActionAtMs nowMs = some isOpen := by
  by_cases hlast : state.lastActionAtMs = 0
  · exact ⟨true, if_pos hlast⟩
  · exact ⟨_, by rw [cooldownOpen, if_neg hlast, Build.result_eq (h hlast)]; rfl⟩

/-- A call that does not overflow returns. -/
theorem decide_isSome (h : Fits policy state (policy.band signals)) :
    (decide b policy signals state nowMs).isSome := by
  unfold ElasticPolicy.band at h
  unfold decide
  cases hbattery : signals.battery with
  | true =>
      simp only [Bool.true_and, if_true]
      split
      · split <;> rfl
      · rfl
  | false =>
      simp only [hbattery, Bool.false_and, Bool.false_eq_true, if_false] at h ⊢
      by_cases hcritical : signals.memAvailableMib < policy.criticalMib
      · rw [if_pos hcritical] at h ⊢
        rw [Build.result_eq (show state.criticalStreak + 1 < 2 ^ 32 from h)]
        simp only [Option.bind_eq_bind, Option.bind_some]
        split <;> rfl
      · rw [if_neg hcritical] at h ⊢
        by_cases hlow : signals.memAvailableMib < policy.enterLowMib
        · rw [if_pos hlow] at h
          obtain ⟨isOpen, hopen⟩ := h.2.exists_cooldownOpen (b := b) nowMs
          rw [hopen]
          simp only [Option.bind_eq_bind, Option.bind_some, if_pos hlow, Build.result_eq h.1]
          split
          · split <;> rfl
          · rfl
        · rw [if_neg hlow] at h
          by_cases hhigh : policy.exitLowMib < signals.memAvailableMib
          · rw [if_pos hhigh] at h
            obtain ⟨isOpen, hopen⟩ := h.2.exists_cooldownOpen (b := b) nowMs
            rw [hopen]
            simp only [Option.bind_eq_bind, Option.bind_some, if_neg hlow, if_pos hhigh,
              Build.result_eq h.1]
            split
            · split <;> rfl
            · rfl
          · rw [if_neg hhigh] at h
            obtain ⟨isOpen, hopen⟩ := CooldownFits.exists_cooldownOpen (b := b) h nowMs
            rw [hopen]
            simp only [Option.bind_eq_bind, Option.bind_some, if_neg hlow, if_neg hhigh]
            rfl

/-! ### What the state has of the calls -/

/-- A call with a sample in the low band that is no downgrade. -/
def unanswered (policy : ElasticPolicy) (e : Entry) : Bool :=
  policy.band e.call.signals = .low && !e.action.isDown

/-- A call on battery, or with a sample in the critical band. -/
def uncounted (policy : ElasticPolicy) (e : Entry) : Bool :=
  policy.band e.call.signals = .battery || policy.band e.call.signals = .critical

/-- **What the state has of the calls**: the streak of the low band as it is, no more of the critical
one than there is but for the calls on battery, and the moment of the last change. -/
structure Counts (policy : ElasticPolicy) (s : Controller) : Prop where
  low : s.state.lowStreak = Streak.length (unanswered policy) s.log
  critical : s.state.criticalStreak ≤ Streak.length (uncounted policy) s.log
  latched : s.state.batteryLatched = true → s.state.lowStreak = 0
  last : s.state.lastActionAtMs = ((lastMove s.log).map fun e => e.call.nowMs).getD 0
  pressed : Pressed policy s.log

theorem counts_new (policy : ElasticPolicy) (initial : String) : Counts policy (.new initial) where
  low := rfl
  critical := Nat.zero_le _
  latched := fun _ => rfl
  last := rfl
  pressed := by
    intro pre e post h
    simp [Controller.new] at h

/-! ### Bands -/

theorem band_eq_low (h : signals.Below policy.enterLowMib)
    (hlevel : policy.criticalMib ≤ signals.memAvailableMib) : policy.band signals = .low := by
  simp [ElasticPolicy.band, h.1, h.2, Nat.not_lt.2 hlevel]

theorem below_of_band (h : policy.band signals = .critical) : signals.Below policy.criticalMib := by
  unfold ElasticPolicy.band at h
  unfold ElasticSignals.Below
  cases hbattery : signals.battery with
  | true => simp [hbattery] at h
  | false =>
      simp only [hbattery, Bool.false_eq_true, if_false] at h
      split at h
      · next hcritical => exact ⟨rfl, hcritical⟩
      · split at h
        · cases h
        · split at h <;> cases h

theorem battery_of_band (h : policy.band signals = .battery) : signals.battery = true := by
  unfold ElasticPolicy.band at h
  cases hbattery : signals.battery with
  | true => rfl
  | false =>
      simp only [hbattery, Bool.false_eq_true, if_false] at h
      split at h
      · cases h
      · split at h
        · cases h
        · split at h <;> cases h

/-! ### One call -/

/-- Where a downgrade is due, the last calls are a streak. -/
theorem Steady.le_lowStreak (hc : Steady policy s c) (h : Counts policy s) {w : List Entry}
    (hw : w <:+ s.log) (hlen : w.length + 1 = policy.sustainSamples)
    (hbelow : ∀ f ∈ w, f.call.signals.Below policy.enterLowMib ∧ f.action.isDown = false)
    (hcall : c.signals.Below policy.enterLowMib) (hopen : IsOpen policy s.log c.nowMs)
    (htier : s.state.tier ≠ "lite") :
    policy.band c.signals = .low ∧ policy.sustainSamples ≤ s.state.lowStreak + 1 ∧
      (stepDown s.state.tier).isSome := by
  obtain ⟨hlevel, hcalllevel, hsome⟩ := hc.level w hw hlen hbelow hcall hopen htier
  refine ⟨band_eq_low hcall hcalllevel, ?_, hsome⟩
  have hstreak : w.length ≤ Streak.length (unanswered policy) s.log := by
    refine Streak.le_length_iff.2 ⟨w, hw, rfl, fun f hf => ?_⟩
    rw [unanswered, band_eq_low (hbelow f hf).1 (hlevel f hf), (hbelow f hf).2]
    rfl
  rw [h.low]
  omega

/-- Where the advice is given, the last calls are below the critical line. -/
theorem Steady.exists_critical (hc : Steady policy s c) (h : Counts policy s)
    (hband : policy.band c.signals = .critical)
    (hsustained : policy.sustainSamples ≤ s.state.criticalStreak + 1) :
    ∃ w, w <:+ s.log ∧ w.length = policy.sustainSamples - 1 ∧
      ∀ f ∈ w, f.call.signals.Below policy.criticalMib := by
  obtain ⟨w, hw, hlen, hall⟩ := Streak.le_length_iff.1
    ((Nat.sub_le_of_le_add hsustained).trans h.critical)
  refine ⟨w, hw, hlen, fun f hf => ?_⟩
  have hmains := hc.unbroken hband hsustained w hw hlen f hf
  have huncounted := hall f hf
  rw [uncounted, Bool.or_eq_true, decide_eq_true_iff, decide_eq_true_iff] at huncounted
  rcases huncounted with hbattery | hcritical
  · rw [battery_of_band hbattery] at hmains
    cases hmains
  · exact below_of_band hcritical

/-- The cooldown that is open is found open. -/
theorem Counts.cooldownOpen_eq (h : Counts policy s) (hopen : IsOpen policy s.log nowMs)
    {isOpen : Bool} (hfound : cooldownOpen b policy s.state.lastActionAtMs nowMs = some isOpen) :
    isOpen = true := by
  by_cases hlast : s.state.lastActionAtMs = 0
  · rw [cooldownOpen, if_pos hlast] at hfound
    exact (Option.some.inj hfound).symm
  · rw [cooldownOpen, if_neg hlast] at hfound
    obtain ⟨ms, hms, hle⟩ := Option.bind_eq_some_iff.1 hfound
    have hmoved := h.last
    cases hmove : lastMove s.log with
    | none =>
        rw [hmove] at hmoved
        exact absurd hmoved hlast
    | some f =>
        rw [hmove] at hmoved
        have hcooldown := hopen f hmove
        have hle' : ms ≤ nowMs - s.state.lastActionAtMs := by
          rw [hmoved]
          exact (Build.le_of_result hms).trans hcooldown
        rw [← Option.some.inj hle]
        exact decide_eq_true hle'

/-- A call with a downgrade where one is due. -/
theorem Steady.acts (hc : Steady policy s e.call) (h : Counts policy s)
    (hbefore : e.before = s.state.tier)
    (hdown : policy.band e.call.signals = .low → policy.sustainSamples ≤ s.state.lowStreak + 1 →
      (stepDown s.state.tier).isSome → IsOpen policy s.log e.call.nowMs → e.action.isDown = true) :
    ∀ w, w <:+ s.log → w.length + 1 = policy.sustainSamples →
      (∀ f ∈ w ++ [e], f.call.signals.Below policy.enterLowMib) → IsOpen policy s.log e.call.nowMs →
        e.before ≠ "lite" → ∃ f ∈ w ++ [e], f.action.isDown = true := by
  intro w hw hlen hbelow hopen htier
  by_contra hnone
  have hquiet : ∀ f ∈ w ++ [e], f.action.isDown = false := fun f hf =>
    Bool.eq_false_iff.2 fun hf' => hnone ⟨f, hf, hf'⟩
  obtain ⟨hband, hsustained, hsome⟩ := hc.le_lowStreak h hw hlen
    (fun f hf => ⟨hbelow f (by simp [hf]), hquiet f (by simp [hf])⟩) (hbelow e (by simp)) hopen
    (hbefore ▸ htier)
  have he := hdown hband hsustained hsome hopen
  rw [hquiet e (by simp)] at he
  cases he

theorem Counts.push (h : Counts policy s) (hlow : state.lowStreak =
      Streak.length (unanswered policy) (s.log ++ [e]))
    (hcritical : state.criticalStreak ≤ Streak.length (uncounted policy) (s.log ++ [e]))
    (hlatched : state.batteryLatched = true → state.lowStreak = 0)
    (hlast : state.lastActionAtMs = if e.action.moves then e.call.nowMs else s.state.lastActionAtMs)
    (heeded : Heeded policy s.log e) : Counts policy ⟨state, s.log ++ [e]⟩ where
  low := hlow
  critical := hcritical
  latched := hlatched
  last := by
    rw [hlast, lastMove_concat, h.last]
    split <;> rfl
  pressed := Streak.forall_concat h.pressed heeded

/-- A call that ends the streak of the low band. -/
theorem streak_answered (h : unanswered policy e = false) :
    0 = Streak.length (unanswered policy) (log ++ [e]) := by
  rw [Streak.length_concat, h]
  rfl

/-- A call on battery leaves the critical streak. -/
theorem streak_uncounted {n streak : ℕ} (hn : n ≤ Streak.length (uncounted policy) log)
    (h : uncounted policy e = true) (hstreak : streak ≤ n + 1) :
    streak ≤ Streak.length (uncounted policy) (log ++ [e]) := by
  rw [Streak.length_concat, if_pos h]
  exact hstreak.trans (Nat.succ_le_succ hn)

/-- **One call.** -/
theorem counts_step (hc : Steady policy s c) (h : Counts policy s)
    (hstep : step b policy s c = some t) : Counts policy t := by
  obtain ⟨⟨state, action⟩, hdecide, rfl⟩ := Option.map_eq_some_iff.1 hstep
  have hdecided := decided_of_decide hdecide
  have hfits := hc.fits
  generalize hband : policy.band c.signals = band at hdecided hfits
  cases hdecided with
  | pinned hlatched htier =>
      refine h.push (streak_answered ?_) (streak_uncounted h.critical ?_ (Nat.le_succ _)) (fun _ => rfl)
        rfl ⟨hc.acts h rfl ?_, by simp⟩ <;> simp [unanswered, uncounted, hband]
  | latched htier =>
      refine h.push (streak_answered ?_) (streak_uncounted h.critical ?_ (Nat.le_succ _)) (fun _ => rfl)
        rfl ⟨hc.acts h rfl ?_, by simp⟩ <;> simp [unanswered, uncounted, hband]
  | onBattery hlatched =>
      refine h.push ((h.latched hlatched).trans (streak_answered ?_))
        (streak_uncounted h.critical ?_ (Nat.le_succ _)) h.latched rfl ⟨hc.acts h rfl ?_, by simp⟩ <;>
          simp [unanswered, uncounted, hband]
  | @critical streak hstreak =>
      have hle := Build.le_of_result hstreak
      refine h.push (streak_answered ?_) (streak_uncounted h.critical ?_ hle) (by simp) ?_
        ⟨hc.acts h rfl ?_, fun hadvice => ?_⟩
      · simp [unanswered, hband]
      · simp [uncounted, hband]
      · dsimp only
        split <;> rfl
      · simp [hband]
      · have hsustained : policy.sustainSamples ≤ streak := by
          by_contra hnot
          rw [if_neg hnot] at hadvice
          cases hadvice
        obtain ⟨w, hw, hlen, hall⟩ := hc.exists_critical h hband (hsustained.trans hle)
        refine ⟨w, hw, hlen, fun f hf => ?_⟩
        rcases List.mem_append.1 hf with hf | hf
        · exact hall f hf
        · rw [List.mem_singleton.1 hf]
          exact below_of_band hband
  | @low isOpen streak hopen hstreak hstays =>
      obtain rfl : streak = s.state.lowStreak + 1 :=
        Option.some.inj (hstreak.symm.trans (Build.result_eq hfits.1))
      refine h.push ?_ (Nat.zero_le _) (by simp) rfl ⟨hc.acts h rfl ?_, by simp⟩
      · rw [Streak.length_concat, if_pos (by simp [unanswered, hband, ElasticAction.isDown]), h.low]
      · intro _ hsustained hsome hisOpen
        rw [hstays hsustained (h.cooldownOpen_eq hisOpen hopen)] at hsome
        cases hsome
  | down hopen hstreak hsustained htier =>
      refine h.push (streak_answered ?_) (Nat.zero_le _) (by simp) rfl
        ⟨hc.acts h rfl fun _ _ _ _ => rfl, by simp⟩
      simp [unanswered, ElasticAction.isDown]
  | high hstreak =>
      refine h.push (streak_answered ?_) (Nat.zero_le _) (by simp) rfl ⟨hc.acts h rfl ?_, by simp⟩ <;>
        simp [unanswered, hband]
  | up hopen hstreak hsustained htier =>
      refine h.push (streak_answered ?_) (Nat.zero_le _) (by simp) rfl ⟨hc.acts h rfl ?_, by simp⟩ <;>
        simp [unanswered, hband]
  | middle =>
      refine h.push (streak_answered ?_) (Nat.zero_le _) (by simp) rfl ⟨hc.acts h rfl ?_, by simp⟩ <;>
        simp [unanswered, hband]

/-! ### Every run -/

/-- **Sustained pressure is acted on in a run of steady calls**, each of which returns. -/
theorem pressed_of_steady (b : Build) {policy : ElasticPolicy} {initial : String} {calls : List Call}
    (hsteady : ∀ u c, Occurs (step b policy) (.new initial) calls u c → Steady policy u c) :
    (exec (step b policy) (.new initial) calls).isSome ∧
      ∀ t, Passes (step b policy) (.new initial) calls t → Pressed policy t.log := by
  constructor
  · refine exec_isSome fun u c hocc => ?_
    rw [step, Option.isSome_map]
    exact decide_isSome (hsteady u c hocc).fits
  · intro t ht
    exact (passes_induction (I := Counts policy)
      (fun u c v hocc hu hv => counts_step (hsteady u c hocc) hu hv) (counts_new policy initial) ht).pressed

/-- A check for calls in the low band, on the ladder, with no sample below the critical line. -/
def calm (policy : ElasticPolicy) (s : Controller) (c : Call) : Bool :=
  policy.band c.signals = .low &&
    s.log.all (fun f => policy.criticalMib ≤ f.call.signals.memAvailableMib) &&
    policy.criticalMib ≤ c.signals.memAvailableMib && (stepDown s.state.tier).isSome &&
    s.state.lowStreak + 1 < 2 ^ 32 && policy.cooldownSecs * 1000 < 2 ^ 64

theorem steady_of_calm (h : calm policy s c = true) : Steady policy s c := by
  simp only [calm, Bool.and_eq_true, decide_eq_true_eq, List.all_eq_true] at h
  obtain ⟨⟨⟨⟨⟨hband, hlog⟩, hcall⟩, htier⟩, hlow⟩, hcooldown⟩ := h
  refine ⟨?_, fun w hw _ _ _ _ _ => ⟨fun f hf => hlog f (hw.subset hf), hcall, htier⟩, ?_⟩
  · rw [hband]
    exact ⟨hlow, fun _ => hcooldown⟩
  · rw [hband]
    exact fun hcritical => by cases hcritical

theorem pressed_threeLow :
    ∃ s, exec (step .wrapping {}) (.new "full") threeLow = some s ∧ s.state.tier = "mid" ∧
      Pressed {} s.log := by
  have hsteady : ∀ u c, Occurs (step .wrapping {}) (.new "full") threeLow u c → Steady {} u c :=
    fun u c hocc => steady_of_calm (forall_occurs_of_along (p := calm {}) (by decide) u c hocc)
  refine ⟨_, rfl, rfl, ?_⟩
  exact (pressed_of_steady .wrapping hsteady).2 _ ⟨threeLow, List.prefix_refl _, rfl⟩

/-- Memory falls below the critical line for one of three samples. -/
def dipping : List Call := [.onMains 900 30000, .onMains 300 60000, .onMains 900 90000]

/-- Two samples below the critical line, one on battery, and one below the line again. -/
def unplugged : List Call :=
  [.onMains 300 30000, .onMains 300 60000, ⟨⟨300, true⟩, 90000⟩, .onMains 300 120000]

/-- **Pressure that is not acted on, and advice without it**: there is no downgrade after three samples
below the line, one of them critical; and the advice is given though one of the last three calls was on
battery. -/
theorem not_pressed :
    (∃ s, exec (step .checked {}) (.new "full") dipping = some s ∧ ¬ Pressed {} s.log) ∧
      ∃ s, exec (step .checked {}) (.new "full") unplugged = some s ∧ ¬ Pressed {} s.log := by
  refine ⟨⟨_, rfl, fun h => ?_⟩, _, rfl, fun h => ?_⟩
  · have hheeded := h [⟨.onMains 900 30000, "full", .noop, "full"⟩,
      ⟨.onMains 300 60000, "full", .noop, "full"⟩] ⟨.onMains 900 90000, "full", .noop, "full"⟩ [] rfl
    obtain ⟨f, hf, hdown⟩ := hheeded.acts _ (List.suffix_refl _) rfl (by decide)
      (by intro f hf; cases hf) (by decide)
    simp only [List.cons_append, List.nil_append, List.mem_cons, List.not_mem_nil, or_false] at hf
    rcases hf with rfl | rfl | rfl <;> cases hdown
  · have hheeded := h [⟨.onMains 300 30000, "full", .noop, "full"⟩,
      ⟨.onMains 300 60000, "full", .noop, "full"⟩,
      ⟨⟨⟨300, true⟩, 90000⟩, "full", .batteryPin "full" "lite", "lite"⟩]
      ⟨.onMains 300 120000, "lite", .recommendMinimalForm, "lite"⟩ [] rfl
    obtain ⟨w, hw, hlen, hall⟩ := hheeded.advises rfl
    rw [List.suffix_iff_eq_drop, hlen] at hw
    have hbattery := hall ⟨⟨⟨300, true⟩, 90000⟩, "full", .batteryPin "full" "lite", "lite"⟩ (by
      rw [hw]
      simp)
    cases hbattery.1

end Elastic

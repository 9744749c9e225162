/-
**Alarms.**

The detections of the cameras come in as samples, and an alarm goes out on a rising edge: the camera sees
something now, and did not with its sample before.  An edge that comes too soon behind the last alarm of
the camera is dropped (`crates/web/src/alarm.rs`).  The times are those of a clock that does not go back,
as `Instant::now` is one (`src/runtime/ai_bridge.rs`).

Main definitions:

* `Alarm.AlarmBridge.observe` — one sample;
* `Alarm.Site`, `Alarm.step` — the bridge, and the clock;
* `Alarm.Signals` — a sample that an alarm goes out for.

Main results:

* `Alarm.observe_iff` — **which samples an alarm goes out for**, in every run;
* `Alarm.signals_spaced` — **two alarms of a camera are a cooldown apart**;
* `Alarm.alarms_filter` — **the cameras do not get in each other's way**.
-/

import MibeeEye.WaitingTimes

set_option relaxedAutoImplicit false
set_option autoImplicit false

namespace Alarm

/-! ### The bridge -/

/-- What `observe` is called with. -/
structure Sample where
  cameraId : String
  targets : ℕ
  now : ℕ
  timestampMs : ℕ
  deriving DecidableEq, Repr

/-- `AlarmSignal` -/
structure AlarmSignal where
  cameraId : String
  targets : ℕ
  timestampMs : ℕ
  deriving DecidableEq, Repr

/-- `AlarmBridge` -/
structure AlarmBridge where
  wasActive : String → Option Bool := fun _ => none
  lastFire : String → Option ℕ := fun _ => none
  cooldown : ℕ

/-- `AlarmBridge::observe` -/
def AlarmBridge.observe (b : AlarmBridge) (e : Sample) : Option AlarmSignal × AlarmBridge :=
  let active := decide (0 < e.targets)
  let was := (b.wasActive e.cameraId).getD false
  let b := { b with wasActive := Function.update b.wasActive e.cameraId (some active) }
  if !active || was then (none, b)
  else
    match b.lastFire e.cameraId with
    | some t =>
        if e.now - t < b.cooldown then (none, b)
        else (some ⟨e.cameraId, e.targets, e.timestampMs⟩,
          { b with lastFire := Function.update b.lastFire e.cameraId (some e.now) })
    | none => (some ⟨e.cameraId, e.targets, e.timestampMs⟩,
        { b with lastFire := Function.update b.lastFire e.cameraId (some e.now) })

/-- A rising edge: the camera sees something, and did not before. -/
def AlarmBridge.Rises (b : AlarmBridge) (e : Sample) : Prop :=
  0 < e.targets ∧ (b.wasActive e.cameraId).getD false = false

instance (b : AlarmBridge) (e : Sample) : Decidable (b.Rises e) :=
  inferInstanceAs (Decidable (_ ∧ _))

/-- What the bridge asks the gate: at a rising edge, for the camera. -/
def AlarmBridge.asks (b : AlarmBridge) (e : Sample) : Option (Cooldown.Ask String) :=
  if b.Rises e then some ⟨e.cameraId, e.now, b.cooldown⟩ else none

variable {b : AlarmBridge} {e : Sample}

/-- **One sample**: an alarm goes out if the gate lets it through. -/
theorem observe_eq (b : AlarmBridge) (e : Sample) :
    b.observe e = (
      if (b.asks e).any fun ask => (Cooldown.gate b.lastFire ask).1 then
        some ⟨e.cameraId, e.targets, e.timestampMs⟩ else none,
      { wasActive := Function.update b.wasActive e.cameraId (some (decide (0 < e.targets)))
        lastFire := ((b.asks e).map fun ask => (Cooldown.gate b.lastFire ask).2).getD b.lastFire
        cooldown := b.cooldown }) := by
  by_cases hrises : b.Rises e
  · have hasks : b.asks e = some ⟨e.cameraId, e.now, b.cooldown⟩ := if_pos hrises
    simp only [AlarmBridge.observe, hrises.1, hrises.2, hasks, decide_true, Bool.not_true, Bool.or_self,
      Bool.false_eq_true, if_false, Option.any_some, Option.map_some, Option.getD_some]
    cases hlast : b.lastFire e.cameraId with
    | none => simp [Cooldown.gate, hlast]
    | some t =>
        by_cases hsoon : e.now - t < b.cooldown
        · simp [Cooldown.gate, hlast, hsoon, Nat.not_le.2 hsoon]
        · simp [Cooldown.gate, hlast, hsoon, Nat.not_lt.1 hsoon]
  · have hasks : b.asks e = none := if_neg hrises
    have hquiet : (!decide (0 < e.targets) || (b.wasActive e.cameraId).getD false) = true := by
      by_contra hloud
      rw [Bool.not_eq_true, Bool.or_eq_false_iff, Bool.not_eq_false', decide_eq_true_eq] at hloud
      exact hrises hloud
    simp only [AlarmBridge.observe, hquiet, if_true, hasks, Option.any_none, Bool.false_eq_true,
      if_false, Option.map_none, Option.getD_none]

/-! ### The bridge in its loop -/

/-- The bridge, and the time of the last sample. -/
structure Site where
  bridge : AlarmBridge
  clock : ℕ := 0

/-- One sample; the clock does not go back. -/
def step (s : Site) (e : Sample) : Option Site :=
  if s.clock ≤ e.now then some ⟨(s.bridge.observe e).2, e.now⟩ else none

/-- The loop begins with `AlarmBridge::new`. -/
def start (cooldown : ℕ) : Site := ⟨{ cooldown := cooldown }, 0⟩

/-- An alarm goes out for the sample. -/
def Signals (s : Site) (e : Sample) (signal : AlarmSignal) : Prop :=
  (s.bridge.observe e).1 = some signal

/-- A sample of the camera, and what it shows. -/
def Sees (camera : String) (_ : Site) (e : Sample) : Prop := e.cameraId = camera ∧ 0 < e.targets

/-- A sample of the camera. -/
def IsOf (camera : String) (_ : Site) (e : Sample) : Prop := e.cameraId = camera

/-- An alarm of the camera goes out at this time. -/
def Fires (camera : String) (n : ℕ) (s : Site) (e : Sample) : Prop :=
  e.cameraId = camera ∧ e.now = n ∧ ∃ signal, Signals s e signal

/-- An alarm of the camera goes out. -/
def FiresAt (camera : String) (s : Site) (e : Sample) : Prop := ∃ n, Fires camera n s e

variable {s t : Site} {es : List Sample} {camera : String} {n cooldown : ℕ} {signal : AlarmSignal}

/-- What a step has done. -/
theorem step_eq_some (h : step s e = some t) :
    s.clock ≤ e.now ∧ t = ⟨(s.bridge.observe e).2, e.now⟩ := by
  rw [step] at h
  split at h
  · rename_i hclock
    exact ⟨hclock, (Option.some.inj h).symm⟩
  · cases h

/-- The bridge uses the gate. -/
theorem uses : Cooldown.Uses step (fun s => s.bridge.lastFire) (fun s e => s.bridge.asks e) where
  last_step := by
    intro s e t h
    obtain ⟨-, rfl⟩ := step_eq_some h
    simp only [observe_eq]

/-- An alarm goes out if the gate lets it through. -/
theorem signals_iff : Signals s e signal ↔ signal = ⟨e.cameraId, e.targets, e.timestampMs⟩ ∧
    ∃ ask, s.bridge.asks e = some ask ∧ (Cooldown.gate s.bridge.lastFire ask).1 = true := by
  rw [Signals, observe_eq]
  cases hask : s.bridge.asks e with
  | none => simp
  | some ask =>
      rw [Option.any_some]
      by_cases hgate : (Cooldown.gate s.bridge.lastFire ask).1 = true
      · rw [if_pos hgate, Option.some.injEq]
        exact ⟨fun h => ⟨h.symm, ask, rfl, hgate⟩, fun h => h.1.symm⟩
      · rw [if_neg hgate]
        refine iff_of_false nofun ?_
        rintro ⟨-, ask', hask', hgate'⟩
        cases hask'
        exact hgate hgate'

/-- A camera fires when the gate lets it through. -/
theorem fires_eq : Fires camera n =
    Cooldown.Passes (fun s => s.bridge.lastFire) (fun s e => s.bridge.asks e) camera n := by
  funext s e
  refine propext ?_
  simp only [Fires, signals_iff, exists_and_right, exists_eq, true_and, Cooldown.Passes]
  constructor
  · rintro ⟨rfl, rfl, ask, hask, hgate⟩
    have hasked := hask
    rw [AlarmBridge.asks] at hasked
    split at hasked
    · cases hasked
      exact ⟨_, hask, rfl, rfl, hgate⟩
    · cases hasked
  · rintro ⟨ask, hask, rfl, rfl, hgate⟩
    have hasked := hask
    rw [AlarmBridge.asks] at hasked
    split at hasked
    · cases hasked
      exact ⟨rfl, rfl, _, hask, hgate⟩
    · cases hasked

theorem firesAt_eq : FiresAt camera =
    Cooldown.PassesAt (fun s => s.bridge.lastFire) (fun s e => s.bridge.asks e) camera := by
  funext s e
  simp only [FiresAt, fires_eq, Cooldown.PassesAt]

/-- What a camera showed last. -/
theorem wasActive_iff (h : Machine.exec step (start cooldown) es = some s) :
    (s.bridge.wasActive camera).getD false = true ↔
      Machine.Since step (Sees camera) (IsOf camera) (start cooldown) es := by
  refine @Machine.since_iff _ _ step (Sees camera) (IsOf camera) (start cooldown) s es
    (fun s => (s.bridge.wasActive camera).getD false = true) ?_ (by simp [start]) h
  intro s e t hstep
  obtain ⟨-, rfl⟩ := step_eq_some hstep
  simp only [observe_eq, Sees, IsOf]
  by_cases hcamera : camera = e.cameraId
  · subst hcamera
    simp
  · simp [Function.update_of_ne hcamera, Ne.symm hcamera]

/-- The cooldown stays what it was. -/
theorem cooldown_exec (h : Machine.exec step (start cooldown) es = some s) :
    s.bridge.cooldown = cooldown := by
  refine @Machine.exec_invariant _ _ step (fun s => s.bridge.cooldown = cooldown) (fun _ => True) ?_ es
    (start cooldown) s (fun _ _ => trivial) rfl h
  intro s e t _ hs hstep
  obtain ⟨-, rfl⟩ := step_eq_some hstep
  rw [observe_eq]
  exact hs

/-! ### Which alarms go out -/

/-- **Which samples an alarm goes out for**, behind any samples: those that show something, while the
sample of the camera before did not, and the last alarm of the camera was a cooldown ago. -/
theorem observe_iff (cooldown : ℕ) {es : List Sample} {s : Site}
    (h : Machine.exec step (start cooldown) es = some s) (e : Sample) (signal : AlarmSignal) :
    (s.bridge.observe e).1 = some signal ↔
      signal = ⟨e.cameraId, e.targets, e.timestampMs⟩ ∧ 0 < e.targets ∧
        ¬ Machine.Since step (Sees e.cameraId) (IsOf e.cameraId) (start cooldown) es ∧
        ∀ n, Machine.Since step (Fires e.cameraId n) (FiresAt e.cameraId) (start cooldown) es →
          cooldown ≤ e.now - n := by
  have hlast := fun n => uses.last_iff (k := e.cameraId) (n := n) rfl h
  have hasks : (∃ ask, s.bridge.asks e = some ask ∧ (Cooldown.gate s.bridge.lastFire ask).1 = true) ↔
      s.bridge.Rises e ∧ ∀ n, s.bridge.lastFire e.cameraId = some n → cooldown ≤ e.now - n := by
    rw [AlarmBridge.asks, cooldown_exec h]
    by_cases hrises : s.bridge.Rises e
    · simp [hrises, Cooldown.isOver_iff]
    · simp [hrises]
  have hrises : s.bridge.Rises e ↔ 0 < e.targets ∧
      ¬ Machine.Since step (Sees e.cameraId) (IsOf e.cameraId) (start cooldown) es := by
    rw [AlarmBridge.Rises, ← wasActive_iff h, Bool.not_eq_true]
  rw [← Signals, signals_iff, hasks, hrises, and_assoc]
  simp only [hlast, fires_eq, firesAt_eq]

/-- A camera sees something, and then nothing any more. -/
def passingBy : List Sample := [⟨"0", 2, 1, 1000⟩, ⟨"0", 0, 2, 2000⟩]

/-- What it sees after the cooldown goes out. -/
theorem observe_passingBy : ∃ s, Machine.exec step (start 30) passingBy = some s ∧
    ∀ n, Machine.Since step (Fires "0" n) (FiresAt "0") (start 30) passingBy → 30 ≤ 100 - n := by
  refine ⟨_, rfl, ?_⟩
  exact ((observe_iff 30 rfl ⟨"0", 1, 100, 9000⟩ ⟨"0", 1, 9000⟩).1 (by decide)).2.2.2

/-- **Two alarms of a camera are a cooldown apart.** -/
theorem signals_spaced (cooldown : ℕ) {es₁ es₂ : List Sample} {s t u : Site} {a b : Sample}
    {signal₁ signal₂ : AlarmSignal} (h₁ : Machine.exec step (start cooldown) es₁ = some s)
    (ha : Signals s a signal₁) (h₂ : Machine.exec step s (a :: es₂) = some t)
    (hb : Signals t b signal₂) (hu : step t b = some u) (hcamera : a.cameraId = b.cameraId) :
    a.now + cooldown ≤ b.now := by
  have hfirst : Fires b.cameraId a.now s a := ⟨hcamera, rfl, signal₁, ha⟩
  have hlast : Fires b.cameraId b.now t b := ⟨rfl, rfl, signal₂, hb⟩
  rw [fires_eq] at hfirst hlast
  have hafter : ∀ v w, step s a = some v → ∀ es, Machine.exec step v es = some w → a.now ≤ w.clock := by
    intro v w hv es hw
    refine @Machine.exec_invariant _ _ step (fun s => a.now ≤ s.clock) (fun _ => True) ?_ es v w
      (fun _ _ => trivial) ?_ hw
    · intro x e y _ hx hy
      obtain ⟨hclock, rfl⟩ := step_eq_some hy
      exact Nat.le_trans hx hclock
    · obtain ⟨-, rfl⟩ := step_eq_some hv
      exact Nat.le_refl _
  have hclock : ∀ v c w m, Machine.Occurs step s (a :: es₂) v c → step v c = some w →
      Cooldown.Passes (fun s => s.bridge.lastFire) (fun s e => s.bridge.asks e) b.cameraId m v c →
      a.now ≤ m := by
    intro v c w m hoccurs hw hpass
    obtain ⟨-, rfl, -⟩ := fires_eq ▸ hpass
    rcases Machine.occurs_cons hoccurs with ⟨-, rfl⟩ | ⟨x, hx, pre, -, hv⟩
    · exact Nat.le_refl _
    · exact Nat.le_trans (hafter x v hx pre hv) (step_eq_some hw).1
  obtain ⟨ask, hask, hwindow⟩ := uses.spaced hfirst h₂ hclock hlast
  have hlate : a.now ≤ b.now := by
    rw [Machine.exec_cons] at h₂
    obtain ⟨v, hv, h₂⟩ := Option.bind_eq_some_iff.1 h₂
    exact Nat.le_trans (hafter v t hv es₂ h₂) (step_eq_some hu).1
  have hcooldown : ask.window = cooldown := by
    have hexec : Machine.exec step (start cooldown) (es₁ ++ a :: es₂) = some t := by
      rw [Machine.exec_append, h₁, Option.bind_some, h₂]
    rw [AlarmBridge.asks] at hask
    split at hask
    · cases hask
      exact cooldown_exec hexec
    · cases hask
  omega

/-- The two alarms of that camera. -/
theorem spaced_passingBy : ∃ s t, Machine.exec step (start 30) passingBy = some s ∧
    step s ⟨"0", 1, 100, 9000⟩ = some t ∧ Signals s ⟨"0", 1, 100, 9000⟩ ⟨"0", 1, 9000⟩ ∧ 1 + 30 ≤ 100 := by
  refine ⟨_, _, rfl, rfl, rfl, ?_⟩
  exact @signals_spaced 30 [] [⟨"0", 0, 2, 2000⟩] _ _ _ ⟨"0", 2, 1, 1000⟩ ⟨"0", 1, 100, 9000⟩
    ⟨"0", 2, 1000⟩ ⟨"0", 1, 9000⟩ rfl rfl rfl rfl rfl rfl

/-! ### One camera of many -/

/-- The alarms that go out for some samples. -/
def alarms : AlarmBridge → List Sample → List AlarmSignal
  | _, [] => []
  | b, e :: es => (b.observe e).1.toList ++ alarms (b.observe e).2 es

/-- Two bridges are the same for a camera. -/
structure AgreeAt (camera : String) (b b' : AlarmBridge) : Prop where
  wasActive : b.wasActive camera = b'.wasActive camera
  lastFire : b.lastFire camera = b'.lastFire camera
  cooldown : b.cooldown = b'.cooldown

variable {b' : AlarmBridge}

/-- A sample of the camera shows no difference. -/
theorem AgreeAt.observe (h : AgreeAt e.cameraId b b') :
    (b.observe e).1 = (b'.observe e).1 ∧ AgreeAt e.cameraId (b.observe e).2 (b'.observe e).2 := by
  have hrises : b.Rises e ↔ b'.Rises e := by rw [AlarmBridge.Rises, AlarmBridge.Rises, h.wasActive]
  have hasks : b.asks e = b'.asks e := by
    simp only [AlarmBridge.asks, hrises, h.cooldown]
  have hgate : ∀ ask, b.asks e = some ask →
      (Cooldown.gate b.lastFire ask).1 = (Cooldown.gate b'.lastFire ask).1 ∧
        (Cooldown.gate b.lastFire ask).2 e.cameraId = (Cooldown.gate b'.lastFire ask).2 e.cameraId := by
    intro ask hask
    rw [AlarmBridge.asks] at hask
    split at hask
    · cases hask
      simp only [Cooldown.gate, h.lastFire]
      split
      · simp
      · simp [h.lastFire]
    · cases hask
  simp only [observe_eq, ← hasks]
  cases hask : b.asks e with
  | none => exact ⟨rfl, by simp, by simpa using h.lastFire, h.cooldown⟩
  | some ask =>
      obtain ⟨hfst, hsnd⟩ := hgate ask hask
      refine ⟨?_, by simp, by simpa using hsnd, h.cooldown⟩
      rw [Option.any_some, Option.any_some, hfst]

/-- A sample of another camera changes nothing for it. -/
theorem AgreeAt.other (h : AgreeAt camera b b') (hcamera : e.cameraId ≠ camera) :
    AgreeAt camera (b.observe e).2 b' := by
  rw [observe_eq]
  refine ⟨?_, ?_, h.cooldown⟩
  · rw [← h.wasActive]
    exact Function.update_of_ne hcamera.symm _ _
  · rw [← h.lastFire]
    cases hask : b.asks e with
    | none => rfl
    | some ask =>
        rw [AlarmBridge.asks] at hask
        split at hask
        · cases hask
          simp only [Option.map_some, Option.getD_some, Cooldown.gate]
          split
          · exact Function.update_of_ne hcamera.symm _ _
          · rfl
        · cases hask

/-- The alarm for a sample is one of its camera. -/
theorem cameraId_of_observe (h : (b.observe e).1 = some signal) : signal.cameraId = e.cameraId := by
  rw [observe_eq] at h
  split at h
  · cases h
    rfl
  · cases h

/-- **The cameras do not get in each other's way**: the alarms of a camera are those that go out for its
samples alone. -/
theorem alarms_filter (b : AlarmBridge) (es : List Sample) (camera : String) :
    (alarms b es).filter (fun signal => signal.cameraId = camera) =
      alarms b (es.filter fun e => e.cameraId = camera) := by
  have hagree : ∀ b b', AgreeAt camera b b' →
      (alarms b es).filter (fun signal => signal.cameraId = camera) =
        alarms b' (es.filter fun e => e.cameraId = camera) := by
    induction es with
    | nil => exact fun _ _ _ => rfl
    | cons e es ih =>
        intro b b' h
        rw [alarms, List.filter_append]
        have hown : (b.observe e).1.toList.filter (fun signal => signal.cameraId = camera) =
            if e.cameraId = camera then (b.observe e).1.toList else [] := by
          cases hsignal : (b.observe e).1 with
          | none => simp
          | some signal => simp [List.filter_cons, cameraId_of_observe hsignal]
        rw [hown]
        by_cases hcamera : e.cameraId = camera
        · subst hcamera
          obtain ⟨hsame, hafter⟩ := h.observe
          rw [if_pos rfl, List.filter_cons_of_pos (by simp), alarms, ih _ _ hafter, hsame]
        · rw [if_neg hcamera, List.filter_cons_of_neg (by simpa using hcamera), List.nil_append,
            ih _ _ (h.other hcamera)]
  exact hagree b b ⟨rfl, rfl, rfl⟩

end Alarm

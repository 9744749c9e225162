/-
**The away engine, and its switch.**

`crates/web/src/away.rs` keeps the armed flag, the moment since which the device is armed, and the one
listening window in an `AwayEngine`.  The route, the voice command and the scheduler switch it through
`set_active`: the call changes the flag, writes the setting `away.active`, and sends an `AwayState`
event.  A disarming call may first wait for a summary.  The calls are interleaved at their awaits: the
model is a step machine over all calls, with a step for each part of a call between its awaits, and one
for the moment at which the database writes the row.

The row is written in the order in which the database serves the calls, which need not be the order in
which they changed the flag.

Main definitions:

* `Away.Engine`, `Away.Engine.arm`, `Away.Engine.disarm`, `Away.Engine.openListen`,
  `Away.Engine.attributeListen`, `Away.Engine.expireListen` — the engine;
* `Away.Call`, `Away.Device`, `Away.setActiveStep` — the calls, and what they share;
* `Away.Agrees` — what is to hold when all calls have returned;
* `Away.Undivided` — the steps that change the flag while no call is under way with the other value.

Main results:

* `Away.inv_setActiveStep` — the invariant is kept by every such step;
* `Away.agrees_passes` — **flag, row and event agree in a run of such steps**.
-/

import MibeeEye.StepMachine
import Mathlib.Logic.Function.Basic

set_option relaxedAutoImplicit false
set_option autoImplicit false

namespace Away

open Machine

/-! ### The engine -/

/-- `OpenListen` -/
structure OpenListen where
  eventId : ℕ
  deadlineMs : ℕ
  deriving DecidableEq, Repr

/-- `AwayEngine`: the flag, the stamp, and the listening window. -/
structure Engine where
  armed : Bool := false
  sinceStamp : ℕ := 0
  listen : Option OpenListen := none
  deriving DecidableEq, Repr

namespace Engine

/-- `armed_since_ms` -/
def armedSinceMs (e : Engine) : Option ℕ := if e.armed then some e.sinceStamp else none

/-- `arm` -/
def arm (e : Engine) (nowMs : ℕ) : Engine :=
  if e.armed then e else { e with armed := true, sinceStamp := nowMs }

/-- `disarm` -/
def disarm (e : Engine) : Engine := { e with armed := false, sinceStamp := 0, listen := none }

/-- `open_listen` -/
def openListen (e : Engine) (eventId deadlineMs : ℕ) : Bool × Engine :=
  match e.listen with
  | some _ => (false, e)
  | none => (true, { e with listen := some ⟨eventId, deadlineMs⟩ })

/-- `attribute_listen` -/
def attributeListen (e : Engine) (nowMs : ℕ) : Option ℕ × Engine :=
  match e.listen with
  | some l => (if nowMs ≤ l.deadlineMs then some l.eventId else none, { e with listen := none })
  | none => (none, e)

/-- `expire_listen` -/
def expireListen (e : Engine) (nowMs : ℕ) : Option ℕ × Engine :=
  match e.listen with
  | some l => if l.deadlineMs < nowMs then (some l.eventId, { e with listen := none }) else (none, e)
  | none => (none, e)

@[simp] theorem arm_armed (e : Engine) (nowMs : ℕ) : (e.arm nowMs).armed = true := by
  cases h : e.armed <;> simp [arm, h]

@[simp] theorem disarm_armed (e : Engine) : e.disarm.armed = false := rfl

@[simp] theorem arm_listen (e : Engine) (nowMs : ℕ) : (e.arm nowMs).listen = e.listen := by
  cases h : e.armed <;> simp [arm, h]

@[simp] theorem disarm_listen (e : Engine) : e.disarm.listen = none := rfl

/-- A window is opened where there is none. -/
theorem openListen_of_true {e : Engine} {eventId deadlineMs : ℕ}
    (h : (e.openListen eventId deadlineMs).1 = true) :
    e.listen = none ∧
      (e.openListen eventId deadlineMs).2 = { e with listen := some ⟨eventId, deadlineMs⟩ } := by
  unfold openListen at h ⊢
  split at h
  · cases h
  · rename_i hnone
    rw [hnone]
    exact ⟨rfl, rfl⟩

/-- What `attribute_listen` does to the window: it is closed, in time or not. -/
theorem attributeListen_snd (e : Engine) (nowMs : ℕ) :
    (e.attributeListen nowMs).2 = { e with listen := none } := by
  unfold attributeListen
  split
  · rfl
  · rename_i hnone
    rw [← hnone]

theorem attributeListen_eq_some {e : Engine} {nowMs id : ℕ}
    (h : (e.attributeListen nowMs).1 = some id) : ∃ l ∈ e.listen, l.eventId = id := by
  unfold attributeListen at h
  split at h
  · rename_i l hl
    rw [Option.ite_none_right_eq_some] at h
    exact ⟨l, hl, Option.some.inj h.2⟩
  · cases h

/-- A window that is not late is attributed. -/
theorem attributeListen_of_le {e : Engine} {nowMs : ℕ} {l : OpenListen} (hl : l ∈ e.listen)
    (h : nowMs ≤ l.deadlineMs) : (e.attributeListen nowMs).1 = some l.eventId := by
  rw [Option.mem_def] at hl
  simp [attributeListen, hl, h]

/-- A window is reaped when it is late. -/
theorem expireListen_eq_some {e : Engine} {nowMs id : ℕ} (h : (e.expireListen nowMs).1 = some id) :
    (∃ l ∈ e.listen, l.eventId = id ∧ l.deadlineMs < nowMs) ∧
      (e.expireListen nowMs).2 = { e with listen := none } := by
  unfold expireListen at h ⊢
  split at h
  · rename_i l hl
    split at h
    · rename_i hlate
      rw [hl]
      exact ⟨⟨l, rfl, Option.some.inj h, hlate⟩, by simp [hlate]⟩
    · cases h
  · cases h

/-- And left alone when it is not. -/
theorem expireListen_eq_none {e : Engine} {nowMs : ℕ} (h : (e.expireListen nowMs).1 = none) :
    (∀ l ∈ e.listen, nowMs ≤ l.deadlineMs) ∧ (e.expireListen nowMs).2 = e := by
  unfold expireListen at h ⊢
  split at h
  · rename_i l hl
    split at h
    · cases h
    · rename_i hlate
      rw [hl]
      refine ⟨?_, by simp [hlate]⟩
      rintro l ⟨⟩
      exact Nat.le_of_not_lt hlate
  · rename_i hnone
    rw [hnone]
    refine ⟨?_, rfl⟩
    intro l hl
    cases hl

/-- The stamp is shown exactly while the device is armed. -/
theorem isSome_armedSinceMs (e : Engine) : e.armedSinceMs.isSome = e.armed := by
  cases h : e.armed <;> simp [armedSinceMs, h]

end Engine

/-! ### Calls -/

/-- `CameraEvent::AwayState` -/
structure AwayState where
  active : Bool
  sinceMs : Option ℕ
  deriving DecidableEq, Repr

/-- A call of `set_active`. -/
inductive Call
  | unused
  /-- `Err`: arming is not available. -/
  | refused
  /-- It waits for the summary, and the flag is as it was. -/
  | summarising
  /-- It has changed the flag, and waits for the database. -/
  | persisting (active : Bool)
  /-- The database has the value, and the call has not gone on. -/
  | written (active : Bool)
  | returned
  deriving DecidableEq, Repr

/-- What a call that has changed the flag and has not returned has set it to. -/
@[grind =] def Call.target : Call → Option Bool
  | persisting active | written active => some active
  | unused | refused | summarising | returned => none

/-- The call has begun and has not returned. -/
def Call.UnderWay : Call → Prop
  | summarising | persisting _ | written _ => True
  | unused | refused | returned => False

/-- The engine, the row `away.active`, the last event sent, and the calls, numbered in the order in
which they begin. -/
structure Device where
  engine : Engine
  setting : Option String
  lastEvent : Option AwayState := none
  next : ℕ := 0
  calls : ℕ → Call := fun _ => .unused

/-- No call is under way. -/
def Device.Quiet (s : Device) : Prop := ∀ k, ¬ (s.calls k).UnderWay

/-- The value `set_active` writes. -/
def settingValue (active : Bool) : String := if active then "true" else "false"

/-- How the row is read when the service starts. -/
def storedActive (setting : Option String) : Bool := setting == some "true"

theorem storedActive_settingValue (active : Bool) :
    storedActive (some (settingValue active)) = active := by
  cases active <;> rfl

/-- What can happen. -/
inductive SwitchEvent
  /-- A call with `true`, with what `is_available` and the clock give. -/
  | arm (available : Bool) (nowMs : ℕ)
  /-- A call with `false`, with the knob `summary_on_disarm`. -/
  | disarm (summaryOnDisarm : Bool)
  /-- Call `n` has its summary. -/
  | summarised (n : ℕ)
  /-- The database writes the row for call `n`. -/
  | persists (n : ℕ)
  /-- Call `n` goes on, sends its event and returns. -/
  | returns (n : ℕ)

/-- Call `n` is now `call`. -/
def Device.setCall (s : Device) (n : ℕ) (call : Call) : Device :=
  { s with calls := Function.update s.calls n call }

/-- A new call. -/
def Device.begin (s : Device) (call : Call) : Device :=
  { s.setCall s.next call with next := s.next + 1 }

@[simp] theorem Device.begin_calls (s : Device) (call : Call) :
    (s.begin call).calls = Function.update s.calls s.next call := rfl

/-- The event a call sends. -/
def Device.event (s : Device) (active : Bool) : AwayState :=
  ⟨active, if active then s.engine.armedSinceMs else none⟩

/-- One step. -/
def setActiveStep (s : Device) : SwitchEvent → Option Device
  | .arm available nowMs =>
      if available then some ({ s with engine := s.engine.arm nowMs }.begin (.persisting true))
      else some (s.begin .refused)
  | .disarm summaryOnDisarm =>
      if summaryOnDisarm then some (s.begin .summarising)
      else some ({ s with engine := s.engine.disarm }.begin (.persisting false))
  | .summarised n =>
      match s.calls n with
      | .summarising => some ({ s with engine := s.engine.disarm }.setCall n (.persisting false))
      | _ => none
  | .persists n =>
      match s.calls n with
      | .persisting active =>
          some ({ s with setting := some (settingValue active) }.setCall n (.written active))
      | _ => none
  | .returns n =>
      match s.calls n with
      | .written active => some ({ s with lastEvent := some (s.event active) }.setCall n .returned)
      | _ => none

/-- What a step sets the flag to. -/
def SwitchEvent.sets : SwitchEvent → Option Bool
  | arm available _ => if available then some true else none
  | disarm summaryOnDisarm => if summaryOnDisarm then none else some false
  | summarised _ => some false
  | persists _ | returns _ => none

/-! ### What is to hold -/

/-- **The armed state agrees**: the last event shows the flag and the stamp, the stamp is there exactly
while the device is armed, and the row gives the flag back once a call has changed it (before that, if
it did at the start). -/
structure Agrees (initial s : Device) : Prop where
  event : ∀ e ∈ s.lastEvent, e = ⟨s.engine.armed, s.engine.armedSinceMs⟩
  since : s.engine.armedSinceMs.isSome = s.engine.armed
  setting : storedActive initial.setting = initial.engine.armed ∨ s.lastEvent.isSome →
    storedActive s.setting = s.engine.armed

/-- **The steps that leave a call alone**: the flag is not changed while a call is under way that has
set it to the other value. -/
def Undivided (s : Device) (e : SwitchEvent) : Prop :=
  ∀ active ∈ e.sets, ∀ k < s.next, ∀ b ∈ (s.calls k).target, b = active

instance (s : Device) : DecidablePred (Undivided s) := fun e =>
  inferInstanceAs (Decidable (∀ active ∈ e.sets, ∀ k < s.next, ∀ b ∈ (s.calls k).target, b = active))

/-- A device after the service has started: no call has begun, and no event was sent. -/
structure Started (s : Device) : Prop where
  calls : ∀ k, s.calls k = .unused
  lastEvent : s.lastEvent = none

/-! ### The invariant -/

/-- What the steps keep. -/
structure Inv (initial s : Device) : Prop where
  fresh : ∀ k, s.next ≤ k → s.calls k = .unused
  /-- The calls under way have set the flag to what it is. -/
  target : ∀ k, ∀ b ∈ (s.calls k).target, b = s.engine.armed
  event : ∀ e ∈ s.lastEvent, e = ⟨s.engine.armed, s.engine.armedSinceMs⟩ ∨
    ∃ k, (s.calls k).target.isSome
  setting : storedActive initial.setting = initial.engine.armed ∨ s.lastEvent.isSome ∨
      (∃ k b, s.calls k = .written b) →
    storedActive s.setting = s.engine.armed ∨ ∃ k b, s.calls k = .persisting b

theorem Inv.agrees {initial s : Device} (hs : Inv initial s) (hquiet : s.Quiet) :
    Agrees initial s := by
  refine ⟨?_, s.engine.isSome_armedSinceMs, ?_⟩
  · intro e he
    rcases hs.event e he with h | ⟨k, hk⟩
    · exact h
    · exfalso
      have := hquiet k
      cases hcall : s.calls k <;> simp [hcall, Call.UnderWay, Call.target] at this hk
  · intro h
    rcases hs.setting (h.elim .inl fun h => .inr (.inl h)) with h | ⟨k, b, hk⟩
    · exact h
    · have := hquiet k
      rw [hk] at this
      exact absurd trivial this

theorem inv_initial {initial : Device} (h : Started initial) : Inv initial initial := by
  refine ⟨fun k _ => h.calls k, ?_, ?_, ?_⟩
  · intro k b hb
    rw [h.calls k] at hb
    cases hb
  · intro e he
    rw [h.lastEvent] at he
    cases he
  · rintro (h' | h' | ⟨k, b, h'⟩)
    · exact .inl h'
    · rw [h.lastEvent] at h'
      cases h'
    · rw [h.calls k] at h'
      cases h'

/-! ### Every step -/

/-- What a call has set, after one of them has changed. -/
theorem target_update {s : Device} {n k : ℕ} {call : Call} {b : Bool}
    (h : b ∈ (Function.update s.calls n call k).target) :
    b ∈ call.target ∨ b ∈ (s.calls k).target :=
  (update_cases (p := fun c => b ∈ Call.target c) h).imp And.right And.right

/-- A call that is not `unused` has begun. -/
theorem lt_next {initial s : Device} {k : ℕ} (hs : Inv initial s) (hk : s.calls k ≠ .unused) :
    k < s.next := lt_of_ne_unused hs.fresh hk

/-- **A call changes the flag.** -/
theorem inv_switch {initial s t : Device} {n : ℕ} {active : Bool} (hs : Inv initial s)
    (hundivided : ∀ k < s.next, ∀ b ∈ (s.calls k).target, b = active)
    (harmed : t.engine.armed = active)
    (hcalls : t.calls = Function.update s.calls n (.persisting active))
    (hfresh : ∀ k, t.next ≤ k → t.calls k = .unused) : Inv initial t := by
  have hn : t.calls n = .persisting active := by rw [hcalls, Function.update_self]
  refine ⟨hfresh, ?_, ?_, fun _ => .inr ⟨n, active, hn⟩⟩
  · intro k b hb
    rw [harmed]
    rw [hcalls] at hb
    rcases target_update hb with hb | hb
    · exact (Option.some.inj hb).symm
    · refine hundivided k (lt_next hs fun h => ?_) b hb
      rw [h] at hb
      cases hb
  · intro e _
    refine .inr ⟨n, ?_⟩
    rw [hn]
    rfl

/-- **A call begins that leaves the flag as it is.** -/
theorem inv_begin {initial s : Device} {call : Call} (hs : Inv initial s)
    (hcall : call = .refused ∨ call = .summarising) : Inv initial (s.begin call) := by
  have hold : ∀ k, s.calls k ≠ .unused → (s.begin call).calls k = s.calls k := fun k hk =>
    Function.update_of_ne (Nat.ne_of_lt (lt_next hs hk)) ..
  refine ⟨fresh_begin hs.fresh call, ?_, ?_, ?_⟩
  · intro k b hb
    rcases target_update hb with hb | hb
    · rcases hcall with rfl | rfl <;> cases hb
    · exact hs.target k b hb
  · intro e he
    refine (hs.event e he).imp_right ?_
    rintro ⟨k, hk⟩
    refine ⟨k, ?_⟩
    rw [hold k (fun h => by simp [h, Call.target] at hk)]
    exact hk
  · intro h
    have hbefore : storedActive initial.setting = initial.engine.armed ∨ s.lastEvent.isSome ∨
        ∃ k b, s.calls k = .written b := by
      refine h.imp_right (Or.imp_right ?_)
      rintro ⟨k, b, hk⟩
      refine ⟨k, b, ?_⟩
      rw [Device.begin_calls] at hk
      rcases update_cases (p := (· = Call.written b)) hk with ⟨-, hk⟩ | ⟨-, hk⟩
      · rcases hcall with rfl | rfl <;> cases hk
      · exact hk
    refine (hs.setting hbefore).imp_right ?_
    rintro ⟨k, b, hk⟩
    exact ⟨k, b, (hold k (by simp [hk])).trans hk⟩

/-- **The row is written.** -/
theorem inv_persists {initial s : Device} {n : ℕ} {active : Bool} (hs : Inv initial s)
    (hn : s.calls n = .persisting active) :
    Inv initial ({ s with setting := some (settingValue active) }.setCall n (.written active)) := by
  have htarget : active = s.engine.armed := hs.target n active (by rw [hn]; rfl)
  refine ⟨fresh_update hs.fresh (lt_next hs (by simp [hn])) _, ?_, ?_, fun _ => .inl ?_⟩
  · intro k b hb
    rcases target_update hb with hb | hb
    · rwa [← Option.some.inj hb]
    · exact hs.target k b hb
  · intro e _
    refine .inr ⟨n, ?_⟩
    simp [Device.setCall, Call.target]
  · exact (storedActive_settingValue active).trans htarget

/-- **A call returns.** -/
theorem inv_returns {initial s : Device} {n : ℕ} {active : Bool} (hs : Inv initial s)
    (hn : s.calls n = .written active) :
    Inv initial ({ s with lastEvent := some (s.event active) }.setCall n .returned) := by
  have htarget : active = s.engine.armed := hs.target n active (by rw [hn]; rfl)
  refine ⟨fresh_update hs.fresh (lt_next hs (by simp [hn])) _, ?_, ?_, fun _ => ?_⟩
  · intro k b hb
    rcases target_update hb with hb | hb
    · cases hb
    · exact hs.target k b hb
  · rintro e ⟨⟩
    refine .inl ?_
    -- the stamp of a device that is not armed is not shown
    cases harmed : s.engine.armed <;>
      simp [Device.event, Device.setCall, htarget, harmed, Engine.armedSinceMs]
  · refine (hs.setting (.inr (.inr ⟨n, active, hn⟩))).imp_right ?_
    rintro ⟨k, b, hk⟩
    have hkn : k ≠ n := by
      rintro rfl
      rw [hn] at hk
      cases hk
    exact ⟨k, b, (Function.update_of_ne hkn ..).trans hk⟩

/-- **Every step that leaves a call alone keeps the invariant.** -/
theorem inv_setActiveStep {initial s t : Device} {e : SwitchEvent} (hs : Inv initial s)
    (hundivided : Undivided s e) (h : setActiveStep s e = some t) : Inv initial t := by
  cases e with
  | arm available nowMs =>
      cases available with
      | true =>
          cases h
          exact inv_switch hs (hundivided true rfl) (Engine.arm_armed ..) rfl (fresh_begin hs.fresh _)
      | false =>
          cases h
          exact inv_begin hs (.inl rfl)
  | disarm summaryOnDisarm =>
      cases summaryOnDisarm with
      | true =>
          cases h
          exact inv_begin hs (.inr rfl)
      | false =>
          cases h
          exact inv_switch hs (hundivided false rfl) rfl rfl (fresh_begin hs.fresh _)
  | summarised n =>
      rw [setActiveStep] at h
      split at h
      · rename_i hn
        cases h
        exact inv_switch hs (hundivided false rfl) rfl rfl
          (fresh_update hs.fresh (lt_next hs (by simp [hn])) _)
      · cases h
  | persists n =>
      rw [setActiveStep] at h
      split at h
      · rename_i hn
        cases h
        exact inv_persists hs hn
      · cases h
  | returns n =>
      rw [setActiveStep] at h
      split at h
      · rename_i hn
        cases h
        exact inv_returns hs hn
      · cases h

/-! ### Every run -/

/-- **The armed state agrees with the stored one**: in a run in which the flag is not changed while a
call is under way that has set it to the other value, flag, row and last event agree whenever all calls
have returned. -/
theorem agrees_passes {initial s : Device} {es : List SwitchEvent} (hstart : Started initial)
    (hundivided : ∀ u e, Occurs setActiveStep initial es u e → Undivided u e)
    (h : Passes setActiveStep initial es s) (hquiet : s.Quiet) : Agrees initial s :=
  (passes_induction (fun u e _ hu hinv => inv_setActiveStep hinv (hundivided u e hu))
    (inv_initial hstart) h).agrees hquiet

/-- A device that has never been armed. -/
def Device.fresh : Device := { engine := {}, setting := none }

theorem started_fresh : Started Device.fresh := ⟨fun _ => rfl, rfl⟩

/-- Two calls with `true` overlap; a call with `false` waits for its summary meanwhile, and goes on when
they have returned. -/
def overlappingCalls : List SwitchEvent :=
  [.arm true 1000, .disarm true, .arm true 1500, .persists 0, .persists 2, .returns 2, .returns 0,
    .summarised 1, .persists 1, .returns 1]

theorem agrees_overlappingCalls :
    ∃ s, Passes setActiveStep Device.fresh overlappingCalls s ∧ Agrees Device.fresh s ∧
      s.lastEvent = some ⟨false, none⟩ := by
  obtain ⟨s, hs⟩ : ∃ s, exec setActiveStep Device.fresh overlappingCalls = some s := ⟨_, rfl⟩
  refine ⟨s, ⟨_, List.prefix_rfl, hs⟩, ?_, ?_⟩
  · refine agrees_passes started_fresh ?_ ⟨_, List.prefix_rfl, hs⟩ ?_
    · intro u e hu
      exact of_decide_eq_true (forall_occurs_of_along
        (p := fun u e => decide (Undivided u e)) (by decide) u e hu)
    · cases hs
      intro k
      rcases k with - | - | - | k <;> exact fun h => h
  · cases hs
    rfl

/-- A call with `true` has changed the flag; a call with `false` begins, changes it back, writes the row
and returns; then the row is written for the first call. -/
def overtakenCalls : List SwitchEvent :=
  [.arm true 1000, .disarm false, .persists 1, .returns 1, .persists 0, .returns 0]

/-- **The row and the last event differ from the flag**: all calls have returned, the device is not
armed, and the row and the event say that it is. -/
theorem not_agrees_overtakenCalls :
    ∃ s, Passes setActiveStep Device.fresh overtakenCalls s ∧ s.Quiet ∧ s.engine.armed = false ∧
      storedActive s.setting = true ∧ s.lastEvent = some ⟨true, none⟩ ∧
      ¬ Agrees Device.fresh s := by
  refine ⟨_, ⟨_, List.prefix_rfl, rfl⟩, ?_, rfl, rfl, rfl, ?_⟩
  · intro k
    rcases k with - | - | k <;> exact fun h => h
  · intro h
    exact Bool.noConfusion (h.setting (.inl rfl))

end Away

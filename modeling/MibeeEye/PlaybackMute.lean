/-
**The playback mute.**

While the device speaks, its wake word must not be heard.  `begin_playback_mute` of
`crates/streaming/src/voice/mod.rs` stores a deadline, 120 seconds ahead, `end_playback_mute` stores 0,
and the worker that reads the microphone passes over a chunk while the deadline is ahead.  It loads the
deadline, looks at the clock, and stores 0 itself when the deadline has passed.  All speakers share the
one deadline: the model is a step machine over any number of speakers and the worker, with a step for
each access to the deadline and to the clock.

Main definitions:

* `Playback.Speaker`, `Playback.Worker`, `Playback.Microphone`, `Playback.muteStep` — the speakers, the
  worker, and what they share;
* `Playback.Covered` — what is to hold in every state;
* `Playback.Exclusive` — the steps that respect the other speakers and the worker.

Main results:

* `Playback.inv_muteStep` — the invariant is kept by every such step;
* `Playback.covered_passes` — **every playback is covered in a run of such steps**.
-/

import MibeeEye.StepMachine
import Mathlib.Logic.Function.Basic

set_option relaxedAutoImplicit false
set_option autoImplicit false

namespace Playback

open Machine

/-! ### Speakers and worker -/

/-- A speaker. -/
inductive Speaker
  | unused
  /-- In `begin_playback_mute`, with the clock read. -/
  | starting (beganMs : ℕ)
  /-- Between `begin_playback_mute` and `end_playback_mute`. -/
  | playing (beganMs : ℕ)
  | done
  deriving DecidableEq, Repr

/-- When a speaker that has begun and not ended did so. -/
def Speaker.bracket : Speaker → Option ℕ
  | starting beganMs | playing beganMs => some beganMs
  | unused | done => none

/-- Its playback is in progress. -/
def Speaker.isPlaying : Speaker → Bool
  | playing _ => true
  | unused | starting _ | done => false

/-- The worker, in what it does with one chunk. -/
inductive Worker
  /-- It waits for a chunk. -/
  | idle
  /-- It has loaded a deadline other than 0. -/
  | loaded (muteUntil : ℕ)
  /-- It has found the deadline passed, and is to store 0. -/
  | expired
  /-- It is to feed the chunk. -/
  | passing
  deriving DecidableEq, Repr

/-- `playback_mute_until_ms`, the clock, the speakers in the order in which they begin, and the
worker. -/
structure Microphone where
  muteUntilMs : ℕ := 0
  nowMs : ℕ := 0
  next : ℕ := 0
  speakers : ℕ → Speaker := fun _ => .unused
  worker : Worker := .idle

/-- `begin_playback_mute`: how far ahead the deadline is. -/
def muteMs : ℕ := 120000

/-- A playback is in progress. -/
def Microphone.Playing (s : Microphone) : Prop := ∃ k t, s.speakers k = .playing t

/-- What can happen. -/
inductive MuteEvent
  /-- The clock is read differently. -/
  | tick (nowMs : ℕ)
  /-- A new speaker reads the clock in `begin_playback_mute`. -/
  | begins
  /-- Speaker `k` stores the deadline, and its playback begins. -/
  | stores (k : ℕ)
  /-- Its playback is over: `end_playback_mute`. -/
  | ends (k : ℕ)
  /-- The worker has a chunk and loads the deadline. -/
  | load
  /-- It looks at the clock. -/
  | check
  /-- It stores 0. -/
  | clear
  /-- It feeds the chunk to the wake word detector. -/
  | feed
  deriving DecidableEq, Repr

/-- Speaker `k` is now `speaker`. -/
def Microphone.setSpeaker (s : Microphone) (k : ℕ) (speaker : Speaker) : Microphone :=
  { s with speakers := Function.update s.speakers k speaker }

/-- One step.  A playback is shorter than 120 seconds: the clock does not get there before its end. -/
def muteStep (s : Microphone) : MuteEvent → Option Microphone
  | .tick nowMs =>
      if ∀ k < s.next, ∀ t ∈ (s.speakers k).bracket, nowMs < t + muteMs then some { s with nowMs }
      else none
  | .begins => some { s.setSpeaker s.next (.starting s.nowMs) with next := s.next + 1 }
  | .stores k =>
      match s.speakers k with
      | .starting t => some { s.setSpeaker k (.playing t) with muteUntilMs := t + muteMs }
      | _ => none
  | .ends k =>
      match s.speakers k with
      | .playing _ => some { s.setSpeaker k .done with muteUntilMs := 0 }
      | _ => none
  | .load =>
      match s.worker with
      | .idle => some { s with
          worker := if 0 < s.muteUntilMs then .loaded s.muteUntilMs else .passing }
      | _ => none
  | .check =>
      match s.worker with
      | .loaded muteUntil => some { s with
          worker := if muteUntil ≤ s.nowMs then .expired else .idle }
      | _ => none
  | .clear =>
      match s.worker with
      | .expired => some { s with muteUntilMs := 0, worker := .passing }
      | _ => none
  | .feed =>
      match s.worker with
      | .passing => some { s with worker := .idle }
      | _ => none

/-! ### What is to hold -/

/-- **Every playback is covered**: while one is in progress, the deadline that the worker would read is
ahead, and the worker is not about to feed a chunk. -/
def Covered (s : Microphone) : Prop :=
  s.Playing → s.nowMs < s.muteUntilMs ∧ s.worker ≠ .passing

/-- **The steps that respect the others**: the mute is not ended while another playback is in progress,
and not begun while the worker has a chunk in its hands. -/
def Exclusive (s : Microphone) : MuteEvent → Prop
  | .ends k => ∀ j < s.next, j ≠ k → (s.speakers j).isPlaying = false
  | .stores _ => s.worker = .idle
  | .tick _ | .begins | .load | .check | .clear | .feed => True

instance (s : Microphone) : DecidablePred (Exclusive s)
  | .ends k => inferInstanceAs (Decidable (∀ j < s.next, j ≠ k → (s.speakers j).isPlaying = false))
  | .stores _ => inferInstanceAs (Decidable (s.worker = .idle))
  | .tick _ | .begins | .load | .check | .clear | .feed => inferInstanceAs (Decidable True)

/-! ### The invariant -/

/-- What the steps keep. -/
structure Inv (s : Microphone) : Prop where
  fresh : ∀ k, s.next ≤ k → s.speakers k = .unused
  /-- No bracket is 120 seconds old. -/
  short : ∀ k, ∀ t ∈ (s.speakers k).bracket, s.nowMs < t + muteMs
  /-- The deadline is that of a playback in progress. -/
  deadline : s.Playing → ∃ k t, s.speakers k = .playing t ∧ s.muteUntilMs = t + muteMs
  /-- And so is the one the worker has loaded. -/
  worker : s.Playing → s.worker = .idle ∨
    ∃ k t, s.speakers k = .playing t ∧ s.worker = .loaded (t + muteMs)

theorem Inv.covered {s : Microphone} (hs : Inv s) : Covered s := by
  intro hplaying
  refine ⟨?_, ?_⟩
  · obtain ⟨k, t, hk, hdeadline⟩ := hs.deadline hplaying
    rw [hdeadline]
    exact hs.short k t (by rw [hk]; rfl)
  · rcases hs.worker hplaying with h | ⟨k, t, -, h⟩ <;> simp [h]

theorem inv_initial : Inv {} := by
  refine ⟨fun _ _ => rfl, ?_, ?_, fun _ => .inl rfl⟩
  · intro k t ht
    cases ht
  · rintro ⟨k, t, h⟩
    cases h

theorem lt_next {s : Microphone} (hs : Inv s) {k : ℕ} (hk : s.speakers k ≠ .unused) :
    k < s.next := lt_of_ne_unused hs.fresh hk

/-- Who plays after speaker `k` has changed. -/
theorem playing_update {s : Microphone} {k j t : ℕ} {speaker : Speaker}
    (h : Function.update s.speakers k speaker j = .playing t) :
    (j = k ∧ speaker = .playing t) ∨ (j ≠ k ∧ s.speakers j = .playing t) :=
  update_cases (p := (· = Speaker.playing t)) h

/-- The brackets after speaker `k` has changed. -/
theorem short_update {s : Microphone} (hs : Inv s) {k : ℕ} {speaker : Speaker}
    (hspeaker : ∀ t ∈ speaker.bracket, s.nowMs < t + muteMs) :
    ∀ j, ∀ t ∈ (Function.update s.speakers k speaker j).bracket, s.nowMs < t + muteMs := by
  intro j t ht
  rcases update_cases (p := fun x => t ∈ Speaker.bracket x) ht with ⟨-, ht⟩ | ⟨-, ht⟩
  · exact hspeaker t ht
  · exact hs.short j t ht

/-! ### Every step -/

/-- The worker goes on, and does not touch the deadline. -/
theorem inv_setWorker {s : Microphone} (hs : Inv s) {worker : Worker}
    (hworker : s.Playing → worker = .idle ∨
      ∃ k t, s.speakers k = .playing t ∧ worker = .loaded (t + muteMs)) :
    Inv { s with worker } :=
  ⟨hs.fresh, hs.short, hs.deadline, hworker⟩

/-- A new speaker. -/
theorem inv_begins {s : Microphone} (hs : Inv s) :
    Inv { s.setSpeaker s.next (.starting s.nowMs) with next := s.next + 1 } := by
  have hplaying : ∀ j t, s.speakers j = .playing t →
      Function.update s.speakers s.next (.starting s.nowMs) j = .playing t := by
    intro j t hj
    rw [Function.update_of_ne (Nat.ne_of_lt (lt_next hs (by simp [hj]))), hj]
  have hbefore : Microphone.Playing { s.setSpeaker s.next (.starting s.nowMs) with
      next := s.next + 1 } → s.Playing := by
    rintro ⟨j, t, h⟩
    rcases playing_update h with ⟨-, h⟩ | ⟨-, h⟩
    · cases h
    · exact ⟨j, t, h⟩
  refine ⟨fresh_begin hs.fresh _, ?_, ?_, ?_⟩
  · refine short_update hs ?_
    rintro t ⟨⟩
    exact Nat.lt_add_of_pos_right (by decide)
  · intro h
    obtain ⟨j, t, hj, hdeadline⟩ := hs.deadline (hbefore h)
    exact ⟨j, t, hplaying j t hj, hdeadline⟩
  · intro h
    refine (hs.worker (hbefore h)).imp_right ?_
    rintro ⟨j, t, hj, hworker⟩
    exact ⟨j, t, hplaying j t hj, hworker⟩

/-- **A playback begins.** -/
theorem inv_stores {s : Microphone} (hs : Inv s) {k t : ℕ} (hk : s.speakers k = .starting t)
    (hidle : s.worker = .idle) :
    Inv { s.setSpeaker k (.playing t) with muteUntilMs := t + muteMs } := by
  refine ⟨fresh_update hs.fresh (lt_next hs (by simp [hk])) _, ?_, ?_, fun _ => .inl hidle⟩
  · refine short_update hs ?_
    rintro t ⟨⟩
    exact hs.short k t (by rw [hk]; rfl)
  · intro _
    exact ⟨k, t, Function.update_self .., rfl⟩

/-- **A playback ends**, the only one in progress. -/
theorem inv_ends {s : Microphone} (hs : Inv s) {k t : ℕ} (hk : s.speakers k = .playing t)
    (halone : ∀ j < s.next, j ≠ k → (s.speakers j).isPlaying = false) :
    Inv { s.setSpeaker k .done with muteUntilMs := 0 } := by
  have hnot : ¬ Microphone.Playing { s.setSpeaker k .done with muteUntilMs := 0 } := by
    rintro ⟨j, t, h⟩
    rcases playing_update h with ⟨-, h⟩ | ⟨hj, h⟩
    · cases h
    · have := halone j (lt_next hs (by simp [h])) hj
      rw [h] at this
      cases this
  refine ⟨fresh_update hs.fresh (lt_next hs (by simp [hk])) _, ?_, fun h => absurd h hnot,
    fun h => absurd h hnot⟩
  refine short_update hs ?_
  rintro t ⟨⟩

/-- **Every step that respects the others keeps the invariant.** -/
theorem inv_muteStep {s t : Microphone} {e : MuteEvent} (hs : Inv s) (hexclusive : Exclusive s e)
    (h : muteStep s e = some t) : Inv t := by
  cases e with
  | tick nowMs =>
      rw [muteStep, Option.ite_none_right_eq_some] at h
      obtain ⟨hshort, h⟩ := h
      cases h
      refine ⟨hs.fresh, ?_, hs.deadline, hs.worker⟩
      intro k t ht
      refine hshort k (lt_next hs fun hk => ?_) t ht
      rw [hk] at ht
      cases ht
  | begins =>
      cases h
      exact inv_begins hs
  | stores k =>
      rw [muteStep] at h
      split at h
      · rename_i hk
        cases h
        exact inv_stores hs hk hexclusive
      · cases h
  | ends k =>
      rw [muteStep] at h
      split at h
      · rename_i hk
        cases h
        exact inv_ends hs hk hexclusive
      · cases h
  | load =>
      rw [muteStep] at h
      split at h
      · cases h
        refine inv_setWorker hs fun hplaying => .inr ?_
        -- while a playback is in progress, its deadline is what is loaded
        obtain ⟨k, t, hk, hdeadline⟩ := hs.deadline hplaying
        refine ⟨k, t, hk, ?_⟩
        rw [hdeadline, if_pos (Nat.lt_of_lt_of_le (by decide) (Nat.le_add_left muteMs t))]
      · cases h
  | check =>
      rw [muteStep] at h
      split at h
      · rename_i muteUntil hloaded
        cases h
        refine inv_setWorker hs fun hplaying => .inl ?_
        rcases hs.worker hplaying with hidle | ⟨k, t, hk, hworker⟩
        · rw [hloaded] at hidle
          cases hidle
        · rw [hloaded] at hworker
          cases hworker
          rw [if_neg (Nat.not_le.2 (hs.short k t (by rw [hk]; rfl)))]
      · cases h
  | clear =>
      rw [muteStep] at h
      split at h
      · rename_i hexpired
        cases h
        have hnot : ¬ s.Playing := by
          intro hplaying
          rcases hs.worker hplaying with hworker | ⟨k, t, -, hworker⟩ <;>
            · rw [hexpired] at hworker
              cases hworker
        exact ⟨hs.fresh, hs.short, fun h => absurd h hnot, fun h => absurd h hnot⟩
      · cases h
  | feed =>
      rw [muteStep] at h
      split at h
      · cases h
        exact inv_setWorker hs fun _ => .inl rfl
      · cases h

/-! ### Every run -/

/-- **Every playback is covered**: in a run in which no mute is ended while another playback is in
progress, and none is begun while the worker has a chunk in its hands, the deadline is ahead and no
chunk is fed whenever a playback is in progress. -/
theorem covered_passes {s : Microphone} {es : List MuteEvent}
    (hexclusive : ∀ u e, Occurs muteStep {} es u e → Exclusive u e)
    (h : Passes muteStep {} es s) : Covered s :=
  (passes_induction (fun u e _ hu hinv => inv_muteStep hinv (hexclusive u e hu)) inv_initial
    h).covered

/-- Two playbacks one after the other, and a chunk during each of them and between them. -/
def oneAfterTheOther : List MuteEvent :=
  [.tick 1000, .begins, .stores 0, .load, .tick 1200, .check, .ends 0, .load, .feed, .begins,
    .tick 1300, .stores 1, .load]

theorem covered_oneAfterTheOther :
    ∃ s, Passes muteStep {} oneAfterTheOther s ∧ Covered s ∧ s.Playing ∧
      s.worker = .loaded 121200 := by
  have hend : (exec muteStep {} oneAfterTheOther).map (fun s => (s.speakers 1, s.worker))
      = some (.playing 1200, .loaded 121200) := by decide
  obtain ⟨s, hs, heq⟩ := Option.map_eq_some_iff.1 hend
  obtain ⟨hspeaker, hworker⟩ := Prod.mk.inj heq
  refine ⟨s, ⟨_, List.prefix_rfl, hs⟩, ?_, ⟨1, 1200, hspeaker⟩, hworker⟩
  refine covered_passes ?_ ⟨_, List.prefix_rfl, hs⟩
  intro u e hu
  exact of_decide_eq_true (forall_occurs_of_along (p := fun u e => decide (Exclusive u e))
    (by decide) u e hu)

/-- Two playbacks overlap, and the first one ends. -/
def overlapping : List MuteEvent :=
  [.tick 1000, .begins, .stores 0, .begins, .stores 1, .ends 0, .load]

/-- **The other playback is not covered**: the worker reads 0, and is about to feed the chunk. -/
theorem not_covered_overlapping :
    ∃ s, Passes muteStep {} overlapping s ∧ s.speakers 1 = .playing 1000 ∧ s.muteUntilMs = 0 ∧
      s.worker = .passing ∧ ¬ Covered s := by
  refine ⟨_, ⟨_, List.prefix_rfl, rfl⟩, rfl, rfl, rfl, ?_⟩
  intro h
  exact (h ⟨1, 1000, rfl⟩).2 rfl

end Playback

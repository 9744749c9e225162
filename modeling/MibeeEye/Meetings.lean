/-
**Meeting sessions and their audio.**

`crates/streaming/src/meeting.rs` records one meeting at a time.  The route `start` inserts a row and
creates a WAV for its id; the recorder worker appends the chunks of the microphone; a session ends when
the route `stop` takes it, or when the worker does, after a write has failed or the longest duration is
reached.  What has ended is handed to `process_finished` of `crates/web/src/routes/meetings.rs`, by
`stop` itself after a write to the database, or through a channel whose other end takes one after the
other; it removes the WAV unless the audio is kept.  The model is a step machine with a step for each
part between two locks or awaits.

The worker decides to stop the session it has looked at, and then takes the one that is there; and a
call of `stop` that fails after it has taken the session hands nothing over.

Main definitions:

* `Meetings.Phase`, `Meetings.Meeting`, `Meetings.Recorder`, `Meetings.meetingStep` — meetings, and what
  the tasks share;
* `Meetings.Cause` — what a session ended by;
* `Meetings.SessionsHold` — what is to hold in every state;
* `Meetings.Undisturbed` — the steps at which the worker takes the session it has decided on, and `stop`
  does not fail half way.

Main results:

* `Meetings.inv_meetingStep` — the invariant is kept by every such step;
* `Meetings.sessionsHold_passes` — **sessions end by their own cause, are processed once, and leave no
  audio** in a run of such steps.
-/

import MibeeEye.StepMachine
import Mathlib.Logic.Function.Basic
import Mathlib.Data.List.Nodup

set_option relaxedAutoImplicit false
set_option autoImplicit false

namespace Meetings

open Machine

/-! ### Meetings -/

/-- Where a meeting is. -/
inductive Phase
  | unused
  /-- The row is inserted. -/
  | inserted
  /-- `begin_recording` has failed. -/
  | refused
  | recording
  /-- `stop` has taken the session, and waits for the database. -/
  | stopping
  /-- In the channel of those the worker has stopped. -/
  | queued
  /-- `process_finished` runs. -/
  | processing
  | done
  /-- The session has ended, and nobody has it. -/
  | lost
  deriving DecidableEq, Repr

/-- What a session ended by: the id of the call, or that of the session the worker has looked at. -/
inductive Cause
  | stop (id : ℕ)
  | writeFailed (id : ℕ)
  | maxDuration (id : ℕ)
  deriving DecidableEq, Repr

def Cause.id : Cause → ℕ
  | stop id | writeFailed id | maxDuration id => id

/-- A meeting and its WAV.  Recorded beside them: how often it was handed to `process_finished`, and
what its session ended by. -/
structure Meeting where
  phase : Phase := .unused
  wav : Bool := false
  handed : ℕ := 0
  endedBy : Option Cause := none
  deriving DecidableEq, Repr

/-- `RecordingState` -/
structure Session where
  id : ℕ
  startedAtMs : ℕ
  deriving DecidableEq, Repr

/-- The session, the meetings by their ids, the worker, and the channel with the task that empties
it. -/
structure Recorder where
  recording : Option Session := none
  next : ℕ := 0
  meetings : ℕ → Meeting := fun _ => {}
  /-- The worker has decided to stop, and has not taken a session yet. -/
  decided : Option Cause := none
  channel : List ℕ := []
  bridge : Option ℕ := none

/-- How the creation of a WAV ends. -/
inductive WavCreate
  | created
  /-- The directory or the file cannot be created. -/
  | failed
  /-- The file is there, and its header cannot be written. -/
  | headerFailed
  deriving DecidableEq, Repr

/-- What can happen. -/
inductive MeetingEvent
  /-- `start`: the row is inserted. -/
  | insert
  /-- `start` of meeting `n` goes on with `begin_recording`. -/
  | begin (n nowMs : ℕ) (wav : WavCreate)
  /-- `stop` with an id: does `finalize` succeed? -/
  | stop (n : ℕ) (finalizes : Bool)
  /-- The write that `stop` of meeting `n` waits for is done, or has failed. -/
  | statusWritten (n : ℕ) (ok : Bool)
  /-- The worker has a chunk: can it be written? -/
  | chunk (nowMs : ℕ) (writes : Bool)
  /-- It goes on with `finish_current`. -/
  | finishCurrent
  /-- The next meeting is taken from the channel. -/
  | bridge
  /-- `process_finished` of meeting `n` is over. -/
  | processed (n : ℕ)
  /-- `delete_meeting`: the row is deleted. -/
  | delete (n : ℕ)
  deriving DecidableEq, Repr

namespace Recorder

def setMeeting (s : Recorder) (n : ℕ) (meeting : Meeting) : Recorder :=
  { s with meetings := Function.update s.meetings n meeting }

/-- `begin_recording` -/
def beginRecording (s : Recorder) (n nowMs : ℕ) (wav : WavCreate) : Recorder :=
  let m := s.meetings n
  if s.recording.isSome then s.setMeeting n { m with phase := .refused }
  else
    match wav with
    | .failed => s.setMeeting n { m with phase := .refused }
    | .headerFailed => s.setMeeting n { m with phase := .refused, wav := true }
    | .created =>
        { s.setMeeting n { m with phase := .recording, wav := true } with
          recording := some ⟨n, nowMs⟩ }

/-- `finish_recording` -/
def finishRecording (s : Recorder) (n : ℕ) (finalizes : Bool) : Recorder :=
  match s.recording with
  | some session =>
      if session.id = n then
        { s.setMeeting n { s.meetings n with
            phase := if finalizes then .stopping else .lost
            endedBy := some (.stop n) } with
          recording := none }
      else s
  | none => s

/-- What the worker makes of the session it finds. -/
def decide (s : Recorder) (maxDurationSecs nowMs : ℕ) (writes : Bool) : Option Cause :=
  match s.recording with
  | some session =>
      if !writes then some (.writeFailed session.id)
      else if maxDurationSecs * 1000 ≤ nowMs - session.startedAtMs then
        some (.maxDuration session.id)
      else none
  | none => none

/-- `finish_current`, after a decision: it takes the session that is there. -/
def finishCurrent (s : Recorder) (cause : Cause) : Recorder :=
  match s.recording with
  | some session =>
      { s.setMeeting session.id { s.meetings session.id with
          phase := .queued
          endedBy := some cause } with
        recording := none
        decided := none
        channel := s.channel ++ [session.id] }
  | none => { s with decided := none }

/-- `process_finished` begins. -/
def hand (s : Recorder) (n : ℕ) : Recorder :=
  s.setMeeting n { s.meetings n with
    phase := .processing
    handed := (s.meetings n).handed + 1 }

/-- `process_finished` ends, with `cleanup_audio`. -/
def finish (s : Recorder) (keepAudio : Bool) (n : ℕ) : Recorder :=
  { s.setMeeting n { s.meetings n with
      phase := .done
      wav := keepAudio && (s.meetings n).wav } with
    bridge := if s.bridge = some n then none else s.bridge }

end Recorder

/-- One step. -/
def meetingStep (maxDurationSecs : ℕ) (keepAudio : Bool) (s : Recorder) :
    MeetingEvent → Option Recorder
  | .insert => some { s.setMeeting s.next { phase := .inserted } with next := s.next + 1 }
  | .begin n nowMs wav =>
      if (s.meetings n).phase = .inserted then some (s.beginRecording n nowMs wav) else none
  | .stop n finalizes => some (s.finishRecording n finalizes)
  | .statusWritten n ok =>
      if (s.meetings n).phase = .stopping then
        some (if ok then s.hand n else s.setMeeting n { s.meetings n with phase := .lost })
      else none
  | .chunk nowMs writes =>
      if s.decided = none then some { s with decided := s.decide maxDurationSecs nowMs writes }
      else none
  | .finishCurrent => s.decided.map s.finishCurrent
  | .bridge =>
      match s.channel, s.bridge with
      | n :: channel, none => some { s.hand n with channel, bridge := some n }
      | _, _ => none
  | .processed n =>
      if (s.meetings n).phase = .processing then some (s.finish keepAudio n) else none
  | .delete _ => some s

/-! ### What is to hold -/

/-- The session of a meeting has ended, and its pipeline has not. -/
def Phase.pending : Phase → Bool
  | stopping | queued | processing => true
  | unused | inserted | refused | recording | done | lost => false

/-- **Meeting sessions and their audio**: a session ends by its own cause; one that has ended was handed
to `process_finished` once, or is on the way there; and when no session is recorded and no pipeline is
to run, no WAV is left, unless the audio is kept. -/
structure SessionsHold (keepAudio : Bool) (s : Recorder) : Prop where
  ends : ∀ n, ∀ cause ∈ (s.meetings n).endedBy, cause.id = n
  once : ∀ n, (s.meetings n).handed ≤ 1
  handed : ∀ n, (s.meetings n).endedBy.isSome = true → (s.meetings n).handed = 1 ∨
    (s.meetings n).phase = .stopping ∨ (s.meetings n).phase = .queued
  clean : keepAudio = false → s.recording = none → (∀ n, (s.meetings n).phase.pending = false) →
    ∀ n, (s.meetings n).wav = false

/-- **The steps at which nothing gets lost**: the worker takes the session it has decided on, `stop` does
not fail after it has taken a session, and no WAV is left without a header. -/
def Undisturbed (s : Recorder) : MeetingEvent → Prop
  | .begin _ _ wav => s.recording = none → wav ≠ .headerFailed
  | .stop n finalizes => ∀ session ∈ s.recording, session.id = n → finalizes = true
  | .statusWritten _ ok => ok = true
  | .finishCurrent => ∀ cause ∈ s.decided, ∀ session ∈ s.recording, session.id = cause.id
  | .insert | .chunk _ _ | .bridge | .processed _ | .delete _ => True

instance (s : Recorder) : DecidablePred (Undisturbed s)
  | .begin _ _ wav => inferInstanceAs (Decidable (s.recording = none → wav ≠ .headerFailed))
  | .stop n finalizes => inferInstanceAs (Decidable
      (∀ session ∈ s.recording, session.id = n → finalizes = true))
  | .statusWritten _ ok => inferInstanceAs (Decidable (ok = true))
  | .finishCurrent => inferInstanceAs (Decidable
      (∀ cause ∈ s.decided, ∀ session ∈ s.recording, session.id = cause.id))
  | .insert | .chunk _ _ | .bridge | .processed _ | .delete _ => inferInstanceAs (Decidable True)

/-! ### The invariant -/

/-- What a meeting is in each phase. -/
def Sound (keepAudio : Bool) (n : ℕ) (m : Meeting) : Prop :=
  match m.phase with
  | .unused | .inserted | .refused => m.wav = false ∧ m.handed = 0 ∧ m.endedBy = none
  | .recording => m.handed = 0 ∧ m.endedBy = none
  | .stopping | .queued => m.handed = 0 ∧ ∃ cause, m.endedBy = some cause ∧ cause.id = n
  | .processing => m.handed = 1 ∧ ∃ cause, m.endedBy = some cause ∧ cause.id = n
  | .done => m.handed = 1 ∧ (∃ cause, m.endedBy = some cause ∧ cause.id = n) ∧
      (keepAudio = false → m.wav = false)
  | .lost => False

/-- What the steps keep. -/
structure Inv (keepAudio : Bool) (s : Recorder) : Prop where
  unused : ∀ n, s.next ≤ n → s.meetings n = {}
  sound : ∀ n, Sound keepAudio n (s.meetings n)
  /-- The session is that of the meeting that is recorded. -/
  slot : ∀ n, (s.meetings n).phase = .recording ↔ ∃ session ∈ s.recording, session.id = n
  /-- The channel holds the meetings that are queued. -/
  queue : ∀ n, (s.meetings n).phase = .queued ↔ n ∈ s.channel
  nodup : s.channel.Nodup

variable {maxDurationSecs : ℕ} {keepAudio : Bool}

theorem inv_initial : Inv keepAudio {} := by
  refine ⟨fun _ _ => rfl, fun _ => ⟨rfl, rfl, rfl⟩, ?_, ?_, List.nodup_nil⟩
  · intro n
    simp
  · intro n
    simp

/-- **What the invariant says of the sessions.** -/
theorem Inv.sessionsHold {s : Recorder} (hs : Inv keepAudio s) : SessionsHold keepAudio s := by
  refine ⟨?_, ?_, ?_, ?_⟩
  · intro n cause hcause
    have h := hs.sound n
    unfold Sound at h
    rw [Option.mem_def] at hcause
    split at h <;> simp_all
  · intro n
    have h := hs.sound n
    unfold Sound at h
    split at h <;> simp_all
  · intro n hended
    have h := hs.sound n
    unfold Sound at h
    split at h <;> simp_all
  · intro hkeep hrecording hpending n
    have h := hs.sound n
    have hidle := hpending n
    have hslot : (s.meetings n).phase ≠ .recording := by
      rw [ne_eq, hs.slot n, hrecording]
      simp
    unfold Sound at h
    split at h <;> simp_all [Phase.pending]

section Steps

variable {s t : Recorder} {n : ℕ}

theorem Inv.lt_next (hs : Inv keepAudio s) (hn : (s.meetings n).phase ≠ .unused) : n < s.next := by
  by_contra h
  rw [hs.unused n (by omega)] at hn
  exact hn rfl

/-- **One meeting changes**, with the slot and the channel as its phase says. -/
theorem inv_of_meeting {m : Meeting} (hs : Inv keepAudio s) (hn : n < t.next) (hnext : s.next ≤ t.next)
    (hmeetings : t.meetings = Function.update s.meetings n m) (hsound : Sound keepAudio n m)
    (hslot : m.phase = .recording ↔ ∃ session ∈ t.recording, session.id = n)
    (hslots : ∀ k, k ≠ n → ((∃ session ∈ t.recording, session.id = k) ↔
      ∃ session ∈ s.recording, session.id = k))
    (hqueue : m.phase = .queued ↔ n ∈ t.channel)
    (hqueues : ∀ k, k ≠ n → (k ∈ t.channel ↔ k ∈ s.channel)) (hnodup : t.channel.Nodup) :
    Inv keepAudio t := by
  have hself : t.meetings n = m := by rw [hmeetings, Function.update_self]
  have hold : ∀ k, k ≠ n → t.meetings k = s.meetings k := by
    intro k hk
    rw [hmeetings, Function.update_of_ne hk]
  refine ⟨?_, ?_, ?_, ?_, hnodup⟩
  · intro k hk
    rw [hold k (by omega)]
    exact hs.unused k (by omega)
  · intro k
    by_cases hk : k = n
    · rw [hk, hself]
      exact hsound
    · rw [hold k hk]
      exact hs.sound k
  · intro k
    by_cases hk : k = n
    · rw [hk, hself]
      exact hslot
    · rw [hold k hk, hslots k hk]
      exact hs.slot k
  · intro k
    by_cases hk : k = n
    · rw [hk, hself]
      exact hqueue
    · rw [hold k hk, hqueues k hk]
      exact hs.queue k

/-- A meeting changes that is not recorded and not queued, before or after. -/
theorem inv_setMeeting {m : Meeting} (hs : Inv keepAudio s)
    (hn : (s.meetings n).phase ≠ .unused) (hsound : Sound keepAudio n m)
    (hbefore : (s.meetings n).phase ≠ .recording ∧ (s.meetings n).phase ≠ .queued)
    (hafter : m.phase ≠ .recording ∧ m.phase ≠ .queued) : Inv keepAudio (s.setMeeting n m) := by
  refine inv_of_meeting hs (hs.lt_next hn) (Nat.le_refl _) rfl hsound ?_ (fun _ _ => Iff.rfl) ?_
    (fun _ _ => Iff.rfl) hs.nodup
  · exact iff_of_false hafter.1 ((hs.slot n).not.1 hbefore.1)
  · exact iff_of_false hafter.2 ((hs.queue n).not.1 hbefore.2)

/-- The session that is taken. -/
theorem slots_of_take {session : Session} (hrecording : s.recording = some session) :
    ∀ k, k ≠ session.id → ((∃ x ∈ (none : Option Session), x.id = k) ↔
      ∃ x ∈ s.recording, x.id = k) := by
  intro k hk
  refine iff_of_false (by simp) ?_
  rintro ⟨x, hx, rfl⟩
  rw [hrecording] at hx
  cases hx
  exact hk rfl

/-- **A row is inserted.** -/
theorem inv_insert (hs : Inv keepAudio s) :
    Inv keepAudio { s.setMeeting s.next { phase := .inserted } with next := s.next + 1 } := by
  have hunused : s.meetings s.next = {} := hs.unused _ (Nat.le_refl _)
  refine inv_of_meeting hs (Nat.lt_succ_self _) (Nat.le_succ _) rfl ⟨rfl, rfl, rfl⟩ ?_
    (fun _ _ => Iff.rfl) ?_ (fun _ _ => Iff.rfl) hs.nodup
  · exact iff_of_false (by simp) ((hs.slot s.next).not.1 (by simp [hunused]))
  · exact iff_of_false (by simp) ((hs.queue s.next).not.1 (by simp [hunused]))

/-- **A session begins, or does not.** -/
theorem inv_beginRecording (hs : Inv keepAudio s) {nowMs : ℕ} {wav : WavCreate}
    (hn : (s.meetings n).phase = .inserted) (hwav : s.recording = none → wav ≠ .headerFailed) :
    Inv keepAudio (s.beginRecording n nowMs wav) := by
  have hmeeting := hs.sound n
  rw [Sound, hn] at hmeeting
  have hrefused : Inv keepAudio (s.setMeeting n { s.meetings n with phase := .refused }) :=
    inv_setMeeting hs (by simp [hn]) hmeeting (by simp [hn]) (by simp)
  unfold Recorder.beginRecording
  dsimp only
  split
  · exact hrefused
  · rename_i hfree
    have hnone : s.recording = none := by simpa using hfree
    cases wav with
    | failed => exact hrefused
    | headerFailed => exact absurd rfl (hwav hnone)
    | created =>
        refine inv_of_meeting hs (hs.lt_next (by simp [hn])) (Nat.le_refl _) rfl hmeeting.2 ?_ ?_ ?_
          (fun _ _ => Iff.rfl) hs.nodup
        · simp
        · intro k hk
          refine iff_of_false ?_ ?_
          · rintro ⟨x, hx, rfl⟩
            cases hx
            exact hk rfl
          · rintro ⟨x, hx, -⟩
            rw [hnone] at hx
            cases hx
        · exact iff_of_false (by simp) ((hs.queue n).not.1 (by simp [hn]))

/-- The meeting that is recorded, and that its session has not ended. -/
theorem Inv.recording (hs : Inv keepAudio s) {session : Session}
    (hrecording : s.recording = some session) :
    (s.meetings session.id).phase = .recording ∧ (s.meetings session.id).handed = 0 := by
  have hphase := (hs.slot session.id).2 ⟨session, hrecording, rfl⟩
  have h := hs.sound session.id
  rw [Sound, hphase] at h
  exact ⟨hphase, h.1⟩

/-- **`stop` is called.** -/
theorem inv_finishRecording (hs : Inv keepAudio s) {finalizes : Bool}
    (hfinalizes : ∀ session ∈ s.recording, session.id = n → finalizes = true) :
    Inv keepAudio (s.finishRecording n finalizes) := by
  unfold Recorder.finishRecording
  split
  · rename_i session hrecording
    split
    · rename_i hid
      subst hid
      obtain ⟨hphase, hhanded⟩ := hs.recording hrecording
      rw [if_pos (hfinalizes session hrecording rfl)]
      refine inv_of_meeting hs (hs.lt_next (by simp [hphase])) (Nat.le_refl _) rfl
        ⟨hhanded, _, rfl, rfl⟩ ?_ (slots_of_take hrecording) ?_ (fun _ _ => Iff.rfl) hs.nodup
      · simp
      · exact iff_of_false (by simp) ((hs.queue session.id).not.1 (by simp [hphase]))
    · exact hs
  · exact hs

/-- **The worker takes a session**, the one it has decided on. -/
theorem inv_finishCurrent (hs : Inv keepAudio s) {cause : Cause}
    (hown : ∀ session ∈ s.recording, session.id = cause.id) :
    Inv keepAudio (s.finishCurrent cause) := by
  unfold Recorder.finishCurrent
  split
  · rename_i session hrecording
    obtain ⟨hphase, hhanded⟩ := hs.recording hrecording
    have hnot : session.id ∉ s.channel := (hs.queue session.id).not.1 (by simp [hphase])
    refine inv_of_meeting hs (hs.lt_next (by simp [hphase])) (Nat.le_refl _) rfl
      ⟨hhanded, cause, rfl, (hown session hrecording).symm⟩ ?_ (slots_of_take hrecording) ?_ ?_ ?_
    · simp
    · simp
    · intro k hk
      simp [hk]
    · refine List.nodup_append.2 ⟨hs.nodup, List.nodup_singleton _, ?_⟩
      intro a ha b hb
      rw [List.mem_singleton.1 hb]
      rintro rfl
      exact hnot ha
  · exact ⟨hs.unused, hs.sound, hs.slot, hs.queue, hs.nodup⟩

/-- **`stop` hands its meeting over.** -/
theorem inv_hand_stopping (hs : Inv keepAudio s) (hn : (s.meetings n).phase = .stopping) :
    Inv keepAudio (s.hand n) := by
  have hmeeting := hs.sound n
  rw [Sound, hn] at hmeeting
  obtain ⟨hhanded, hended⟩ := hmeeting
  exact inv_setMeeting hs (by simp [hn]) ⟨by simp [hhanded], hended⟩ (by simp [hn]) (by simp)

/-- **The first meeting of the channel is handed over.** -/
theorem inv_bridge (hs : Inv keepAudio s) {channel : List ℕ} (hchannel : s.channel = n :: channel) :
    Inv keepAudio { s.hand n with channel, bridge := some n } := by
  have hphase : (s.meetings n).phase = .queued := by
    rw [hs.queue, hchannel]
    exact List.mem_cons_self
  have hmeeting := hs.sound n
  rw [Sound, hphase] at hmeeting
  obtain ⟨hhanded, hended⟩ := hmeeting
  have hnodup := hs.nodup
  rw [hchannel, List.nodup_cons] at hnodup
  refine inv_of_meeting hs (hs.lt_next (by simp [hphase])) (Nat.le_refl _) rfl
    ⟨by simp [hhanded], hended⟩ ?_ (fun _ _ => Iff.rfl) ?_ ?_ hnodup.2
  · exact iff_of_false (by simp) ((hs.slot n).not.1 (by simp [hphase]))
  · exact iff_of_false (by simp) hnodup.1
  · intro k hk
    rw [hchannel]
    simp [hk]

/-- **A pipeline is over**: the WAV is removed. -/
theorem inv_finish (hs : Inv keepAudio s) (hn : (s.meetings n).phase = .processing) :
    Inv keepAudio (s.finish keepAudio n) := by
  have hmeeting := hs.sound n
  rw [Sound, hn] at hmeeting
  obtain ⟨hhanded, hended⟩ := hmeeting
  have h := inv_setMeeting (m := { s.meetings n with
      phase := .done, wav := keepAudio && (s.meetings n).wav }) hs (by simp [hn])
    ⟨hhanded, hended, by intro h; simp [h]⟩ (by simp [hn]) (by simp)
  exact ⟨h.unused, h.sound, h.slot, h.queue, h.nodup⟩

end Steps

/-- **Every step at which nothing gets lost keeps the invariant.** -/
theorem inv_meetingStep {s t : Recorder} {e : MeetingEvent} (hs : Inv keepAudio s)
    (hundisturbed : Undisturbed s e) (h : meetingStep maxDurationSecs keepAudio s e = some t) :
    Inv keepAudio t := by
  cases e with
  | insert =>
      cases h
      exact inv_insert hs
  | begin n nowMs wav =>
      rw [meetingStep, Option.ite_none_right_eq_some] at h
      cases h.2
      exact inv_beginRecording hs h.1 hundisturbed
  | stop n finalizes =>
      cases h
      exact inv_finishRecording hs hundisturbed
  | statusWritten n ok =>
      rw [meetingStep, Option.ite_none_right_eq_some] at h
      cases h.2
      rw [show ok = true from hundisturbed]
      exact inv_hand_stopping hs h.1
  | chunk nowMs writes =>
      rw [meetingStep, Option.ite_none_right_eq_some] at h
      cases h.2
      exact ⟨hs.unused, hs.sound, hs.slot, hs.queue, hs.nodup⟩
  | finishCurrent =>
      rw [meetingStep, Option.map_eq_some_iff] at h
      obtain ⟨cause, hcause, rfl⟩ := h
      exact inv_finishCurrent hs (hundisturbed cause hcause)
  | bridge =>
      rw [meetingStep] at h
      split at h
      · rename_i n channel hchannel _
        cases h
        exact inv_bridge hs hchannel
      · cases h
  | processed n =>
      rw [meetingStep, Option.ite_none_right_eq_some] at h
      cases h.2
      exact inv_finish hs h.1
  | delete n =>
      cases h
      exact hs

/-! ### Every run -/

/-- **Meeting sessions and their audio**: in a run in which the worker takes the session it has decided
on, no `stop` fails after it has taken a session, and every WAV gets its header, a session ends by its
own cause and is processed once, and no audio is left. -/
theorem sessionsHold_passes {s : Recorder} {es : List MeetingEvent}
    (hundisturbed : ∀ u e, Occurs (meetingStep maxDurationSecs keepAudio) {} es u e → Undisturbed u e)
    (h : Passes (meetingStep maxDurationSecs keepAudio) {} es s) : SessionsHold keepAudio s :=
  (passes_induction (fun u e _ hu hs => inv_meetingStep hs (hundisturbed u e hu)) inv_initial
    h).sessionsHold

/-- One session is stopped, and the next one, which begins while the first is handed over, lasts as long
as it may. -/
def twoSessions : List MeetingEvent :=
  [.insert, .begin 0 1000 .created, .chunk 2000 true, .stop 0 true, .insert, .stop 0 true,
    .begin 1 3000 .created, .statusWritten 0 true, .chunk 63000 true, .delete 0, .finishCurrent,
    .bridge, .processed 0, .processed 1]

theorem sessionsHold_twoSessions :
    ∃ s, Passes (meetingStep 60 false) {} twoSessions s ∧ SessionsHold false s ∧
      s.meetings 0 = ⟨.done, false, 1, some (.stop 0)⟩ ∧
      s.meetings 1 = ⟨.done, false, 1, some (.maxDuration 1)⟩ := by
  have hend : (exec (meetingStep 60 false) {} twoSessions).map (fun s => (s.meetings 0, s.meetings 1))
      = some (⟨.done, false, 1, some (.stop 0)⟩, ⟨.done, false, 1, some (.maxDuration 1)⟩) := by
    decide
  obtain ⟨s, hs, heq⟩ := Option.map_eq_some_iff.1 hend
  obtain ⟨hfirst, hsecond⟩ := Prod.mk.inj heq
  refine ⟨s, ⟨_, List.prefix_rfl, hs⟩, ?_, hfirst, hsecond⟩
  refine sessionsHold_passes ?_ ⟨_, List.prefix_rfl, hs⟩
  intro u e hu
  exact of_decide_eq_true (forall_occurs_of_along (p := fun u e => decide (Undisturbed u e))
    (by decide) u e hu)

/-- The worker decides to stop a session whose disk is full; before it does, the session is stopped and
another one begins. -/
def wrongSession : List MeetingEvent :=
  [.insert, .begin 0 1000 .created, .chunk 2000 false, .stop 0 true, .statusWritten 0 true, .insert,
    .begin 1 3000 .created, .finishCurrent]

/-- **The new session is ended**, for a write that failed in the old one. -/
theorem not_sessionsHold_wrongSession :
    ∃ s, Passes (meetingStep 60 false) {} wrongSession s ∧
      (s.meetings 1).endedBy = some (.writeFailed 0) ∧ ¬ SessionsHold false s := by
  have hend : (exec (meetingStep 60 false) {} wrongSession).map (fun s => (s.meetings 1).endedBy)
      = some (some (.writeFailed 0)) := by decide
  obtain ⟨s, hs, hended⟩ := Option.map_eq_some_iff.1 hend
  refine ⟨s, ⟨_, List.prefix_rfl, hs⟩, hended, ?_⟩
  intro h
  exact absurd (h.ends 1 _ hended) (by decide)

end Meetings

/-
**Where a question ends.**

After its wake word the worker of `crates/streaming/src/voice/mod.rs` collects the audio of a question.  A
soft deadline, which is put off while speech is detected, a hard cap and the segments of speech that are
complete tell where the question ends.  The hard cap is computed once, where the worker starts, and the
speech that has accumulated is never set back.

Times are in nanoseconds.  What the detector of wake words and that of speech make of a chunk, and what the
enrolment and the verification of a speaker say, are part of the input.

Main definitions:

* `VoiceCapture.Endpoint.hear`, `VoiceCapture.step` — the endpointing of a capture, and the worker;
* `VoiceCapture.Config.designedEnd` — the end of a capture, from what was heard since its wake word;
* `VoiceCapture.Alike` — what is to hold of a capture, however it goes on;
* `VoiceCapture.Fresh` — a capture that begins as the first one of a worker that has just started.

Main results:

* `VoiceCapture.captureEnd_since` — a fresh capture ends as it is designed to;
* `VoiceCapture.captureEnd_le` — any capture ends in time;
* `VoiceCapture.alike_iff` — **exactly the fresh captures are alike**.
-/

import Mathlib.Algebra.Order.BigOperators.Group.List
import Mathlib.Algebra.Order.Ring.Nat
import MibeeEye.Transducer

set_option relaxedAutoImplicit false
set_option autoImplicit false

namespace VoiceCapture

open Transducer

/-! ### Endpointing -/

/-- `Duration::from_secs` -/
def fromSecs (n : ℕ) : ℕ := n * 1000000000

/-- `CAPTURE_HEADROOM_SECS` -/
def captureHeadroomSecs : ℕ := 6

/-- `MIN_SPEECH_SAMPLES` -/
def minSpeechSamples : ℕ := 16000 * 6 / 5

/-- `usize::saturating_add` -/
def saturatingAdd (a b : ℕ) : ℕ := min (a + b) (2 ^ 64 - 1)

/-- What the worker knows of a chunk while it captures. -/
structure Heard where
  /-- `Instant::now()`, before the chunk is given to the detector of speech. -/
  now : ℕ
  /-- `Instant::now()`, where the worker is done with the chunk. -/
  later : ℕ
  /-- `detected()` -/
  detected : Bool
  /-- The samples of each segment that is complete. -/
  segments : List ℕ
  deriving DecidableEq, Repr

/-- `capture_deadline` and `captured_speech_samples`. -/
structure Endpoint where
  captureDeadline : ℕ
  capturedSpeechSamples : ℕ := 0
  deriving DecidableEq, Repr

/-- The loop over the segments that are complete: the speech that has accumulated, and `segment_ended`. -/
@[grind =] def popSegments (speech : ℕ) : List ℕ → ℕ × Bool
  | [] => (speech, false)
  | len :: segments =>
    let speech := saturatingAdd speech len
    let rest := popSegments speech segments
    (rest.1, decide (8000 ≤ len ∧ minSpeechSamples ≤ speech) || rest.2)

/-- What a chunk does to the endpointing, and whether the capture ends. -/
def Endpoint.hear (captureVad : Bool) (hardCap : ℕ) (e : Endpoint) (h : Heard) : Endpoint × Bool :=
  let deadline :=
    if captureVad ∧ h.detected ∧ e.captureDeadline < hardCap then min (h.now + fromSecs 1) hardCap
    else e.captureDeadline
  let popped :=
    if captureVad then popSegments e.capturedSpeechSamples h.segments else (e.capturedSpeechSamples, false)
  (⟨deadline, popped.1⟩, popped.2 || decide (deadline ≤ h.later))

/-! ### The worker -/

variable {S K : Type}

/-- What the worker is configured with and has loaded. -/
structure Config where
  captureSecs : ℕ
  /-- `barge_in = "aec"` -/
  aecBargeIn : Bool
  verify : Bool
  vad : Bool
  captureVad : Bool
  embed : Bool
  deriving DecidableEq, Repr

/-- `u64::from(capture_secs.max(1))` -/
def Config.windowSecs (cfg : Config) : ℕ := max cfg.captureSecs 1

/-- The longest that a capture is to take. -/
def Config.longest (cfg : Config) : ℕ := fromSecs (cfg.windowSecs + captureHeadroomSecs)

/-- A chunk of audio, with what the worker reads while it handles the chunk. -/
structure Chunk (S K : Type) extends Heard where
  samples : List S
  /-- `playback_mute_until_ms`, and the clock where it is other than 0. -/
  muteUntilMs : ℕ := 0
  muteNowMs : ℕ := 0
  /-- `follow_until_ms`, and the clock. -/
  followUntilMs : ℕ := 0
  nowMs : ℕ := 0
  /-- The keyword that the detector of wake words has found, if it is given the chunk. -/
  hit : Option K := none
  /-- `enrollment_accepts` of an enrolment in progress. -/
  enrolling : Bool := false
  /-- `num_speakers()`, and the speaker that matches. -/
  profiles : ℕ := 0
  matched : Option String := none

/-- The device is speaking. -/
def Chunk.muted (c : Chunk S K) : Bool := 0 < c.muteUntilMs && c.muteNowMs < c.muteUntilMs

/-- The chunk belongs to a follow-up window. -/
def Config.follows (cfg : Config) (c : Chunk S K) : Bool :=
  0 < c.followUntilMs && cfg.vad && c.nowMs < c.followUntilMs

/-- `wake_gate_allows` -/
def wakeGateAllows (verifyArmed : Bool) (matched : Option String) : Bool := !verifyArmed || matched.isSome

/-- The verification gate; with no profile and with no model it is open. -/
def Config.opens (cfg : Config) (c : Chunk S K) : Bool :=
  !cfg.verify || c.profiles == 0 || !cfg.embed || wakeGateAllows true c.matched

/-- The variables of the worker. -/
structure Worker (S K : Type) extends Endpoint where
  captured : List S := []
  keywordPending : Option K := none

/-- `capture_hard_cap`, of a worker that has started at `start`. -/
def Config.captureHardCap (cfg : Config) (start : ℕ) : ℕ := start + cfg.longest

/-- A worker that has started at `start`. -/
def Worker.init (start : ℕ) : Worker S K := { captureDeadline := start }

/-- **The worker's loop, for one chunk**, with the keyword and the audio that it has transcribed. -/
def step (cfg : Config) (start : ℕ) (w : Worker S K) (c : Chunk S K) : Worker S K × Option (K × List S) :=
  if c.muted && !cfg.aecBargeIn then (w, none)
  else if cfg.follows c then (w, none)
  else
    match w.keywordPending with
    | some keyword =>
      let captured := w.captured ++ c.samples
      let heard := w.toEndpoint.hear cfg.captureVad (cfg.captureHardCap start) c.toHeard
      if heard.2 then ({ toEndpoint := heard.1 }, some (keyword, captured))
      else ({ toEndpoint := heard.1, captured, keywordPending := some keyword }, none)
    | none =>
      if c.muted then (w, none)
      else
        match c.hit with
        | none => (w, none)
        | some keyword =>
          let w := { w with captured := [] }
          if c.enrolling || !cfg.opens c then (w, none)
          else
            ({ w with
              keywordPending := some keyword
              captureDeadline := c.later + fromSecs cfg.windowSecs }, none)

/-! ### What is to hold -/

/-- The clock does not go back, from `t` on. -/
def Clocked (t : ℕ) : List (Chunk S K) → Prop
  | [] => True
  | c :: cs => t ≤ c.now ∧ c.now ≤ c.later ∧ Clocked c.later cs

/-- The worker is done with each chunk at most `gap` after it was done with the one before. -/
def Spaced (gap t : ℕ) : List (Chunk S K) → Prop
  | [] => True
  | c :: cs => c.later ≤ t + gap ∧ Spaced gap c.later cs

/-- There is neither a follow-up window nor a playback. -/
def Config.Undisturbed (cfg : Config) (cs : List (Chunk S K)) : Prop :=
  ∀ c ∈ cs, c.muted = false ∧ cfg.follows c = false

instance decidableClocked : (t : ℕ) → (cs : List (Chunk S K)) → Decidable (Clocked t cs)
  | _, [] => .isTrue trivial
  | t, c :: cs =>
    haveI := decidableClocked c.later cs
    inferInstanceAs (Decidable (t ≤ c.now ∧ c.now ≤ c.later ∧ Clocked c.later cs))

instance decidableSpaced (gap : ℕ) : (t : ℕ) → (cs : List (Chunk S K)) → Decidable (Spaced gap t cs)
  | _, [] => .isTrue trivial
  | t, c :: cs =>
    haveI := decidableSpaced gap c.later cs
    inferInstanceAs (Decidable (c.later ≤ t + gap ∧ Spaced gap c.later cs))

instance (cfg : Config) (cs : List (Chunk S K)) : Decidable (cfg.Undisturbed cs) :=
  inferInstanceAs (Decidable (∀ c ∈ cs, c.muted = false ∧ cfg.follows c = false))

/-- The chunk `wake`, behind the chunks `before`, begins a capture. -/
def Wakes (cfg : Config) (start : ℕ) (before : List (Chunk S K)) (wake : Chunk S K) : Prop :=
  (after (step cfg start) (Worker.init start) before).keywordPending = none ∧
  (after (step cfg start) (Worker.init start) (before ++ [wake])).keywordPending.isSome

/-- The moment at which the capture in progress ends: its audio goes to be transcribed. -/
def captureEnd (cfg : Config) (start : ℕ) (w : Worker S K) (cs : List (Chunk S K)) : Option ℕ :=
  (first (step cfg start) Option.isSome w cs).map fun c => c.later

/-- What was heard, with the times since `t`. -/
def Heard.since (t : ℕ) (h : Heard) : Heard := { h with now := h.now - t, later := h.later - t }

/-- **The end of a capture as it is designed**, from what was heard since its wake word. -/
def Config.designedEnd (cfg : Config) (hs : List Heard) : Option ℕ :=
  (first (Endpoint.hear cfg.captureVad cfg.longest) id ⟨fromSecs cfg.windowSecs, 0⟩ hs).map Heard.later

/-- A segment of at least half a second that is complete with 1.2 seconds of speech. -/
def Sufficient (segments : List ℕ) : Prop :=
  ∃ front len back, segments = front ++ len :: back ∧ 8000 ≤ len ∧ minSpeechSamples ≤ front.sum + len

/-- **A capture that ends like any other**, however it goes on: where it ends is a function of what was
heard since its wake word; it is in time; and it is not early while there is speech. -/
def Alike (cfg : Config) (start wokeAt : ℕ) (w : Worker S K) : Prop :=
  ∀ cs : List (Chunk S K), Clocked wokeAt cs → cfg.Undisturbed cs →
    (captureEnd cfg start w cs).map (· - wokeAt) =
      cfg.designedEnd (cs.map fun c => c.toHeard.since wokeAt) ∧
    (∀ gap t, Spaced gap wokeAt cs → captureEnd cfg start w cs = some t → t ≤ wokeAt + cfg.longest + gap) ∧
    ∀ init c, cs = init ++ [c] → captureEnd cfg start w init = none →
      captureEnd cfg start w cs = some c.later → Spaced (fromSecs 1 - 1) wokeAt cs →
      (∀ c ∈ cs, cfg.captureVad ∧ c.detected) →
      wokeAt + cfg.longest ≤ c.later ∨ Sufficient (cs.flatMap fun c => c.segments)

/-- A capture that begins as the first of a worker that has just started: with no detector of speech, or at
the very moment of the start and with no speech accumulated. -/
def Fresh (cfg : Config) (start wokeAt : ℕ) (w : Worker S K) : Prop :=
  cfg.captureVad = false ∨ wokeAt = start ∧ w.capturedSpeechSamples = 0

/-! ### Segments -/

theorem le_saturatingAdd_iff {n : ℕ} (h : n ≤ 2 ^ 64 - 1) (a b c : ℕ) :
    n ≤ saturatingAdd a b + c ↔ n ≤ a + b + c := by
  simp only [saturatingAdd]
  omega

theorem saturatingAdd_assoc (a b c : ℕ) :
    saturatingAdd (saturatingAdd a b) c = saturatingAdd a (b + c) := by
  simp only [saturatingAdd]
  omega

/-- The speech that has accumulated. -/
theorem popSegments_fst {speech : ℕ} (h : speech ≤ 2 ^ 64 - 1) (segments : List ℕ) :
    (popSegments speech segments).1 = saturatingAdd speech segments.sum := by
  induction segments generalizing speech with
  | nil => exact (min_eq_left h).symm
  | cons len segments ih =>
      rw [popSegments, List.sum_cons, ← saturatingAdd_assoc]
      exact ih (min_le_right _ _)

/-- `segment_ended`, where some speech has accumulated before. -/
theorem popSegments_snd (speech : ℕ) (segments : List ℕ) :
    (popSegments speech segments).2 = true ↔
      ∃ front len back, segments = front ++ len :: back ∧ 8000 ≤ len ∧
        minSpeechSamples ≤ speech + (front.sum + len) := by
  have hcap : minSpeechSamples ≤ 2 ^ 64 - 1 := by decide
  induction segments generalizing speech with
  | nil =>
      refine ⟨fun h => absurd h Bool.false_ne_true, fun ⟨front, len, back, h, _⟩ => ?_⟩
      simp at h
  | cons first segments ih =>
      have hfirst := le_saturatingAdd_iff hcap speech first 0
      simp only [popSegments, Bool.or_eq_true, decide_eq_true_eq, ih]
      constructor
      · rintro (⟨hlen, hspeech⟩ | ⟨front, len, back, rfl, hlen, hspeech⟩)
        · exact ⟨[], first, segments, rfl, hlen, by simpa using hfirst.mp hspeech⟩
        · refine ⟨first :: front, len, back, rfl, hlen, ?_⟩
          rw [le_saturatingAdd_iff hcap] at hspeech
          rw [List.sum_cons]
          omega
      · rintro ⟨front, len, back, hsplit, hlen, hspeech⟩
        cases front with
        | nil =>
            obtain ⟨rfl, rfl⟩ := List.cons.inj hsplit
            exact .inl ⟨hlen, hfirst.mpr (by simpa using hspeech)⟩
        | cons _ front =>
            obtain ⟨rfl, rfl⟩ := List.cons.inj hsplit
            refine .inr ⟨front, len, back, rfl, hlen, ?_⟩
            rw [le_saturatingAdd_iff hcap]
            rw [List.sum_cons] at hspeech
            omega

/-! ### One chunk -/

section Steps

variable {cfg : Config} {start wokeAt : ℕ} {w : Worker S K} {c : Chunk S K} {cs : List (Chunk S K)}

/-- A chunk while the worker captures, and nothing else goes on. -/
theorem step_capturing {keyword : K} (hw : w.keywordPending = some keyword)
    (hc : c.muted = false ∧ cfg.follows c = false) :
    step cfg start w c =
      let heard := w.toEndpoint.hear cfg.captureVad (cfg.captureHardCap start) c.toHeard
      if heard.2 then ({ toEndpoint := heard.1 }, some (keyword, w.captured ++ c.samples))
      else ({ toEndpoint := heard.1, captured := w.captured ++ c.samples, keywordPending := some keyword },
        none) := by
  rw [step, hc.1, hc.2, Bool.false_and, if_neg Bool.false_ne_true, if_neg Bool.false_ne_true, hw]

variable (cfg start) in
/-- Whether the capture ends with the chunk, and what the worker keeps if not. -/
theorem hear_of_step (hw : w.keywordPending.isSome) (hc : c.muted = false ∧ cfg.follows c = false) :
    (step cfg start w c).2.isSome =
      (w.toEndpoint.hear cfg.captureVad (cfg.captureHardCap start) c.toHeard).2 ∧
    ((step cfg start w c).2.isSome = false →
      (step cfg start w c).1.keywordPending.isSome ∧
      (step cfg start w c).1.toEndpoint =
        (w.toEndpoint.hear cfg.captureVad (cfg.captureHardCap start) c.toHeard).1) := by
  obtain ⟨keyword, hw⟩ := Option.isSome_iff_exists.mp hw
  rw [step_capturing hw hc]
  simp only
  cases (w.toEndpoint.hear cfg.captureVad (cfg.captureHardCap start) c.toHeard).2 with
  | true => exact ⟨rfl, fun h => by cases h⟩
  | false => exact ⟨rfl, fun _ => ⟨rfl, rfl⟩⟩

variable (cfg start) in
/-- A chunk while the worker does not capture: no capture begins, or its deadline is a window ahead. -/
theorem step_idle (hw : w.keywordPending = none) :
    (step cfg start w c).1.keywordPending = none ∨
    (step cfg start w c).1.toEndpoint = ⟨c.later + fromSecs cfg.windowSecs, w.capturedSpeechSamples⟩ := by
  unfold step
  rw [hw]
  split
  · exact .inl hw
  · split
    · exact .inl hw
    · simp only
      split
      · exact .inl hw
      · split
        · exact .inl hw
        · split
          · exact .inl rfl
          · exact .inr rfl

/-- A chunk that begins a capture. -/
theorem endpoint_of_wakes {before : List (Chunk S K)} {wake : Chunk S K}
    (h : Wakes cfg start before wake) :
    (after (step cfg start) (Worker.init start) (before ++ [wake])).toEndpoint =
      ⟨wake.later + fromSecs cfg.windowSecs,
        (after (step cfg start) (Worker.init start) before).capturedSpeechSamples⟩ := by
  obtain ⟨hidle, hwake⟩ := h
  rw [after_concat] at hwake ⊢
  obtain hnone | hdeadline := step_idle cfg start (c := wake) hidle
  · rw [hnone] at hwake
    cases hwake
  · exact hdeadline

/-! ### The end of a capture -/

theorem clocked_mem (hclock : Clocked wokeAt cs) (hc : c ∈ cs) : wokeAt ≤ c.now ∧ c.now ≤ c.later := by
  induction cs generalizing wokeAt with
  | nil => cases hc
  | cons c' cs ih =>
      obtain ⟨hnow, hlater, hclock⟩ := hclock
      rcases List.mem_cons.mp hc with rfl | hc
      · exact ⟨hnow, hlater⟩
      · obtain ⟨hle, hc⟩ := ih hclock hc
        exact ⟨by omega, hc⟩

theorem captureEnd_nil : captureEnd cfg start w [] = none := rfl

theorem captureEnd_cons : captureEnd cfg start w (c :: cs) =
    if (step cfg start w c).2.isSome then some c.later
    else captureEnd cfg start (step cfg start w c).1 cs := by
  rw [captureEnd, first_cons]
  split <;> rfl

theorem hardCap_le (hstart : start ≤ wokeAt) : cfg.captureHardCap start ≤ wokeAt + cfg.longest :=
  Nat.add_le_add_right hstart _

/-- No chunk puts the deadline off further than to the hard cap. -/
theorem hear_deadline_le (captureVad : Bool) {hardCap bound : ℕ} {e : Endpoint} (h : Heard)
    (hcap : hardCap ≤ bound) (he : e.captureDeadline ≤ bound) :
    (e.hear captureVad hardCap h).1.captureDeadline ≤ bound := by
  simp only [Endpoint.hear]
  split
  · exact (min_le_right _ _).trans hcap
  · exact he

theorem hear_snd (captureVad : Bool) (hardCap : ℕ) (e : Endpoint) (h : Heard) :
    (e.hear captureVad hardCap h).2 =
      ((if captureVad then popSegments e.capturedSpeechSamples h.segments
        else (e.capturedSpeechSamples, false)).2 ||
      decide ((e.hear captureVad hardCap h).1.captureDeadline ≤ h.later)) := rfl

theorem lt_deadline_of_hear {captureVad : Bool} {hardCap : ℕ} {e : Endpoint} {h : Heard}
    (hends : (e.hear captureVad hardCap h).2 = false) :
    h.later < (e.hear captureVad hardCap h).1.captureDeadline := by
  obtain ⟨-, hlater⟩ := Bool.or_eq_false_iff.mp hends
  exact Nat.lt_of_not_le (of_decide_eq_false hlater)

/-- **Any capture ends in time**, whatever has been before. -/
theorem captureEnd_le {bound gap p t : ℕ} (hcap : cfg.captureHardCap start ≤ bound)
    (hw : w.keywordPending.isSome) (hdeadline : w.captureDeadline ≤ bound) (hp : p ≤ bound)
    (hcs : cfg.Undisturbed cs) (hspaced : Spaced gap p cs) (hend : captureEnd cfg start w cs = some t) :
    t ≤ bound + gap := by
  induction cs generalizing w p with
  | nil => cases hend
  | cons c cs ih =>
      obtain ⟨hlater, hspaced⟩ := hspaced
      obtain ⟨hends, hnext⟩ := hear_of_step cfg start hw (hcs c List.mem_cons_self)
      rw [captureEnd_cons] at hend
      split at hend
      · cases hend
        omega
      · next hgoes =>
        rw [Bool.not_eq_true] at hgoes
        obtain ⟨hpending, hendpoint⟩ := hnext hgoes
        have hle := hear_deadline_le cfg.captureVad c.toHeard hcap hdeadline
        have hlt := lt_deadline_of_hear (hends.symm.trans hgoes)
        refine ih hpending ?_ ?_ (fun c' hc' => hcs c' (List.mem_cons_of_mem c hc')) hspaced hend
        · rw [hendpoint]
          exact hle
        · exact (hlt.trans_le hle).le

/-! ### Fresh captures -/

/-- The same endpointing, `wokeAt` later. -/
def Endpoint.Later (captureVad : Bool) (wokeAt : ℕ) (e e' : Endpoint) : Prop :=
  e.captureDeadline = wokeAt + e'.captureDeadline ∧
  (captureVad = true → e.capturedSpeechSamples = e'.capturedSpeechSamples)

/-- The endpointing does not depend on when the capture was begun. -/
theorem hear_later {captureVad : Bool} {hardCap longest : ℕ} {e e' : Endpoint} {h : Heard}
    (hcap : captureVad = true → hardCap = wokeAt + longest) (he : e.Later captureVad wokeAt e')
    (hnow : wokeAt ≤ h.now) (hlater : h.now ≤ h.later) :
    (e.hear captureVad hardCap h).2 = (e'.hear captureVad longest (h.since wokeAt)).2 ∧
    (e.hear captureVad hardCap h).1.Later captureVad wokeAt
      (e'.hear captureVad longest (h.since wokeAt)).1 := by
  obtain ⟨hdeadline, hspeech⟩ := he
  have hpopped : (if captureVad then popSegments e.capturedSpeechSamples h.segments
        else (e.capturedSpeechSamples, false)).2 =
      (if captureVad then popSegments e'.capturedSpeechSamples h.segments
        else (e'.capturedSpeechSamples, false)).2 := by
    split
    · next hvad => rw [hspeech hvad]
    · rfl
  have hnext : (e.hear captureVad hardCap h).1.captureDeadline =
      wokeAt + (e'.hear captureVad longest (h.since wokeAt)).1.captureDeadline := by
    cases captureVad with
    | false =>
        simp only [Endpoint.hear, Bool.false_eq_true, false_and, if_false]
        exact hdeadline
    | true =>
        simp only [Endpoint.hear, Heard.since, hdeadline, hcap rfl, true_and, Nat.add_lt_add_iff_left]
        split
        · omega
        · rfl
  refine ⟨?_, hnext, fun hvad => by simp only [Endpoint.hear, Heard.since, hspeech hvad]⟩
  rw [hear_snd, hear_snd, hnext, hpopped]
  have hsince : (h.since wokeAt).later = h.later - wokeAt := rfl
  congr 1
  rw [decide_eq_decide, hsince]
  omega

/-- **A fresh capture ends as it is designed to.** -/
theorem captureEnd_since (hstart : cfg.captureVad = true → start = wokeAt) (hw : w.keywordPending.isSome)
    (hendpoint : w.toEndpoint.Later cfg.captureVad wokeAt ⟨fromSecs cfg.windowSecs, 0⟩)
    (hclock : Clocked wokeAt cs) (hcs : cfg.Undisturbed cs) :
    (captureEnd cfg start w cs).map (· - wokeAt) =
      cfg.designedEnd (cs.map fun c => c.toHeard.since wokeAt) := by
  have hcap : cfg.captureVad = true → cfg.captureHardCap start = wokeAt + cfg.longest :=
    fun hvad => by rw [hstart hvad]; rfl
  let since := fun c : Chunk S K => c.toHeard.since wokeAt
  have hfirst : (first (step cfg start) Option.isSome w cs).map since =
      first (Endpoint.hear cfg.captureVad cfg.longest) id ⟨fromSecs cfg.windowSecs, 0⟩ (cs.map since) := by
    refine first_map (R := fun w e => w.keywordPending.isSome ∧ w.toEndpoint.Later cfg.captureVad wokeAt e)
      (P := fun c => (c.muted = false ∧ cfg.follows c = false) ∧ wokeAt ≤ c.now ∧ c.now ≤ c.later)
      (fun w e c hc hR => ?_) ⟨hw, hendpoint⟩ fun c hc => ⟨hcs c hc, clocked_mem hclock hc⟩
    obtain ⟨hends, hnext⟩ := hear_of_step cfg start hR.1 hc.1
    obtain ⟨hsame, hlater⟩ := hear_later hcap hR.2 hc.2.1 hc.2.2
    refine ⟨hends.trans hsame, fun hgoes => ?_⟩
    obtain ⟨hpending, hendpoint⟩ := hnext hgoes
    exact ⟨hpending, hendpoint ▸ hlater⟩
  rw [Config.designedEnd, ← hfirst, captureEnd, Option.map_map, Option.map_map]
  rfl

/-- A capture that goes on: the speech that has accumulated. -/
theorem after_capturing (hvad : cfg.captureVad = true) (hw : w.keywordPending.isSome)
    (hspeech : w.capturedSpeechSamples ≤ 2 ^ 64 - 1) (hcs : cfg.Undisturbed cs)
    (hgoes : captureEnd cfg start w cs = none) :
    (after (step cfg start) w cs).keywordPending.isSome ∧
    (after (step cfg start) w cs).capturedSpeechSamples =
      saturatingAdd w.capturedSpeechSamples (cs.flatMap fun c => c.segments).sum := by
  induction cs generalizing w with
  | nil => exact ⟨hw, (min_eq_left hspeech).symm⟩
  | cons c cs ih =>
      obtain ⟨-, hnext⟩ := hear_of_step cfg start hw (hcs c List.mem_cons_self)
      rw [captureEnd_cons] at hgoes
      split at hgoes
      · cases hgoes
      · next hstep =>
        rw [Bool.not_eq_true] at hstep
        obtain ⟨hpending, hendpoint⟩ := hnext hstep
        have hcount : (step cfg start w c).1.capturedSpeechSamples =
            saturatingAdd w.capturedSpeechSamples c.segments.sum := by
          rw [hendpoint, Endpoint.hear, hvad]
          exact popSegments_fst hspeech c.segments
        obtain ⟨hafter, hrest⟩ := ih hpending (hcount ▸ min_le_right _ _)
          (fun c' hc' => hcs c' (List.mem_cons_of_mem c hc')) hgoes
        refine ⟨hafter, hrest.trans ?_⟩
        rw [hcount, saturatingAdd_assoc, List.flatMap_cons, List.sum_append]

theorem captureEnd_concat (hgoes : captureEnd cfg start w cs = none) :
    captureEnd cfg start w (cs ++ [c]) =
      if (step cfg start (after (step cfg start) w cs) c).2.isSome then some c.later else none := by
  rw [captureEnd, Option.map_eq_none_iff] at hgoes
  rw [captureEnd, first_append, hgoes, Option.none_or, first_cons]
  split <;> rfl

/-- The worker is not busy with one chunk for longer than with any. -/
theorem later_le_of_spaced {gap p : ℕ} (hclock : Clocked p (cs ++ [c])) (hspaced : Spaced gap p (cs ++ [c])) :
    c.later ≤ c.now + gap := by
  induction cs generalizing p with
  | nil =>
      obtain ⟨hnow, -⟩ := hclock
      obtain ⟨hlater, -⟩ := hspaced
      omega
  | cons c' cs ih => exact ih hclock.2.2 hspaced.2

/-- Where speech is detected, a deadline that is over is that of the hard cap. -/
theorem hardCap_le_of_deadline {hardCap : ℕ} {e : Endpoint} {h : Heard} (hdetected : h.detected)
    (hlater : h.later < h.now + fromSecs 1)
    (hover : (e.hear true hardCap h).1.captureDeadline ≤ h.later) : hardCap ≤ h.later := by
  simp only [Endpoint.hear, hdetected, true_and] at hover
  split at hover <;> omega

/-- A fresh capture does not end early while there is speech, unless by a segment. -/
theorem sufficient_of_early (hvad : cfg.captureVad = true) (hstart : start = wokeAt)
    (hw : w.keywordPending.isSome) (hspeech : w.capturedSpeechSamples = 0)
    (hclock : Clocked wokeAt (cs ++ [c])) (hcs : cfg.Undisturbed (cs ++ [c]))
    (hgoes : captureEnd cfg start w cs = none)
    (hends : captureEnd cfg start w (cs ++ [c]) = some c.later)
    (hspaced : Spaced (fromSecs 1 - 1) wokeAt (cs ++ [c])) (hdetected : c.detected) :
    wokeAt + cfg.longest ≤ c.later ∨ Sufficient ((cs ++ [c]).flatMap fun c => c.segments) := by
  obtain ⟨hpending, hcount⟩ := after_capturing hvad hw (hspeech ▸ Nat.zero_le _)
    (fun c' hc' => hcs c' (List.mem_append_left _ hc')) hgoes
  obtain ⟨hheard, -⟩ := hear_of_step cfg start hpending (hcs c (by simp))
  rw [captureEnd_concat hgoes] at hends
  split at hends
  · next hstep =>
    rw [hheard, hear_snd, Bool.or_eq_true, decide_eq_true_eq, hvad] at hstep
    rcases hstep with hsegment | hover
    · right
      rw [if_pos rfl, popSegments_snd, hcount, hspeech] at hsegment
      obtain ⟨front, len, back, hsplit, hlen, hsum⟩ := hsegment
      refine ⟨(cs.flatMap fun c => c.segments) ++ front, len, back, ?_, hlen, ?_⟩
      · rw [List.flatMap_append, List.flatMap_singleton, hsplit, List.append_assoc]
      · rw [le_saturatingAdd_iff (by decide)] at hsum
        rw [List.sum_append]
        omega
    · left
      have hgap := later_le_of_spaced hclock hspaced
      have hsec : 0 < fromSecs 1 := by decide
      have hcap := hardCap_le_of_deadline hdetected (by omega) hover
      rwa [Config.captureHardCap, hstart] at hcap
  · cases hends

/-! ### Exactly the fresh captures are alike -/

theorem alike_of_fresh (hstart : start ≤ wokeAt) (hw : w.keywordPending.isSome)
    (hdeadline : w.captureDeadline = wokeAt + fromSecs cfg.windowSecs) (hfresh : Fresh cfg start wokeAt w) :
    Alike cfg start wokeAt w := by
  have hwindow : wokeAt + fromSecs cfg.windowSecs ≤ wokeAt + cfg.longest := by
    rw [Config.longest, fromSecs, fromSecs]
    omega
  have hvad : cfg.captureVad = true → wokeAt = start ∧ w.capturedSpeechSamples = 0 := by
    intro hvad
    rcases hfresh with hno | hfresh
    · rw [hvad] at hno
      cases hno
    · exact hfresh
  have hlater : w.toEndpoint.Later cfg.captureVad wokeAt ⟨fromSecs cfg.windowSecs, 0⟩ :=
    ⟨hdeadline, fun h => (hvad h).2⟩
  intro cs hclock hcs
  refine ⟨captureEnd_since (fun h => (hvad h).1.symm) hw hlater hclock hcs, ?_, ?_⟩
  · intro gap t hspaced hend
    exact captureEnd_le (hardCap_le hstart) hw (hdeadline.trans_le hwindow)
      (Nat.le_add_right _ _) hcs hspaced hend
  · rintro init c rfl hgoes hends hspaced hdetected
    obtain ⟨hv, hc⟩ := hdetected c (by simp)
    obtain ⟨hwoke, hspeech⟩ := hvad hv
    exact sufficient_of_early hv hwoke.symm hw hspeech hclock hcs hgoes hends hspaced hc

/-- A chunk of which only this was heard. -/
def Heard.chunk (h : Heard) : Chunk S K := { toHeard := h, samples := [] }

/-- What an alike capture makes of one chunk behind its wake word. -/
theorem hear_of_alike {h : Heard} (halike : Alike cfg start wokeAt w) (hw : w.keywordPending.isSome)
    (hnow : wokeAt ≤ h.now) (hlater : h.now ≤ h.later) :
    (w.toEndpoint.hear cfg.captureVad (cfg.captureHardCap start) h).2 =
      (Endpoint.hear cfg.captureVad cfg.longest ⟨fromSecs cfg.windowSecs, 0⟩ (h.since wokeAt)).2 := by
  have hquiet : (h.chunk : Chunk S K).muted = false ∧ cfg.follows (h.chunk : Chunk S K) = false := ⟨rfl, rfl⟩
  obtain ⟨hends, -⟩ := hear_of_step cfg start hw hquiet
  obtain ⟨hsame, -⟩ := halike [h.chunk] ⟨hnow, hlater, trivial⟩ (by simpa [Config.Undisturbed] using hquiet)
  rw [captureEnd_cons, hends, captureEnd_nil] at hsame
  rw [Config.designedEnd, List.map_singleton, first_cons, first_nil] at hsame
  have hboth := congrArg Option.isSome hsame
  rw [Option.isSome_map, Option.isSome_map] at hboth
  simp only [apply_ite Option.isSome, Option.isSome_some, Option.isSome_none, id, Bool.if_true_left,
    Bool.decide_eq_true, Bool.or_false] at hboth
  exact hboth

/-- Speech that is detected behind the window and at the hard cap ends a capture. -/
theorem hear_of_hardCap {hardCap t : ℕ} {e : Endpoint} (hdeadline : e.captureDeadline ≤ t)
    (hcap : hardCap ≤ t) : (e.hear true hardCap ⟨t, t, true, []⟩).2 = true := by
  rw [hear_snd, Bool.or_eq_true, decide_eq_true_eq]
  exact .inr (hear_deadline_le true _ hcap hdeadline)

/-- A chunk ends no capture before its deadline, unless with enough speech. -/
theorem hear_eq_false {hardCap : ℕ} {e : Endpoint} {h : Heard}
    (hdeadline : h.later < (e.hear true hardCap h).1.captureDeadline)
    (hsegments : (popSegments e.capturedSpeechSamples h.segments).2 = false) :
    (e.hear true hardCap h).2 = false := by
  rw [hear_snd, if_pos rfl, hsegments, Bool.false_or, decide_eq_false_iff_not, Nat.not_le]
  exact hdeadline

theorem windowSecs_pos (cfg : Config) : 0 < fromSecs cfg.windowSecs :=
  Nat.mul_pos (Nat.lt_of_lt_of_le Nat.zero_lt_one (le_max_right cfg.captureSecs 1)) (by decide)

theorem window_lt_longest (cfg : Config) : fromSecs cfg.windowSecs < cfg.longest :=
  Nat.mul_lt_mul_of_pos_right (Nat.lt_add_of_pos_right (by decide)) (by decide)

/-- A capture that is alike has begun when the worker started: a chunk with speech, behind the window and at
the hard cap, would end it. -/
theorem start_of_alike (halike : Alike cfg start wokeAt w) (hvad : cfg.captureVad = true) (hstart : start ≤ wokeAt)
    (hw : w.keywordPending.isSome) (hdeadline : w.captureDeadline = wokeAt + fromSecs cfg.windowSecs) :
    wokeAt = start := by
  by_contra hne
  have hlongest := window_lt_longest cfg
  have hsec : 0 < fromSecs 1 := by decide
  obtain ⟨t, hwindow, hcap, hlt⟩ : ∃ t, w.captureDeadline ≤ t ∧ cfg.captureHardCap start ≤ t ∧
      t < wokeAt + cfg.longest := by
    refine ⟨max w.captureDeadline (cfg.captureHardCap start), le_max_left _ _, le_max_right _ _, ?_⟩
    rw [max_lt_iff, Config.captureHardCap]
    omega
  have hsame := hear_of_alike halike hw (h := ⟨t, t, true, []⟩) (by simp only; omega) le_rfl
  rw [hvad, hear_of_hardCap hwindow hcap] at hsame
  refine Bool.false_ne_true ((hear_eq_false ?_ rfl).symm.trans hsame.symm)
  simp only [Endpoint.hear, Heard.since]
  rw [if_pos ⟨trivial, trivial, hlongest⟩, lt_min_iff]
  omega

/-- It has begun with no speech accumulated: half a second or more that is not enough would end it. -/
theorem speech_of_alike (halike : Alike cfg start wokeAt w) (hvad : cfg.captureVad = true)
    (hw : w.keywordPending.isSome) : w.capturedSpeechSamples = 0 := by
  by_contra hne
  have hmin : minSpeechSamples = 19200 := rfl
  have hwindow := windowSecs_pos cfg
  obtain ⟨len, hlen⟩ : ∃ len, len = max 8000 (minSpeechSamples - w.capturedSpeechSamples) := ⟨_, rfl⟩
  have hsame := hear_of_alike halike hw (h := ⟨wokeAt, wokeAt, false, [len]⟩) le_rfl le_rfl
  have hends : (w.toEndpoint.hear true (cfg.captureHardCap start) ⟨wokeAt, wokeAt, false, [len]⟩).2 = true := by
    rw [hear_snd, if_pos rfl, Bool.or_eq_true, popSegments_snd]
    refine .inl ⟨[], len, [], rfl, by omega, ?_⟩
    rw [List.sum_nil]
    omega
  rw [hvad, hends] at hsame
  refine Bool.false_ne_true ((hear_eq_false ?_ ?_).symm.trans hsame.symm)
  · simp only [Endpoint.hear, Heard.since, Bool.false_eq_true, false_and, and_false, if_false]
    omega
  · rw [← Bool.not_eq_true, popSegments_snd]
    rintro ⟨front, len', back, hsplit, -, hsum⟩
    cases front with
    | nil =>
        obtain ⟨rfl, -⟩ := List.cons.inj hsplit
        simp only [List.sum_nil] at hsum
        omega
    | cons first front =>
        obtain ⟨-, hnil⟩ := List.cons.inj hsplit
        simp at hnil

/-- **Exactly the fresh captures are alike.** -/
theorem alike_iff (hstart : start ≤ wokeAt) (hw : w.keywordPending.isSome)
    (hdeadline : w.captureDeadline = wokeAt + fromSecs cfg.windowSecs) :
    Alike cfg start wokeAt w ↔ Fresh cfg start wokeAt w := by
  refine ⟨fun halike => ?_, alike_of_fresh hstart hw hdeadline⟩
  rw [Fresh, or_iff_not_imp_left, Bool.not_eq_false]
  intro hvad
  exact ⟨start_of_alike halike hvad hstart hw hdeadline, speech_of_alike halike hvad hw⟩

end Steps

/-! ### Runs -/

/-- In every run of the worker, a capture ends like any other, however it goes on, exactly where it is
fresh. -/
theorem endpointed_iff (cfg : Config) {start : ℕ} {before : List (Chunk S K)} {wake : Chunk S K}
    (hclock : Clocked start (before ++ [wake])) (hwake : Wakes cfg start before wake) :
    Alike cfg start wake.later (after (step cfg start) (Worker.init start) (before ++ [wake])) ↔
      Fresh cfg start wake.later (after (step cfg start) (Worker.init start) before) := by
  have hendpoint := endpoint_of_wakes hwake
  obtain ⟨hnow, hlater⟩ := clocked_mem hclock (List.mem_append_right _ List.mem_cons_self)
  rw [alike_iff (hnow.trans hlater) hwake.2 (congrArg Endpoint.captureDeadline hendpoint), Fresh, Fresh,
    congrArg Endpoint.capturedSpeechSamples hendpoint]

/-- A worker with a detector of speech and a window of four seconds. -/
def fourSeconds : Config := ⟨4, false, false, true, true, false⟩

/-- A chunk with a wake word. -/
def wakeChunk (t : ℕ) : Chunk ℤ String where
  now := t
  later := t
  detected := false
  segments := []
  samples := []
  hit := some "xiao mi feng"

theorem endpointed_iff_first :
    Clocked 0 ([] ++ [wakeChunk 0]) ∧ Wakes fourSeconds 0 [] (wakeChunk 0) ∧
    Alike fourSeconds 0 0 (after (step fourSeconds 0) (Worker.init 0) ([] ++ [wakeChunk 0])) :=
  have hclock : Clocked 0 ([] ++ [wakeChunk 0]) := ⟨le_rfl, le_rfl, trivial⟩
  have hwake : Wakes fourSeconds 0 [] (wakeChunk 0) := ⟨rfl, rfl⟩
  ⟨hclock, hwake, (endpointed_iff fourSeconds hclock hwake).mpr (.inr ⟨rfl, rfl⟩)⟩

/-- A chunk with speech, `k` half seconds after the start. -/
def spokenChunk (k : ℕ) : Chunk ℤ String where
  now := k * 500000000
  later := k * 500000000
  detected := true
  segments := []
  samples := []

/-- A wake word 20 seconds after the start, and speech in every half second from then on: the capture ends
after four seconds, not after ten. -/
theorem not_alike_late :
    Clocked 0 [wakeChunk (fromSecs 20)] ∧ Wakes fourSeconds 0 [] (wakeChunk (fromSecs 20)) ∧
    ¬ Alike fourSeconds 0 (fromSecs 20)
      (after (step fourSeconds 0) (Worker.init 0) [wakeChunk (fromSecs 20)]) := by
  refine ⟨⟨Nat.zero_le _, le_rfl, trivial⟩, ⟨rfl, rfl⟩, fun halike => ?_⟩
  let spoken : List (Chunk ℤ String) := [41, 42, 43, 44, 45, 46, 47].map spokenChunk
  have hclock : Clocked (fromSecs 20) (spoken ++ [spokenChunk 48]) := by decide
  have hcs : fourSeconds.Undisturbed (spoken ++ [spokenChunk 48]) := by decide
  obtain ⟨-, -, hearly⟩ := halike _ hclock hcs
  have hends := hearly spoken (spokenChunk 48) rfl (by decide) (by decide) (by decide) (by decide)
  rcases hends with htime | ⟨front, len, back, hsplit, -⟩
  · exact absurd htime (by decide)
  · have hnil : [] = front ++ len :: back := hsplit
    simp at hnil

end VoiceCapture

/-
**Arrivals before an armed device.**

`AwayEngine::observe` of `crates/web/src/away.rs` takes the detections of a camera at a moment, and
answers that there is a visitor, or some other activity, or neither.  It has four latches for each
camera.  That a person was seen is latched also where the answer is throttled, so that an arrival right
after another answer is no arrival any more when the throttle is open again.

Main definitions:

* `Away.AwayConfig`, `Away.CameraLatch`, `Away.AwayAction`, `Away.Sample`;
* `Away.summarizeLabels` — how an activity is described;
* `Away.CameraLatch.observe`, `Away.observe` — one call, for a camera and for the engine;
* `Away.NoneMissed` — no arrival of a sequence of calls is lost;
* `Away.Greeted` — the arrivals that are not throttled are answered;
* `Away.Swallowed` — an arrival that is throttled.

Main results:

* `Away.cameras_after` — **the latches of a camera are the times of its last samples and answers**;
* `Away.isVisitor_iff` — when there is a visitor;
* `Away.log_filter` — the answers for a camera depend on its own samples;
* `Away.noneMissed_iff` — no visitor is missed exactly where no arrival is throttled;
* `Away.greeted_answers` — **which arrivals are answered**.
-/

import MibeeEye.AwayEngine
import MibeeEye.FixedWidth
import MibeeEye.Tracking
import MibeeEye.Transducer

set_option relaxedAutoImplicit false
set_option autoImplicit false

namespace Away

open FixedWidth Tracking Transducer

/-! ### One call -/

/-- What `observe` reads of `AwayConfig`. -/
structure AwayConfig where
  intervalMs : ℕ := 1000
  personGapSecs : ℕ := 10
  greetingCooldownSecs : ℕ := 120
  activityCooldownSecs : ℕ := 60
  activityLabels : List String := ["cat", "dog", "bird"]

/-- `CameraLatch`. -/
structure CameraLatch where
  personSeenMs : Option ℕ := none
  personGreetedMs : Option ℕ := none
  analysisMs : Option ℕ := none
  activityMs : Option ℕ := none

/-- `AwayAction`. -/
inductive AwayAction
  | visitor (personCount : ℕ)
  | activity (labels : String)
  | none
  deriving DecidableEq

/-- The arguments of a call. -/
structure Sample where
  camera : String
  detections : List Detection
  nowMs : ℕ

/-- The persons in a sample. -/
def Sample.personCount (x : Sample) : ℕ := (x.detections.filter fun d => d.label == "person").length

/-- `summarize_labels`. -/
def summarizeLabels (detections : List Detection) (activityLabels : List String) : String :=
  let labels := (detections.map Detection.label).filter fun label => activityLabels.contains label
  "、".intercalate (labels.eraseDups.map fun label => label ++ "×" ++ toString (labels.count label))

/-- There is no such moment, or it is longer ago than so many milliseconds. -/
def past (latch : Option ℕ) (nowMs ms : ℕ) : Bool := latch.all fun t => ms < nowMs - t

/-- The last answer of a camera is not `interval_ms` old. -/
def AwayConfig.throttled (cfg : AwayConfig) (latch : Option ℕ) (nowMs : ℕ) : Bool :=
  latch.any fun t => nowMs - t < max cfg.intervalMs 1

/-- `observe`, with the latches of the camera, and the durations in milliseconds. -/
def CameraLatch.observe (latch : CameraLatch) (cfg : AwayConfig) (gapMs cooldownMs activityMs : ℕ)
    (x : Sample) : CameraLatch × AwayAction :=
  let throttled := cfg.throttled latch.analysisMs x.nowMs
  if 0 < x.personCount then
    let isArrival := past latch.personSeenMs x.nowMs gapMs
    let pastCooldown := past latch.personGreetedMs x.nowMs cooldownMs
    let latch := { latch with personSeenMs := some x.nowMs }
    if isArrival && pastCooldown && !throttled then
      ({ latch with personGreetedMs := some x.nowMs, analysisMs := some x.nowMs },
        .visitor x.personCount)
    else (latch, .none)
  else
    let summary := summarizeLabels x.detections cfg.activityLabels
    if !summary.isEmpty && past latch.activityMs x.nowMs activityMs && !throttled then
      ({ latch with activityMs := some x.nowMs, analysisMs := some x.nowMs }, .activity summary)
    else (latch, .none)

/-- The latches of all cameras. -/
abbrev Cameras : Type := String → CameraLatch

/-- `AwayEngine::observe`; without an answer where a product panics. -/
@[grind =] def observe (b : Build) (cfg : AwayConfig) (cameras : Cameras) (x : Sample) :
    Cameras × Option AwayAction :=
  match b.result 64 (cfg.personGapSecs * 1000), b.result 64 (cfg.greetingCooldownSecs * 1000),
      b.result 64 (cfg.activityCooldownSecs * 1000) with
  | some gapMs, some cooldownMs, some activityMs =>
      let r := (cameras x.camera).observe cfg gapMs cooldownMs activityMs x
      (Function.update cameras x.camera r.1, some r.2)
  | _, _, _ => (cameras, none)

/-- No camera has been observed. -/
def noCameras : Cameras := fun _ => {}

/-- The calls with their answers. -/
abbrev Log : Type := List (Sample × Option AwayAction)

/-- The calls of a sequence with their answers. -/
def answers (b : Build) (cfg : AwayConfig) (samples : List Sample) : Log :=
  log (observe b cfg) noCameras samples

/-! ### The history of a camera -/

/-- There is a visitor. -/
def AwayAction.isVisitor : AwayAction → Bool
  | .visitor _ => true
  | .activity _ | .none => false

/-- There is some other activity. -/
def AwayAction.isActivity : AwayAction → Bool
  | .activity _ => true
  | .visitor _ | .none => false

/-- A person was seen on the camera. -/
def sees (c : String) (e : Sample × Option AwayAction) : Bool :=
  decide (e.1.camera = c) && decide (0 < e.1.personCount)

/-- There was a visitor on the camera. -/
def greets (c : String) (e : Sample × Option AwayAction) : Bool :=
  decide (e.1.camera = c) && e.2.any AwayAction.isVisitor

/-- There was another activity on the camera. -/
def records (c : String) (e : Sample × Option AwayAction) : Bool :=
  decide (e.1.camera = c) && e.2.any AwayAction.isActivity

/-- There was an action for the camera. -/
def acts (c : String) (e : Sample × Option AwayAction) : Bool := greets c e || records c e

/-- The moment of the last entry of a kind. -/
def lastMs (p : Sample × Option AwayAction → Bool) (entries : Log) : Option ℕ :=
  (entries.filter p).getLast?.map fun e => e.1.nowMs

/-! ### What is claimed -/

variable (b : Build) (cfg : AwayConfig)

/-- A person is seen, for the first time or after more than the gap without one. -/
def Arrives (pre : List Sample) (x : Sample) : Prop :=
  0 < x.personCount ∧
    past (lastMs (sees x.camera) (answers b cfg pre)) x.nowMs (cfg.personGapSecs * 1000) = true

/-- The last visitor of the camera is more than the cooldown ago. -/
def Rested (pre : List Sample) (x : Sample) : Prop :=
  past (lastMs (greets x.camera) (answers b cfg pre)) x.nowMs (cfg.greetingCooldownSecs * 1000) = true

/-- The last action for the camera is at least the interval ago. -/
def Free (pre : List Sample) (x : Sample) : Prop :=
  ∀ t ∈ lastMs (acts x.camera) (answers b cfg pre), cfg.intervalMs ≤ x.nowMs - t

/-- The answer to a call after some others is that there is a visitor. -/
def IsVisitor (pre : List Sample) (x : Sample) : Prop :=
  ∃ n, (observe b cfg (after (observe b cfg) noCameras pre) x).2 = some (.visitor n)

/-- After `x`, the call `y` is the first with a person, in the same presence, that is at least the
interval after the last action. -/
structure Deferred (pre : List Sample) (x : Sample) (mid : List Sample) (y : Sample) : Prop where
  camera : y.camera = x.camera
  person : 0 < y.personCount
  present : ∀ before z behind, mid ++ [y] = before ++ z :: behind → z.camera = x.camera →
    ¬ Arrives b cfg (pre ++ x :: before) z
  first : ∀ before z behind, mid = before ++ z :: behind → z.camera = x.camera →
    0 < z.personCount → ¬ Free b cfg (pre ++ x :: before) z
  free : Free b cfg (pre ++ x :: mid) y

/-- **No visitor is missed**: an arrival after the cooldown is answered, at once or when the interval is
over; two visitors of a camera are further apart than the cooldown; and the answers for a camera depend
on its own samples. -/
structure NoneMissed (samples : List Sample) : Prop where
  answered : ∀ pre x post, samples = pre ++ x :: post → Arrives b cfg pre x → Rested b cfg pre x →
    IsVisitor b cfg pre x ∨ ∃ mid y post', post = mid ++ y :: post' ∧ Deferred b cfg pre x mid y ∧
      IsVisitor b cfg (pre ++ x :: mid) y
  spaced : ∀ pre x mid y post, samples = pre ++ x :: (mid ++ y :: post) → y.camera = x.camera →
    IsVisitor b cfg pre x → IsVisitor b cfg (pre ++ x :: mid) y →
      cfg.greetingCooldownSecs * 1000 < y.nowMs - x.nowMs
  own : ∀ c, (answers b cfg samples).filter (fun e => e.1.camera = c) =
    answers b cfg (samples.filter fun x => x.camera = c)

/-- The last action for the camera is at least the interval ago, and a millisecond. -/
def Open (pre : List Sample) (x : Sample) : Prop :=
  ∀ t ∈ lastMs (acts x.camera) (answers b cfg pre), max cfg.intervalMs 1 ≤ x.nowMs - t

/-- **The arrivals that are not throttled are answered**: there is a visitor at exactly those that come
after the cooldown and not within the interval after another action; two visitors of a camera are
further apart than the cooldown; and the answers for a camera depend on its own samples. -/
structure Greeted (samples : List Sample) : Prop where
  greeted : ∀ pre x post, samples = pre ++ x :: post →
    (IsVisitor b cfg pre x ↔ (Arrives b cfg pre x ∧ Rested b cfg pre x) ∧ Open b cfg pre x)
  spaced : ∀ pre x mid y post, samples = pre ++ x :: (mid ++ y :: post) → y.camera = x.camera →
    IsVisitor b cfg pre x → IsVisitor b cfg (pre ++ x :: mid) y →
      cfg.greetingCooldownSecs * 1000 < y.nowMs - x.nowMs
  own : ∀ c, (answers b cfg samples).filter (fun e => e.1.camera = c) =
    answers b cfg (samples.filter fun x => x.camera = c)

/-- The durations have 64 bits in milliseconds. -/
def AwayConfig.Fits (cfg : AwayConfig) : Prop :=
  cfg.personGapSecs * 1000 < 2 ^ 64 ∧ cfg.greetingCooldownSecs * 1000 < 2 ^ 64 ∧
    cfg.activityCooldownSecs * 1000 < 2 ^ 64

/-- **An arrival that is throttled**, as the latches of its camera have it. -/
def Swallowed (latch : CameraLatch) (x : Sample) : Prop :=
  0 < x.personCount ∧ past latch.personSeenMs x.nowMs (cfg.personGapSecs * 1000) = true ∧
    past latch.personGreetedMs x.nowMs (cfg.greetingCooldownSecs * 1000) = true ∧
    cfg.throttled latch.analysisMs x.nowMs = true

variable {b cfg} {latch : CameraLatch} {x y : Sample} {pre samples : List Sample} {c : String}

/-! ### The latches are the history -/

theorem lastMs_concat (p : Sample × Option AwayAction → Bool) (l : Log) (e : Sample × Option AwayAction) :
    lastMs p (l ++ [e]) = if p e then some e.1.nowMs else lastMs p l := by
  cases h : p e <;> simp [lastMs, h]

/-- What a call leaves in the latches, by its answer. -/
theorem CameraLatch.observe_fst (latch : CameraLatch) (cfg : AwayConfig) (g d a : ℕ) (x : Sample) :
    (latch.observe cfg g d a x).1 =
      let action := (latch.observe cfg g d a x).2
      { personSeenMs := if 0 < x.personCount then some x.nowMs else latch.personSeenMs
        personGreetedMs := if action.isVisitor then some x.nowMs else latch.personGreetedMs
        analysisMs := if action.isVisitor || action.isActivity then some x.nowMs else latch.analysisMs
        activityMs := if action.isActivity then some x.nowMs else latch.activityMs } := by
  unfold CameraLatch.observe
  split
  · dsimp only
    split <;> rfl
  · dsimp only
    split <;> rfl

/-- When a call is answered with a visitor. -/
theorem CameraLatch.observe_snd_iff {g d a n : ℕ} :
    (latch.observe cfg g d a x).2 = .visitor n ↔
      (0 < x.personCount ∧ past latch.personSeenMs x.nowMs g = true ∧
        past latch.personGreetedMs x.nowMs d = true ∧ cfg.throttled latch.analysisMs x.nowMs = false) ∧
      x.personCount = n := by
  unfold CameraLatch.observe
  split
  · next hpos =>
      dsimp only
      split
      · next hvisitor =>
          simp only [Bool.and_eq_true, Bool.not_eq_true'] at hvisitor
          simp [hpos, hvisitor]
      · next hvisitor =>
          simp only [Bool.and_eq_true, Bool.not_eq_true', not_and] at hvisitor
          simp only [reduceCtorEq, false_iff, not_and]
          exact fun h => absurd h.2.2.2 (hvisitor ⟨h.2.1, h.2.2.1⟩)
  · next hpos =>
      dsimp only
      split <;> simp [hpos]

theorem AwayConfig.Fits.observe_eq (hfits : cfg.Fits) (cameras : Cameras) (x : Sample) :
    observe b cfg cameras x =
      (Function.update cameras x.camera ((cameras x.camera).observe cfg (cfg.personGapSecs * 1000)
        (cfg.greetingCooldownSecs * 1000) (cfg.activityCooldownSecs * 1000) x).1,
      some ((cameras x.camera).observe cfg (cfg.personGapSecs * 1000)
        (cfg.greetingCooldownSecs * 1000) (cfg.activityCooldownSecs * 1000) x).2) := by
  simp only [observe, Build.result_eq hfits.1, Build.result_eq hfits.2.1, Build.result_eq hfits.2.2]

/-- The latches that a history makes. -/
def latchOf (c : String) (l : Log) : CameraLatch where
  personSeenMs := lastMs (sees c) l
  personGreetedMs := lastMs (greets c) l
  analysisMs := lastMs (acts c) l
  activityMs := lastMs (records c) l

/-- **The latches of a camera are the times of its last samples and answers.** -/
theorem cameras_after (hfits : cfg.Fits) (pre : List Sample) (c : String) :
    after (observe b cfg) noCameras pre c = latchOf c (answers b cfg pre) := by
  induction pre using List.reverseRecOn with
  | nil => rfl
  | append_singleton pre x ih =>
      rw [answers, log_concat, after_concat, ← answers, hfits.observe_eq]
      dsimp only
      by_cases hc : x.camera = c
      · subst hc
        rw [Function.update_self, CameraLatch.observe_fst, ih]
        dsimp only
        generalize (CameraLatch.observe _ cfg _ _ _ x).2 = action
        cases action <;> simp [latchOf, lastMs_concat, sees, greets, records, acts,
          AwayAction.isVisitor, AwayAction.isActivity]
      · rw [Function.update_of_ne (Ne.symm hc), ih]
        simp [latchOf, lastMs_concat, sees, greets, records, acts, hc]

/-- **When there is a visitor.** -/
theorem isVisitor_iff (hfits : cfg.Fits) :
    IsVisitor b cfg pre x ↔ (Arrives b cfg pre x ∧ Rested b cfg pre x) ∧
      cfg.throttled (lastMs (acts x.camera) (answers b cfg pre)) x.nowMs = false := by
  simp only [IsVisitor, hfits.observe_eq, cameras_after hfits, Option.some.injEq,
    CameraLatch.observe_snd_iff, exists_and_left, exists_eq', and_true]
  exact ⟨fun ⟨hpos, hgap, hrest, hfree⟩ => ⟨⟨⟨hpos, hgap⟩, hrest⟩, hfree⟩,
    fun ⟨⟨⟨hpos, hgap⟩, hrest⟩, hfree⟩ => ⟨hpos, hgap, hrest, hfree⟩⟩

theorem swallowed_iff (hfits : cfg.Fits) :
    Swallowed cfg (after (observe b cfg) noCameras pre x.camera) x ↔
      (Arrives b cfg pre x ∧ Rested b cfg pre x) ∧
        cfg.throttled (lastMs (acts x.camera) (answers b cfg pre)) x.nowMs = true := by
  rw [cameras_after hfits]
  exact ⟨fun ⟨hpos, hgap, hrest, hfree⟩ => ⟨⟨⟨hpos, hgap⟩, hrest⟩, hfree⟩,
    fun ⟨⟨⟨hpos, hgap⟩, hrest⟩, hfree⟩ => ⟨hpos, hgap, hrest, hfree⟩⟩

/-! ### The samples of a camera -/

/-- What an answer depends on. -/
theorem observe_congr {cameras cameras' : Cameras} (h : cameras x.camera = cameras' x.camera) :
    (observe b cfg cameras x).2 = (observe b cfg cameras' x).2 ∧
      (observe b cfg cameras x).1 x.camera = (observe b cfg cameras' x).1 x.camera := by
  unfold observe
  split
  · simp only [h, Function.update_self, and_self]
  · exact ⟨rfl, h⟩

theorem observe_of_ne (cameras : Cameras) (h : x.camera ≠ c) :
    (observe b cfg cameras x).1 c = cameras c := by
  unfold observe
  split
  · exact Function.update_of_ne (Ne.symm h) _ _
  · rfl

/-- **The answers for a camera depend on its own samples.** -/
theorem log_filter (samples : List Sample) (c : String) :
    (answers b cfg samples).filter (fun e => e.1.camera = c) =
        answers b cfg (samples.filter fun x => x.camera = c) ∧
      after (observe b cfg) noCameras samples c =
        after (observe b cfg) noCameras (samples.filter fun x => x.camera = c) c := by
  induction samples using List.reverseRecOn with
  | nil => exact ⟨rfl, rfl⟩
  | append_singleton samples x ih =>
      rw [answers, log_concat, ← answers, List.filter_append, List.filter_append, ih.1, after_concat]
      by_cases hc : x.camera = c
      · subst hc
        obtain ⟨hanswer, hlatch⟩ := observe_congr (b := b) ih.2
        simp only [List.filter_cons, List.filter_nil, decide_true, if_true]
        rw [answers, answers, log_concat, after_concat, hanswer]
        exact ⟨rfl, hlatch⟩
      · simp only [List.filter_cons, List.filter_nil, hc, decide_false, Bool.false_eq_true, if_false,
          List.append_nil]
        exact ⟨trivial, (observe_of_ne _ hc).trans ih.2⟩

/-! ### Visitors -/

/-- An entry of a history is not later than the last one of its kind. -/
theorem exists_lastMs {p : Sample × Option AwayAction → Bool} {l : Log}
    (hmono : (l.map fun e => e.1.nowMs).Pairwise (· ≤ ·)) {e : Sample × Option AwayAction} (he : e ∈ l)
    (hp : p e = true) : ∃ t ∈ lastMs p l, e.1.nowMs ≤ t := by
  induction l using List.reverseRecOn with
  | nil => cases he
  | append_singleton l a ih =>
      rw [List.map_append, List.pairwise_append] at hmono
      rw [lastMs_concat]
      by_cases ha : p a = true
      · rw [if_pos ha]
        refine ⟨_, rfl, ?_⟩
        rcases List.mem_append.1 he with he | he
        · exact hmono.2.2 _ (List.mem_map_of_mem he) _ (List.mem_singleton.2 rfl)
        · cases List.mem_singleton.1 he
          exact Nat.le_refl _
      · rw [if_neg ha]
        rcases List.mem_append.1 he with he | he
        · exact ih hmono.1 he
        · cases List.mem_singleton.1 he
          exact absurd hp ha

theorem map_nowMs_answers (b : Build) (cfg : AwayConfig) (samples : List Sample) :
    (answers b cfg samples).map (fun e => e.1.nowMs) = samples.map Sample.nowMs := by
  have hsamples := @map_fst_log _ _ _ (observe b cfg) noCameras samples
  rw [← congrArg (List.map Sample.nowMs) hsamples, List.map_map]
  rfl

/-- A visitor is in the history of its camera. -/
theorem greets_of_isVisitor (h : IsVisitor b cfg pre x) (mid : List Sample) :
    ∃ e ∈ answers b cfg (pre ++ x :: mid), e.1 = x ∧ greets x.camera e = true := by
  obtain ⟨n, hn⟩ := h
  refine ⟨(x, some (.visitor n)), ?_, rfl, ?_⟩
  · rw [answers, log_append]
    refine List.mem_append_right _ ?_
    rw [log, hn]
    exact List.mem_cons_self ..
  · simp [greets, AwayAction.isVisitor]

/-- **Two visitors of a camera are further apart than the cooldown.** -/
theorem apart_of_isVisitor (hfits : cfg.Fits) {mid : List Sample}
    (hmono : (samples.map Sample.nowMs).Pairwise (· ≤ ·)) {post : List Sample}
    (heq : samples = pre ++ x :: (mid ++ y :: post)) (hcamera : y.camera = x.camera) (hx : IsVisitor b cfg pre x)
    (hy : IsVisitor b cfg (pre ++ x :: mid) y) :
    cfg.greetingCooldownSecs * 1000 < y.nowMs - x.nowMs := by
  obtain ⟨e, he, rfl, hgreets⟩ := greets_of_isVisitor hx mid
  have hsorted : ((answers b cfg (pre ++ e.1 :: mid)).map fun e => e.1.nowMs).Pairwise (· ≤ ·) := by
    have hpre : pre ++ e.1 :: mid <+: samples := ⟨y :: post, by rw [heq, List.append_assoc]; rfl⟩
    rw [map_nowMs_answers]
    exact hmono.sublist (hpre.sublist.map _)
  obtain ⟨t, ht, hle⟩ := exists_lastMs hsorted he (hcamera ▸ hgreets)
  have hrested := ((isVisitor_iff hfits).1 hy).1.2
  rw [Rested, ht] at hrested
  have hlt : cfg.greetingCooldownSecs * 1000 < y.nowMs - t := of_decide_eq_true hrested
  exact hlt.trans_le (Nat.sub_le_sub_left hle _)

theorem throttled_eq_false_iff {latch : Option ℕ} {nowMs : ℕ} :
    cfg.throttled latch nowMs = false ↔ ∀ t ∈ latch, max cfg.intervalMs 1 ≤ nowMs - t := by
  cases latch with
  | none => simp [AwayConfig.throttled]
  | some t => simp only [AwayConfig.throttled, Option.any_some, decide_eq_false_iff_not, not_lt,
      Option.mem_some_iff, forall_eq']

/-- **Which arrivals are answered.** -/
theorem greeted_answers (b : Build) {cfg : AwayConfig} {samples : List Sample} (hfits : cfg.Fits)
    (hmono : (samples.map Sample.nowMs).Pairwise (· ≤ ·)) : Greeted b cfg samples where
  greeted := by
    intro pre x post _
    rw [isVisitor_iff hfits, throttled_eq_false_iff, Open]
  spaced := by
    intro pre x mid y post heq hcamera hx hy
    exact apart_of_isVisitor hfits hmono heq hcamera hx hy
  own := fun c => (log_filter samples c).1

/-- A sample of the first camera with one object. -/
def Sample.single (label : String) (nowMs : ℕ) : Sample := ⟨"0", [⟨label, 1, ⟨0, 0, 10, 10⟩⟩], nowMs⟩

/-- A cat is seen, and half a second later a person. -/
def catThenPerson : List Sample := [.single "cat" 1000, .single "person" 1500]

theorem greeted_catThenPerson : Greeted .checked {} catThenPerson :=
  greeted_answers .checked ⟨by decide, by decide, by decide⟩ (by decide)

/-- **No visitor is missed exactly where no arrival is throttled.** -/
theorem noneMissed_iff (b : Build) {cfg : AwayConfig} {samples : List Sample} (hfits : cfg.Fits)
    (hmono : (samples.map Sample.nowMs).Pairwise (· ≤ ·)) :
    NoneMissed b cfg samples ↔ ∀ pre x post, samples = pre ++ x :: post →
      ¬ Swallowed cfg (after (observe b cfg) noCameras pre x.camera) x := by
  constructor
  · intro h pre x post heq hswallowed
    obtain ⟨⟨harrives, hrested⟩, hthrottled⟩ := (swallowed_iff hfits).1 hswallowed
    rcases h.answered pre x post heq harrives hrested with hx | ⟨mid, y, post', -, hy, hvisitor⟩
    · rw [((isVisitor_iff hfits).1 hx).2] at hthrottled
      cases hthrottled
    · -- a later call in the same presence finds no arrival
      exact hy.present mid y [] rfl hy.camera ((isVisitor_iff hfits).1 hvisitor).1.1
  · intro h
    refine ⟨fun pre x post heq harrives hrested => .inl ?_, fun pre x mid y post heq hcamera hx hy => ?_,
      fun c => (log_filter samples c).1⟩
    · refine (isVisitor_iff hfits).2 ⟨⟨harrives, hrested⟩, ?_⟩
      rw [← Bool.not_eq_true]
      exact fun hthrottled => h pre x post heq
        ((swallowed_iff hfits).2 ⟨⟨harrives, hrested⟩, hthrottled⟩)
    · exact apart_of_isVisitor hfits hmono heq hcamera hx hy

/-- **A visitor is missed**: the person comes within the interval after the activity. -/
theorem not_noneMissed_catThenPerson : ¬ NoneMissed .checked {} catThenPerson := by
  intro h
  rcases h.answered [.single "cat" 1000] (.single "person" 1500) [] rfl ⟨by decide, rfl⟩ rfl with
    ⟨n, hn⟩ | ⟨mid, y, post, hnil, -⟩
  · have hnone : (observe .checked {} (after (observe .checked {}) noCameras [.single "cat" 1000])
        (.single "person" 1500)).2 = some .none := by decide
    rw [hnone] at hn
    cases hn
  · simp at hnil

end Away

/-
**The sound events.**

`SoundEventState` of `crates/streaming/src/audio_ai/state.rs` watches some classes of sounds.  Each class
has a window of its last three scores.  When their mean reaches the threshold the class becomes active,
with an event unless one was fired less than the cooldown ago; it stays active until the mean has fallen
to half the threshold.

Scores are exact rationals, and instants are natural numbers.

Main definitions:

* `AudioAi.ClassWatcher`, `AudioAi.ClassWatcher.update` — the watcher of one class;
* `AudioAi.SoundEventState`, `AudioAi.SoundEventState.update` — all of them;
* `AudioAi.votedMean` — the mean of the last three scores, by the updates.

Main results:

* `AudioAi.ClassWatcher.vote_cases` — **what a vote can do**;
* `AudioAi.lastPatches_concat` — the window holds the last scores.
-/

import MibeeEye.Transducer
import Mathlib.Algebra.Order.Ring.Rat
import Mathlib.Data.List.Nodup
import Mathlib.Data.Rat.Cast.Order

set_option relaxedAutoImplicit false
set_option autoImplicit false

namespace AudioAi

/-! ### The state machine -/

/-- `VOTE_PATCHES` -/
def votePatches : ℕ := 3

/-- `WatchedClass` -/
structure WatchedClass where
  name : String
  labelZh : String
  index : ℕ
  deriving DecidableEq, Repr

/-- `SoundEvent` -/
structure SoundEvent where
  className : String
  labelZh : String
  score : ℚ
  timestampMs : ℕ
  deriving DecidableEq, Repr

/-- The arguments of an update. -/
structure Update where
  scores : List ℚ
  now : ℕ
  timestampMs : ℕ
  deriving DecidableEq, Repr

/-- `ClassWatcher` -/
structure ClassWatcher where
  spec : WatchedClass
  window : List ℚ := []
  active : Bool := false
  lastFire : Option ℕ := none
  deriving DecidableEq, Repr

/-- The score of a class. -/
def Update.scoreOf (u : Update) (index : ℕ) : ℚ := u.scores.getD index 0

/-- The last `VOTE_PATCHES` of some scores. -/
def lastPatches (l : List ℚ) : List ℚ := l.drop (l.length - votePatches)

/-- The score of an update is pushed, and the oldest scores are popped. -/
def ClassWatcher.push (w : ClassWatcher) (u : Update) : ClassWatcher :=
  { w with window := lastPatches (w.window ++ [u.scoreOf w.spec.index]) }

/-- The mean of the window. -/
def ClassWatcher.mean (w : ClassWatcher) : ℚ := w.window.sum / w.window.length

/-- What the window decides, with the event that is pushed. -/
def ClassWatcher.vote (enterThreshold : ℚ) (cooldown : ℕ) (w : ClassWatcher) (u : Update) :
    ClassWatcher × Option SoundEvent :=
  if w.window.length < votePatches then (w, none)
  else if w.active then
    if w.mean ≤ 1 / 2 * enterThreshold then ({ w with active := false }, none) else (w, none)
  else if enterThreshold ≤ w.mean then
    if w.lastFire.all fun t => decide (cooldown ≤ u.now - t) then
      ({ w with active := true, lastFire := some u.now },
        some ⟨w.spec.name, w.spec.labelZh, w.mean, u.timestampMs⟩)
    else ({ w with active := true }, none)
  else (w, none)

/-- The body of the loop of `SoundEventState::update`. -/
def ClassWatcher.update (enterThreshold : ℚ) (cooldown : ℕ) (w : ClassWatcher) (u : Update) :
    ClassWatcher × Option SoundEvent :=
  (w.push u).vote enterThreshold cooldown u

/-- `SoundEventState` -/
structure SoundEventState where
  watched : List ClassWatcher
  enterThreshold : ℚ
  cooldown : ℕ
  deriving DecidableEq, Repr

/-- `threshold.clamp(0.01, 1.0)`. -/
def clampThreshold (threshold : ℚ) : ℚ := max (1 / 100) (min threshold 1)

/-- `SoundEventState::new` -/
def SoundEventState.new (watched : List WatchedClass) (threshold : ℚ) (cooldown : ℕ) :
    SoundEventState where
  watched := watched.map fun spec => { spec := spec }
  enterThreshold := clampThreshold threshold
  cooldown := cooldown

/-- `SoundEventState::update` -/
def SoundEventState.update (s : SoundEventState) (u : Update) : SoundEventState × List SoundEvent :=
  let r := Transducer.bank (ClassWatcher.update s.enterThreshold s.cooldown) s.watched u
  ({ s with watched := r.1 }, r.2.filterMap id)

/-- The events of an update. -/
def eventsAt (s : SoundEventState) (us : List Update) (k : ℕ) : List SoundEvent :=
  (Transducer.outputAt SoundEventState.update s us k).getD []

/-- The scores that are voted on at an update. -/
def votedScores (index : ℕ) (us : List Update) (k : ℕ) : List ℚ :=
  lastPatches ((us.take (k + 1)).map (Update.scoreOf · index))

/-- The mean of the last `VOTE_PATCHES` scores of a class at an update. -/
def votedMean (index : ℕ) (us : List Update) (k : ℕ) : ℚ := (votedScores index us k).sum / votePatches

/-! ### The watcher of one class -/

/-- **What a vote can do**: it fires an event, when the window is full, the watcher is not active, the mean
reaches the threshold and the last event is as old as the cooldown; or it fires none, and the watcher is
not active only if it was not before, or the mean has fallen. -/
theorem ClassWatcher.vote_cases (enterThreshold : ℚ) (cooldown : ℕ) (w : ClassWatcher) (u : Update) :
    (w.vote enterThreshold cooldown u = ({ w with active := true, lastFire := some u.now },
        some ⟨w.spec.name, w.spec.labelZh, w.mean, u.timestampMs⟩) ∧
      votePatches ≤ w.window.length ∧ w.active = false ∧ enterThreshold ≤ w.mean ∧
      ∀ t ∈ w.lastFire, cooldown ≤ u.now - t) ∨
    ∃ active, w.vote enterThreshold cooldown u = ({ w with active := active }, none) ∧
      (active = false → w.active = false ∨
        votePatches ≤ w.window.length ∧ w.mean ≤ 1 / 2 * enterThreshold) := by
  rw [vote]
  by_cases hwarm : w.window.length < votePatches
  · rw [if_pos hwarm]
    exact Or.inr ⟨w.active, rfl, Or.inl⟩
  · have hfull : votePatches ≤ w.window.length := Nat.le_of_not_lt hwarm
    rw [if_neg hwarm]
    cases hactive : w.active with
    | true =>
        rw [if_pos rfl]
        split
        · rename_i hlow
          exact Or.inr ⟨false, rfl, fun _ => Or.inr ⟨hfull, hlow⟩⟩
        · exact Or.inr ⟨true, by rw [← hactive], fun h => absurd h (by decide)⟩
    | false =>
        rw [if_neg Bool.false_ne_true]
        split
        · rename_i hloud
          split
          · rename_i hcool
            refine Or.inl ⟨rfl, hfull, rfl, hloud, ?_⟩
            intro t ht
            rw [Option.mem_def.1 ht] at hcool
            exact of_decide_eq_true hcool
          · exact Or.inr ⟨true, rfl, fun h => absurd h (by decide)⟩
        · exact Or.inr ⟨false, by rw [← hactive], fun _ => Or.inl rfl⟩

/-! ### The window -/

theorem length_lastPatches_le (l : List ℚ) : (lastPatches l).length ≤ votePatches := by
  rw [lastPatches, List.length_drop]
  omega

/-- A score more, and one less. -/
theorem lastPatches_concat (l : List ℚ) (x : ℚ) :
    lastPatches (lastPatches l ++ [x]) = lastPatches (l ++ [x]) := by
  rcases Nat.le_total l.length votePatches with hshort | hlong
  · have hall : lastPatches l = l := by rw [lastPatches, Nat.sub_eq_zero_of_le hshort, List.drop_zero]
    rw [hall]
  · have hlast : (lastPatches l).length = votePatches := by
      rw [lastPatches, List.length_drop]
      omega
    have hone : (lastPatches l ++ [x]).length - votePatches = 1 := by
      rw [List.length_append, hlast, List.length_singleton, Nat.add_sub_cancel_left]
    have hnext : (l ++ [x]).length - votePatches = l.length - votePatches + 1 := by
      rw [List.length_append, List.length_singleton]
      omega
    rw [lastPatches, hone, lastPatches, lastPatches, hnext, ← List.drop_drop,
      List.drop_append_of_le_length (Nat.sub_le _ _)]

end AudioAi

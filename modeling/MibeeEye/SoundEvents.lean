/-
**The events of a class of sounds.**

The watchers run side by side, each on the scores of its own class.  Of one watcher, a run keeps that it
is not active only if the mean has fallen since its last event, and that this event is the last one.  For
a list that names a class twice there are two watchers of it, and two events.

Main definitions:

* `AudioAi.classEvents` — the events of a class;
* `AudioAi.WellPaced` — what is to hold of them.

Main results:

* `AudioAi.Paced.fire`, `AudioAi.Paced.quiet` — the invariant of one watcher is kept by every update;
* `AudioAi.paced_after` — **and holds after every run**;
* `AudioAi.classEvents_eq` — the events of a class are those of its watcher;
* `AudioAi.wellPaced` — the events of a class keep votes, hysteresis and cooldown.
-/

import MibeeEye.SoundEventState

set_option relaxedAutoImplicit false
set_option autoImplicit false

namespace AudioAi

open Transducer

/-! ### What is to hold -/

/-- The events of a class. -/
def classEvents (s : SoundEventState) (us : List Update) (k : ℕ) (name : String) : List SoundEvent :=
  (eventsAt s us k).filter fun e => e.className = name

/-- What a class is told by an update. -/
def Update.own (u : Update) (index : ℕ) : ℚ × ℕ × ℕ := (u.scoreOf index, u.now, u.timestampMs)

/-- What is to hold of the events of a run, with a threshold for the mean: of two events of a class, the
second is an update with the cooldown after the first, and with one between them that has a mean of at
most half the threshold; an event has three scores with a mean of at least the threshold; and the events
of a class are the same when its own scores are. -/
structure WellPaced (watched : List WatchedClass) (threshold : ℚ) (cooldown : ℕ) (level : ℚ)
    (us : List Update) : Prop where
  single : ∀ spec ∈ watched, ∀ k,
    (classEvents (.new watched threshold cooldown) us k spec.name).length ≤ 1
  apart : ∀ spec ∈ watched, ∀ i j u v, us[i]? = some u → us[j]? = some v → i < j →
    classEvents (.new watched threshold cooldown) us i spec.name ≠ [] →
    classEvents (.new watched threshold cooldown) us j spec.name ≠ [] →
    u.now + cooldown ≤ v.now ∧ ∃ k, i < k ∧ k < j ∧ votedMean spec.index us k ≤ 1 / 2 * level
  loud : ∀ spec ∈ watched, ∀ k, ∀ e ∈ classEvents (.new watched threshold cooldown) us k spec.name,
    votePatches ≤ k + 1 ∧ level ≤ votedMean spec.index us k
  own : ∀ spec ∈ watched, ∀ us' : List Update,
    us.map (Update.own · spec.index) = us'.map (Update.own · spec.index) →
    ∀ k, classEvents (.new watched threshold cooldown) us k spec.name =
      classEvents (.new watched threshold cooldown) us' k spec.name

/-! ### One watcher -/

variable {enterThreshold threshold : ℚ} {cooldown : ℕ} {spec : WatchedClass} {us : List Update}
  {u : Update} {k : ℕ}

/-- The watcher of a class after some updates. -/
def watcherAfter (enterThreshold : ℚ) (cooldown : ℕ) (spec : WatchedClass) (us : List Update) :
    ClassWatcher :=
  after (ClassWatcher.update enterThreshold cooldown) { spec := spec } us

/-- The event of a class at an update. -/
def firedAt (enterThreshold : ℚ) (cooldown : ℕ) (spec : WatchedClass) (us : List Update) (k : ℕ) :
    Option SoundEvent :=
  (outputAt (ClassWatcher.update enterThreshold cooldown) { spec := spec } us k).join

theorem spec_update (w : ClassWatcher) :
    (w.update enterThreshold cooldown u).1.spec = w.spec ∧
      (w.update enterThreshold cooldown u).1.window = (w.push u).window := by
  rw [ClassWatcher.update]
  rcases (w.push u).vote_cases enterThreshold cooldown u with ⟨hvote, -⟩ | ⟨active, hvote, -⟩
  · rw [hvote]
    exact ⟨rfl, rfl⟩
  · rw [hvote]
    exact ⟨rfl, rfl⟩

/-- **The window has the last scores.** -/
theorem window_after (us : List Update) :
    (watcherAfter enterThreshold cooldown spec us).spec = spec ∧
      (watcherAfter enterThreshold cooldown spec us).window =
        lastPatches (us.map (Update.scoreOf · spec.index)) := by
  refine after_induction (I := fun (us : List Update) (w : ClassWatcher) => w.spec = spec ∧
    w.window = lastPatches (us.map (Update.scoreOf · spec.index))) ⟨rfl, rfl⟩ ?_ us
  rintro us u ⟨hspec, hwindow⟩
  obtain ⟨hspec', hwindow'⟩ := @spec_update enterThreshold cooldown u
    (after (ClassWatcher.update enterThreshold cooldown) { spec := spec } us)
  refine ⟨hspec'.trans hspec, hwindow'.trans ?_⟩
  rw [ClassWatcher.push, hwindow, hspec, List.map_append, List.map_singleton]
  exact lastPatches_concat _ _

/-- The scores that are voted on at the next update. -/
theorem push_after (us : List Update) (u : Update) :
    ((watcherAfter enterThreshold cooldown spec us).push u).window =
      votedScores spec.index (us ++ [u]) us.length := by
  obtain ⟨hspec, hwindow⟩ := @window_after enterThreshold cooldown spec us
  rw [ClassWatcher.push, hwindow, hspec, lastPatches_concat, votedScores,
    List.take_of_length_le (by simp), List.map_append, List.map_singleton]

/-- And their mean, when the window is full. -/
theorem mean_push_after (us : List Update) (u : Update)
    (hfull : votePatches ≤ ((watcherAfter enterThreshold cooldown spec us).push u).window.length) :
    ((watcherAfter enterThreshold cooldown spec us).push u).mean =
      votedMean spec.index (us ++ [u]) us.length := by
  rw [push_after] at hfull
  have hlength : (votedScores spec.index (us ++ [u]) us.length).length = votePatches :=
    le_antisymm (length_lastPatches_le _) hfull
  rw [ClassWatcher.mean, push_after, hlength, votedMean]

theorem firedAt_append (h : k < us.length) (us' : List Update) :
    firedAt enterThreshold cooldown spec (us ++ us') k = firedAt enterThreshold cooldown spec us k := by
  rw [firedAt, firedAt, outputAt_append h]

theorem firedAt_last (us : List Update) (u : Update) :
    firedAt enterThreshold cooldown spec (us ++ [u]) us.length =
      ((watcherAfter enterThreshold cooldown spec us).update enterThreshold cooldown u).2 := by
  rw [firedAt, outputAt_last]
  rfl

theorem votedMean_append (index : ℕ) (h : k < us.length) (us' : List Update) :
    votedMean index (us ++ us') k = votedMean index us k := by
  rw [votedMean, votedScores, List.take_append_of_le_length h, ← votedScores, ← votedMean]

theorem lt_of_firedAt (h : firedAt enterThreshold cooldown spec us k ≠ none) : k < us.length := by
  by_contra hlong
  rw [firedAt, outputAt, List.getElem?_eq_none (Nat.le_of_not_lt hlong)] at h
  exact h rfl

/-- **What the vote of an update decides**: an event at a full window whose mean reaches the threshold,
by a watcher that was not active and has cooled down; or none, and the watcher is not active only if it
was not before or the mean has fallen. -/
theorem step_cases (enterThreshold : ℚ) (cooldown : ℕ) (spec : WatchedClass) (us : List Update)
    (u : Update) :
    let w := watcherAfter enterThreshold cooldown spec us
    let w' := watcherAfter enterThreshold cooldown spec (us ++ [u])
    (firedAt enterThreshold cooldown spec (us ++ [u]) us.length = some ⟨spec.name, spec.labelZh,
          votedMean spec.index (us ++ [u]) us.length, u.timestampMs⟩ ∧
        votePatches ≤ us.length + 1 ∧ enterThreshold ≤ votedMean spec.index (us ++ [u]) us.length ∧
        w.active = false ∧ (∀ t ∈ w.lastFire, cooldown ≤ u.now - t) ∧
        w'.active = true ∧ w'.lastFire = some u.now) ∨
      (firedAt enterThreshold cooldown spec (us ++ [u]) us.length = none ∧ w'.lastFire = w.lastFire ∧
        (w'.active = false → w.active = false ∨
          votedMean spec.index (us ++ [u]) us.length ≤ 1 / 2 * enterThreshold)) := by
  intro w w'
  have hspec : (w.push u).spec = spec := (window_after us).1
  have hw' : w' = (w.update enterThreshold cooldown u).1 := after_concat
  have hfired : firedAt enterThreshold cooldown spec (us ++ [u]) us.length =
      (w.update enterThreshold cooldown u).2 := firedAt_last us u
  rw [hfired, hw', ClassWatcher.update]
  rcases (w.push u).vote_cases enterThreshold cooldown u with
    ⟨hvote, hfull, hactive, hloud, hcool⟩ | ⟨active, hvote, hfall⟩
  · have hmean := mean_push_after us u hfull
    refine Or.inl ⟨?_, ?_, ?_, hactive, hcool, ?_, ?_⟩
    · rw [hvote, hspec, hmean]
    · have hlength : (w.push u).window.length = (votedScores spec.index (us ++ [u]) us.length).length :=
        congrArg List.length (push_after us u)
      rw [votedScores, lastPatches, List.length_drop, List.length_map, List.length_take,
        List.length_append, List.length_singleton] at hlength
      omega
    · rwa [← hmean]
    · rw [hvote]
    · rw [hvote]
  · refine Or.inr ⟨by rw [hvote], by rw [hvote]; rfl, ?_⟩
    rw [hvote]
    intro hinactive
    rcases hfall hinactive with hbefore | ⟨hfull, hlow⟩
    · exact Or.inl hbefore
    · rw [mean_push_after us u hfull] at hlow
      exact Or.inr hlow

/-- Between two updates the mean has fallen. -/
def Fell (enterThreshold : ℚ) (index : ℕ) (us : List Update) (i j : ℕ) : Prop :=
  ∃ k, i < k ∧ k < j ∧ votedMean index us k ≤ 1 / 2 * enterThreshold

/-- What a run keeps of one watcher. -/
structure Paced (enterThreshold : ℚ) (cooldown : ℕ) (spec : WatchedClass) (us : List Update)
    (w : ClassWatcher) : Prop where
  /-- The mean has fallen since the last event. -/
  armed : w.active = false → ∀ i, firedAt enterThreshold cooldown spec us i ≠ none →
    Fell enterThreshold spec.index us i us.length
  /-- No event is later than the last one. -/
  last : ∀ i u, us[i]? = some u → firedAt enterThreshold cooldown spec us i ≠ none →
    ∃ t, w.lastFire = some t ∧ u.now ≤ t
  apart : ∀ i j u v, us[i]? = some u → us[j]? = some v → i < j →
    firedAt enterThreshold cooldown spec us i ≠ none →
    firedAt enterThreshold cooldown spec us j ≠ none →
    u.now + cooldown ≤ v.now ∧ Fell enterThreshold spec.index us i j

variable {w w' : ClassWatcher} {i j : ℕ} {v : Update}

theorem Fell.append (h : Fell enterThreshold spec.index us i j) (hj : j ≤ us.length) (us' : List Update) :
    Fell enterThreshold spec.index (us ++ us') i j := by
  obtain ⟨k, hik, hkj, hlow⟩ := h
  exact ⟨k, hik, hkj, by rwa [votedMean_append _ (hkj.trans_le hj)]⟩

/-- An event of an earlier update. -/
theorem fired_before (hi : i < us.length)
    (h : firedAt enterThreshold cooldown spec (us ++ [u]) i ≠ none) :
    firedAt enterThreshold cooldown spec us i ≠ none := by
  rwa [firedAt_append hi] at h

/-- An update of a run, or the one after it. -/
theorem getElem?_concat_cases (h : (us ++ [u])[i]? = some v) :
    us[i]? = some v ∧ i < us.length ∨ i = us.length ∧ v = u := by
  rcases Nat.lt_or_ge i us.length with hi | hi
  · rw [List.getElem?_append_left hi] at h
    exact Or.inl ⟨h, hi⟩
  · have hlen := (List.getElem?_eq_some_iff.1 h).1
    rw [List.length_append, List.length_singleton] at hlen
    obtain rfl : i = us.length := by omega
    rw [List.getElem?_concat_length, Option.some.injEq] at h
    exact Or.inr ⟨rfl, h.symm⟩

/-- **An update with an event**: the watcher was armed, and has cooled down. -/
theorem Paced.fire (h : Paced enterThreshold cooldown spec us w) (hlate : ∀ v ∈ us, v.now ≤ u.now)
    (hactive : w.active = false) (hcool : ∀ t ∈ w.lastFire, cooldown ≤ u.now - t)
    (hactive' : w'.active = true) (hlast' : w'.lastFire = some u.now) :
    Paced enterThreshold cooldown spec (us ++ [u]) w' := by
  refine ⟨?_, ?_, ?_⟩
  · intro hinactive
    rw [hactive'] at hinactive
    cases hinactive
  · intro i v hv _
    refine ⟨u.now, hlast', ?_⟩
    rcases getElem?_concat_cases hv with ⟨hv, -⟩ | ⟨-, rfl⟩
    · exact hlate v (List.mem_of_getElem? hv)
    · exact le_rfl
  · intro i j v v' hv hv' hij hi hj
    rcases getElem?_concat_cases hv with ⟨hvi, hilen⟩ | ⟨rfl, -⟩
    · rcases getElem?_concat_cases hv' with ⟨hvj, hjlen⟩ | ⟨rfl, rfl⟩
      · obtain ⟨hdistance, hfell⟩ :=
          h.apart i j v v' hvi hvj hij (fired_before hilen hi) (fired_before hjlen hj)
        exact ⟨hdistance, hfell.append hjlen.le _⟩
      · -- the second event is that of this update
        obtain ⟨t, ht, hvt⟩ := h.last i v hvi (fired_before hilen hi)
        have hcooled := hcool t ht
        have hlater := hlate v (List.mem_of_getElem? hvi)
        exact ⟨by omega, (h.armed hactive i (fired_before hilen hi)).append le_rfl _⟩
    · rcases getElem?_concat_cases hv' with ⟨-, hjlen⟩ | ⟨rfl, -⟩
      · omega
      · omega

/-- **An update without an event**: the watcher is armed only if it was, or if the mean has fallen. -/
theorem Paced.quiet (h : Paced enterThreshold cooldown spec us w)
    (hnone : firedAt enterThreshold cooldown spec (us ++ [u]) us.length = none)
    (hlast' : w'.lastFire = w.lastFire)
    (harmed' : w'.active = false → w.active = false ∨
      votedMean spec.index (us ++ [u]) us.length ≤ 1 / 2 * enterThreshold) :
    Paced enterThreshold cooldown spec (us ++ [u]) w' := by
  have hbefore : ∀ {i}, firedAt enterThreshold cooldown spec (us ++ [u]) i ≠ none → i < us.length := by
    intro i hi
    have hlen := lt_of_firedAt hi
    rw [List.length_append, List.length_singleton] at hlen
    refine lt_of_le_of_ne (Nat.le_of_lt_succ hlen) ?_
    rintro rfl
    exact hi hnone
  refine ⟨?_, ?_, ?_⟩
  · intro hinactive i hi
    have hilen := hbefore hi
    rw [List.length_append, List.length_singleton]
    rcases harmed' hinactive with harmed | hlow
    · obtain ⟨k, hik, hk, hlow⟩ := (h.armed harmed i (fired_before hilen hi)).append le_rfl [u]
      exact ⟨k, hik, hk.trans (Nat.lt_succ_self _), hlow⟩
    · exact ⟨us.length, hilen, Nat.lt_succ_self _, hlow⟩
  · intro i v hv hi
    rw [List.getElem?_append_left (hbefore hi)] at hv
    rw [hlast']
    exact h.last i v hv (fired_before (hbefore hi) hi)
  · intro i j v v' hv hv' hij hi hj
    rw [List.getElem?_append_left (hbefore hi)] at hv
    rw [List.getElem?_append_left (hbefore hj)] at hv'
    obtain ⟨hdistance, hfell⟩ :=
      h.apart i j v v' hv hv' hij (fired_before (hbefore hi) hi) (fired_before (hbefore hj) hj)
    exact ⟨hdistance, hfell.append (hbefore hj).le _⟩

/-- **The invariant of one watcher**, after every run. -/
theorem paced_after (hclock : us.Pairwise fun u v => u.now ≤ v.now) :
    Paced enterThreshold cooldown spec us (watcherAfter enterThreshold cooldown spec us) := by
  induction us using List.reverseRecOn with
  | nil =>
      have hnone : ∀ i, firedAt enterThreshold cooldown spec [] i = none := fun _ => rfl
      refine ⟨fun _ i h => absurd (hnone i) h, fun i u hu => absurd hu (by simp), ?_⟩
      exact fun i j u v hu => absurd hu (by simp)
  | append_singleton us u ih =>
      obtain ⟨hclock, -, hlate⟩ := List.pairwise_append.1 hclock
      rcases step_cases enterThreshold cooldown spec us u with
        ⟨-, -, -, hactive, hcool, hactive', hlast'⟩ | ⟨hnone, hlast', harmed'⟩
      · exact (ih hclock).fire (fun v hv => hlate v hv u (List.mem_singleton_self u)) hactive hcool hactive'
          hlast'
      · exact (ih hclock).quiet hnone hlast' harmed'

/-- **An event of a watcher** is one of its class, after three scores with a mean of at least the
threshold. -/
theorem of_firedAt {e : SoundEvent} (h : firedAt enterThreshold cooldown spec us k = some e) :
    e.className = spec.name ∧ votePatches ≤ k + 1 ∧ enterThreshold ≤ votedMean spec.index us k := by
  induction us using List.reverseRecOn with
  | nil => cases h
  | append_singleton us u ih =>
      have hlen := lt_of_firedAt (by rw [h]; exact Option.some_ne_none e)
      rw [List.length_append, List.length_singleton] at hlen
      rcases Nat.lt_or_ge k us.length with hk | hk
      · rw [firedAt_append hk] at h
        rw [votedMean_append _ hk]
        exact ih h
      · obtain rfl : k = us.length := by omega
        rcases step_cases enterThreshold cooldown spec us u with
          ⟨hfired, hfull, hloud, -⟩ | ⟨hfired, -⟩
        · rw [hfired] at h
          cases h
          exact ⟨rfl, hfull, hloud⟩
        · rw [hfired] at h
          cases h

/-! ### All watchers -/

theorem after_update (s : SoundEventState) (us : List Update) :
    after SoundEventState.update s us =
      { s with watched := s.watched.map fun w =>
          after (ClassWatcher.update s.enterThreshold s.cooldown) w us } := by
  rw [← after_bank]
  refine after_induction (I := fun us (t : SoundEventState) => t = { s with
    watched := after (bank (ClassWatcher.update s.enterThreshold s.cooldown)) s.watched us }) rfl ?_ us
  intro us u h
  rw [h, after_concat]
  rfl

/-- The events of an update are those of the watchers. -/
theorem eventsAt_new (watched : List WatchedClass) (threshold : ℚ) (cooldown : ℕ) (us : List Update)
    (k : ℕ) : eventsAt (.new watched threshold cooldown) us k =
      watched.filterMap fun spec => firedAt (clampThreshold threshold) cooldown spec us k := by
  rw [eventsAt, outputAt]
  cases hu : us[k]? with
  | none =>
      have hnone : ∀ spec, firedAt (clampThreshold threshold) cooldown spec us k = none := by
        intro spec
        rw [firedAt, outputAt, hu]
        rfl
      simp [hnone]
  | some u =>
      have hsome : ∀ spec, firedAt (clampThreshold threshold) cooldown spec us k =
          ((watcherAfter (clampThreshold threshold) cooldown spec (us.take k)).update
            (clampThreshold threshold) cooldown u).2 := by
        intro spec
        rw [firedAt, outputAt, hu]
        rfl
      simp only [hsome]
      rw [after_update, SoundEventState.new, Option.map_some, Option.getD_some,
        SoundEventState.update, bank]
      simp only [List.map_map, List.filterMap_map]
      rfl

/-- The events of one of some classes with different names. -/
theorem filter_filterMap {watched : List WatchedClass} {f : WatchedClass → Option SoundEvent}
    (hnames : (watched.map WatchedClass.name).Nodup) (hf : ∀ spec e, f spec = some e →
      e.className = spec.name) (hspec : spec ∈ watched) :
    (watched.filterMap f).filter (fun e => e.className = spec.name) = (f spec).toList := by
  induction watched with
  | nil => cases hspec
  | cons other watched ih =>
      obtain ⟨hother, hnames⟩ := List.nodup_cons.1 hnames
      -- what another class has fired has another name
      have hskip : ∀ spec' : WatchedClass, spec'.name ≠ spec.name →
          (f spec').toList.filter (fun e => e.className = spec.name) = [] := by
        intro spec' hne
        refine List.filter_eq_nil_iff.2 fun e he => ?_
        rw [hf spec' e (Option.mem_toList.1 he)]
        simpa using hne
      have hcons : (other :: watched).filterMap f = (f other).toList ++ watched.filterMap f := by
        cases hfo : f other with
        | none => rw [List.filterMap_cons_none hfo, Option.toList_none, List.nil_append]
        | some e => rw [List.filterMap_cons_some hfo, Option.toList_some, List.singleton_append]
      rw [hcons, List.filter_append]
      rcases List.mem_cons.1 hspec with rfl | hmem
      · have hrest : (watched.filterMap f).filter (fun e => e.className = spec.name) = [] := by
          refine List.filter_eq_nil_iff.2 fun e he => ?_
          obtain ⟨spec', hspec', he⟩ := List.mem_filterMap.1 he
          rw [hf spec' e he]
          have hne : spec'.name ≠ spec.name := fun heq => hother (heq ▸ List.mem_map_of_mem hspec')
          simpa using hne
        have hown : (f spec).toList.filter (fun e => e.className = spec.name) = (f spec).toList := by
          refine List.filter_eq_self.2 fun e he => ?_
          rw [hf spec e (Option.mem_toList.1 he)]
          exact decide_eq_true rfl
        rw [hrest, hown, List.append_nil]
      · have hne : other.name ≠ spec.name := fun heq => hother (heq ▸ List.mem_map_of_mem hmem)
        rw [hskip other hne, List.nil_append, ih hnames hmem]

/-- **The events of a class are those of its watcher**, when no class is named twice. -/
theorem classEvents_eq {watched : List WatchedClass} (hnames : (watched.map WatchedClass.name).Nodup)
    (hspec : spec ∈ watched) (threshold : ℚ) (cooldown : ℕ) (us : List Update) (k : ℕ) :
    classEvents (.new watched threshold cooldown) us k spec.name =
      (firedAt (clampThreshold threshold) cooldown spec us k).toList := by
  rw [classEvents, eventsAt_new]
  exact filter_filterMap hnames (fun spec e h => (of_firedAt h).1) hspec

/-- A class is told apart by its own scores. -/
theorem firedAt_congr {us' : List Update}
    (h : us.map (Update.own · spec.index) = us'.map (Update.own · spec.index)) (k : ℕ) :
    firedAt enterThreshold cooldown spec us k = firedAt enterThreshold cooldown spec us' k := by
  rw [firedAt, firedAt, outputAt_congr (f := (Update.own · spec.index))
    (I := fun w : ClassWatcher => w.spec = spec) rfl ?_ ?_ h]
  · intro w u hw
    rw [(spec_update w).1, hw]
  · intro w u v hw huv
    obtain ⟨hscore, hrest⟩ := Prod.mk.inj huv
    obtain ⟨hnow, htime⟩ := Prod.mk.inj hrest
    rw [ClassWatcher.update, ClassWatcher.update, ClassWatcher.push, ClassWatcher.push, hw, hscore,
      ClassWatcher.vote, ClassWatcher.vote, hnow, htime]

/-- **The events of a class keep votes, hysteresis and cooldown**, when no class is named twice, with the
threshold clamped to 0.01 and 1. -/
theorem wellPaced {watched : List WatchedClass} (hnames : (watched.map WatchedClass.name).Nodup)
    (threshold : ℚ) (cooldown : ℕ) (hclock : us.Pairwise fun u v => u.now ≤ v.now) :
    WellPaced watched threshold cooldown (clampThreshold threshold) us := by
  refine ⟨?_, ?_, ?_, ?_⟩
  · intro spec hspec k
    rw [classEvents_eq hnames hspec]
    cases firedAt (clampThreshold threshold) cooldown spec us k with
    | none => exact Nat.zero_le _
    | some e => exact Nat.le_refl _
  · intro spec hspec i j u v hu hv hij hi hj
    rw [classEvents_eq hnames hspec, ne_eq, Option.toList_eq_nil_iff] at hi hj
    exact (paced_after hclock).apart i j u v hu hv hij hi hj
  · intro spec hspec k e he
    rw [classEvents_eq hnames hspec] at he
    exact (of_firedAt (Option.mem_toList.1 he)).2
  · intro spec hspec us' hsame k
    rw [classEvents_eq hnames hspec, classEvents_eq hnames hspec, firedAt_congr hsame]

/-- A dog that barks. -/
def dog : WatchedClass := ⟨"Dog", "", 0⟩

/-- Three loud updates, silence, and three loud ones after the cooldown. -/
def barks : List Update :=
  [⟨[1], 0, 0⟩, ⟨[1], 1, 0⟩, ⟨[1], 2, 0⟩, ⟨[0], 3, 0⟩, ⟨[0], 4, 0⟩, ⟨[1], 32, 0⟩, ⟨[1], 33, 0⟩,
    ⟨[1], 34, 0⟩]

/-- They keep votes, hysteresis and cooldown. -/
theorem wellPaced_barks : WellPaced [dog] (3 / 10) 30 (clampThreshold (3 / 10)) barks :=
  wellPaced (by decide) (3 / 10) 30 (by decide)

/-- A threshold of two is clamped to one, and reached by a mean of one; and a class that is named twice
has two events at once. -/
theorem not_wellPaced_barks : ¬ WellPaced [dog] 2 30 2 barks ∧
    ¬ WellPaced [dog, dog] (3 / 10) 30 (3 / 10) barks := by
  constructor
  · intro h
    have hevent : ⟨"Dog", "", 1, 0⟩ ∈ classEvents (.new [dog] 2 30) barks 2 dog.name := by
      decide +kernel
    exact absurd (h.loud dog (List.mem_singleton_self dog) 2 _ hevent).2 (by decide +kernel)
  · intro h
    exact absurd (h.single dog List.mem_cons_self 2) (by decide +kernel)

end AudioAi

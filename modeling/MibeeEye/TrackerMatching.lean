/-
**What a frame does to the tracks.**

The assignment of each stage is a matching, and no detection is assigned by both.  The weak stage
looks at all tracks that are not deleted, not only at those that the strong one has missed, so that a
track can be assigned by both: it is then updated twice, and its hits count twice.

Main definitions:

* `Tracking.Track.Hits` — a track after some hits;
* `Tracking.FrameSpec` — what a frame does;
* `Tracking.Tracker.ids` — the ids that a run gives out;
* `Tracking.IsAssociation` — what is to hold of a frame;
* `Tracking.WeakRecovers` — the weak stage looks at what the strong one has missed.

Main results:

* `Tracking.frameSpec` — every frame does what `FrameSpec` says;
* `Tracking.exists_frame` — a frame is processed unless a counter overflows;
* `Tracking.ids_eq` — the ids of a run are consecutive;
* `Tracking.isAssociation_iff_weakRecovers` — **which frames assign each track at most once**.
-/

import MibeeEye.Tracking

set_option relaxedAutoImplicit false
set_option autoImplicit false

namespace Tracking

open Machine

/-! ### Hits -/

/-- The track `u` is `t` after its prediction and `n` hits. -/
structure Track.Hits (params : TrackerParams) (n : ℕ) (t u : Track) : Prop where
  id : u.id = t.id
  hitStreak : u.hitStreak = t.hitStreak + n
  timeSinceUpdate : u.timeSinceUpdate = if n = 0 then t.timeSinceUpdate + 1 else 0
  state : u.state =
    if n ≠ 0 ∧ t.state = .tentative ∧ params.minHits ≤ t.hitStreak + n then .confirmed else t.state

variable {params : TrackerParams} {dets : List Detection} {n : ℕ} {t u u' : Track}

theorem Track.hits_predict (h : t.predict = some u) : t.Hits params 0 u := by
  obtain ⟨age, -, h⟩ := Option.bind_eq_some_iff.1 h
  obtain ⟨time, htime, h⟩ := Option.bind_eq_some_iff.1 h
  cases h
  exact ⟨rfl, rfl, increment_eq_some htime, by simp⟩

theorem Track.Hits.hit {det : Detection} (h : t.Hits params n u)
    (hu : u.hit params det = some u') : t.Hits params (n + 1) u' := by
  obtain ⟨streak, hstreak, hu⟩ := Option.bind_eq_some_iff.1 hu
  have hlen : streak = t.hitStreak + (n + 1) := by
    rw [increment_eq_some hstreak, h.hitStreak, Nat.add_assoc]
  cases hu
  refine ⟨h.id, hlen, rfl, ?_⟩
  dsimp only
  rw [hlen]
  by_cases hn : n ≠ 0 ∧ t.state = .tentative ∧ params.minHits ≤ t.hitStreak + n
  · -- a track that is confirmed by an earlier hit stays so
    have hconfirmed : u.state = .confirmed := by rw [h.state, if_pos hn]
    have hmore : n + 1 ≠ 0 ∧ t.state = .tentative ∧ params.minHits ≤ t.hitStreak + (n + 1) :=
      ⟨Nat.succ_ne_zero n, hn.2.1, hn.2.2.trans (by omega)⟩
    rw [hconfirmed, if_pos hmore]
    simp
  · have hsame : u.state = t.state := by rw [h.state, if_neg hn]
    rw [hsame]
    simp

/-- The lifecycle rules only delete. -/
theorem Track.lifecycle_eq (params : TrackerParams) (t : Track) :
    t.lifecycle params = { t with state := (t.lifecycle params).state } := by
  rw [Track.lifecycle]
  split <;> split <;> rfl

theorem Track.lifecycle_state (params : TrackerParams) (t : Track) :
    (t.lifecycle params).state =
      if t.state = .tentative ∧ 1 < t.timeSinceUpdate ∨
        t.state = .confirmed ∧ params.maxAge < t.timeSinceUpdate then .deleted else t.state := by
  rw [Track.lifecycle]
  cases hstate : t.state with
  | tentative =>
      by_cases htime : 1 < t.timeSinceUpdate
      · simp [htime]
      · simp [htime, hstate]
  | confirmed =>
      by_cases htime : params.maxAge < t.timeSinceUpdate
      · simp [htime, hstate]
      · simp [htime, hstate]
  | deleted => simp [hstate]

@[simp] theorem Track.lifecycle_id : (t.lifecycle params).id = t.id := by
  rw [Track.lifecycle_eq]

@[simp] theorem Track.lifecycle_hitStreak : (t.lifecycle params).hitStreak = t.hitStreak := by
  rw [Track.lifecycle_eq]

@[simp] theorem Track.lifecycle_timeSinceUpdate :
    (t.lifecycle params).timeSinceUpdate = t.timeSinceUpdate := by
  rw [Track.lifecycle_eq]

/-! ### All tracks -/

theorem exists_of_rel_right {α β : Type} {r : α → β → Prop} {a : Option α} {b : β}
    (h : Option.Rel r a (some b)) : ∃ x, a = some x ∧ r x b := by
  cases h with
  | some h => exact ⟨_, rfl, h⟩

theorem exists_of_rel_left {α β : Type} {r : α → β → Prop} {a : α} {b : Option β}
    (h : Option.Rel r (some a) b) : ∃ y, b = some y ∧ r a y := by
  cases h with
  | some h => exact ⟨_, rfl, h⟩

/-- What is related in one way is related in another. -/
theorem rel_imp {α β γ : Type} {r : α → β → Prop} {q : α → γ → Prop} {g : β → γ} {a : Option α}
    {b : Option β} (h : Option.Rel r a b) (himp : ∀ x y, r x y → q x (g y)) :
    Option.Rel q a (b.map g) := by
  cases h with
  | some h => exact .some (himp _ _ h)
  | none => exact .none

/-- Each of the tracks `us` is the one of `ts` in its place, after so many hits. -/
def Follow (params : TrackerParams) (hits : ℕ → ℕ) (ts us : List Track) : Prop :=
  ∀ i, Option.Rel (Track.Hits params (hits i)) ts[i]? us[i]?

/-- What a function gives for the elements of a list, in their places. -/
theorem rel_mapM {α β : Type} {f : α → Option β} {l : List α} {l' : List β}
    (h : l.mapM f = some l') (i : ℕ) : Option.Rel (fun a b => f a = some b) l[i]? l'[i]? := by
  induction l generalizing l' i with
  | nil =>
      cases h
      exact .none
  | cons a l ih =>
      rw [List.mapM_cons] at h
      obtain ⟨b, hb, h⟩ := Option.bind_eq_some_iff.1 h
      obtain ⟨bs, hbs, h⟩ := Option.bind_eq_some_iff.1 h
      cases h
      cases i with
      | zero => exact .some hb
      | succ i => exact ih hbs i

theorem follow_predict {ts us : List Track} (h : ts.mapM Track.predict = some us) :
    Follow params (fun _ => 0) ts us := by
  intro i
  have hi : Option.Rel (Track.Hits params 0) ts[i]? (us[i]?.map id) :=
    rel_imp (rel_mapM h i) fun t u htu => Track.hits_predict htu
  rwa [Option.map_id] at hi

/-- **A stage**: the tracks that are in its matching have one hit more. -/
theorem Follow.applyPairs {hits : ℕ → ℕ} {ts us us' : List Track} {matched matched' : List Bool}
    {pairs : List (ℕ × ℕ)} (hfollow : Follow params hits ts us) (hmatching : IsMatching pairs)
    (h : applyPairs params dets pairs (us, matched) = some (us', matched')) :
    Follow params (fun i => hits i + (pairs.map Prod.fst).count i) ts us' := by
  obtain ⟨hsame, hhit, -⟩ := getElem?_applyPairs hmatching h
  intro i
  have hi := hfollow i
  by_cases hmem : i ∈ pairs.map Prod.fst
  · obtain ⟨u, det, u', hu, hu', hus'⟩ := hhit i hmem
    dsimp only
    rw [List.count_eq_one_of_mem hmatching.1 hmem, hus']
    rw [hu] at hi
    obtain ⟨t, ht, hi⟩ := exists_of_rel_right hi
    rw [ht]
    exact .some (hi.hit hu')
  · dsimp only
    rwa [List.count_eq_zero_of_not_mem hmem, hsame i hmem]

theorem Follow.exists_of_live {hits : ℕ → ℕ} {ts us : List Track} {i : ℕ}
    (h : Follow params hits ts us) (hi : ∃ u, us[i]? = some u ∧ u.state ≠ .deleted) :
    ∃ t, ts[i]? = some t ∧ t.state ≠ .deleted := by
  obtain ⟨u, hu, hstate⟩ := hi
  have hrel := h i
  rw [hu] at hrel
  obtain ⟨t, ht, hrel⟩ := exists_of_rel_right hrel
  refine ⟨t, ht, fun hdeleted => hstate ?_⟩
  rw [hrel.state, if_neg (by simp [hdeleted]), hdeleted]

/-! ### New tracks -/

/-- The new tracks: one for each detection that is not marked, with consecutive ids. -/
theorem spawnAll_spec {matched : List Bool} {dets : List (Detection × ℕ)} {nextId last : ℕ}
    {spawned : List (ℕ × Track)} (h : spawnAll matched dets nextId = some (spawned, last)) :
    last = nextId + spawned.length ∧
      spawned.map (fun p => p.2.id) = List.range' nextId spawned.length ∧
      spawned.map Prod.fst = (dets.map Prod.snd).filter (fun i => !matched.getD i true) ∧
      ∀ p ∈ spawned, p.2.state = .tentative ∧ p.2.hitStreak = 1 ∧ p.2.timeSinceUpdate = 0 := by
  induction dets generalizing nextId spawned with
  | nil =>
      cases h
      exact ⟨rfl, rfl, rfl, fun p hp => absurd hp List.not_mem_nil⟩
  | cons p dets ih =>
      obtain ⟨det, i⟩ := p
      rw [spawnAll] at h
      split at h
      · rename_i hmarked
        obtain ⟨hlast, hids, hdets, hnew⟩ := ih h
        rw [List.map_cons, List.filter_cons_of_neg (by rw [hmarked]; decide)]
        exact ⟨hlast, hids, hdets, hnew⟩
      · rename_i hfree
        obtain ⟨next, hnext, h⟩ := Option.bind_eq_some_iff.1 h
        obtain ⟨⟨rest, last'⟩, hrest, h⟩ := Option.bind_eq_some_iff.1 h
        cases h
        obtain ⟨hlast, hids, hdets, hnew⟩ := ih hrest
        obtain rfl := increment_eq_some hnext
        refine ⟨?_, ?_, ?_, ?_⟩
        · rw [hlast, List.length_cons]
          omega
        · rw [List.map_cons, List.length_cons, List.range'_succ, hids]
          rfl
        · rw [Bool.not_eq_true] at hfree
          rw [List.map_cons, List.map_cons, hdets, List.filter_cons_of_pos (by rw [hfree]; rfl)]
        · intro q hq
          rcases List.mem_cons.1 hq with rfl | hq
          · exact ⟨rfl, rfl, rfl⟩
          · exact hnew q hq

/-! ### One frame -/

/-- The hits of a track in a frame. -/
def Frame.hits (f : Frame) (i : ℕ) : ℕ :=
  (f.strong.map Prod.fst).count i + (f.weak.map Prod.fst).count i

/-- The tracks that are kept at the end of a frame. -/
def kept (params : TrackerParams) (t : Track) : Bool :=
  t.state ≠ .deleted ∨ t.timeSinceUpdate ≤ params.maxAge + 5

/-- **What a frame does.** -/
structure FrameSpec (tracker : Tracker) (dets : List Detection) (f : Frame) : Prop where
  strong : IsMatching f.strong
  weak : IsMatching f.weak
  disjoint : (f.strong.map Prod.snd).Disjoint (f.weak.map Prod.snd)
  live : ∀ p ∈ f.strong ++ f.weak,
    (∃ t, tracker.tracks[p.1]? = some t ∧ t.state ≠ .deleted) ∧ p.2 < dets.length
  old : ∀ i, Option.Rel
    (fun t u : Track => ∃ v, t.Hits tracker.params (f.hits i) v ∧ u = v.lifecycle tracker.params)
    tracker.tracks[i]? f.old[i]?
  detections : f.spawned.map Prod.fst =
    (List.range dets.length).filter fun i => i ∉ (f.strong ++ f.weak).map Prod.snd
  ids : f.spawned.map (fun p => p.2.id) = List.range' tracker.nextId f.spawned.length
  new : ∀ p ∈ f.spawned,
    p.2.state = .tentative ∧ p.2.hitStreak = 1 ∧ p.2.timeSinceUpdate = 0
  params : f.after.params = tracker.params
  tracks : f.after.tracks = (f.old ++ f.spawned.map Prod.snd).filter (kept tracker.params)
  nextId : f.after.nextId = tracker.nextId + f.spawned.length

/-- **Every frame does what it should**, but for tracks that are assigned by both stages. -/
theorem frameSpec {tracker : Tracker} {f : Frame} (h : tracker.frame dets = some f) :
    FrameSpec tracker dets f := by
  obtain ⟨tracks₀, hpredict, h⟩ := Option.bind_eq_some_iff.1 h
  obtain ⟨⟨tracks₁, matched₁⟩, hstrong, h⟩ := Option.bind_eq_some_iff.1 h
  obtain ⟨⟨tracks₂, matched₂⟩, hweak, h⟩ := Option.bind_eq_some_iff.1 h
  obtain ⟨⟨spawned, nextId⟩, hspawn, h⟩ := Option.bind_eq_some_iff.1 h
  obtain ⟨tracks, hretain, h⟩ := Option.bind_eq_some_iff.1 h
  cases h
  have hfollow₀ : Follow tracker.params (fun _ => 0) tracker.tracks tracks₀ := follow_predict hpredict
  have hfollow₁ := hfollow₀.applyPairs isMatching_stagePairs hstrong
  simp only [Nat.zero_add] at hfollow₁
  have hfollow₂ := hfollow₁.applyPairs isMatching_stagePairs hweak
  obtain ⟨-, -, hmarked₁⟩ := getElem?_applyPairs isMatching_stagePairs hstrong
  obtain ⟨-, -, hmarked₂⟩ := getElem?_applyPairs isMatching_stagePairs hweak
  obtain ⟨hlast, hids, hdets, hnew⟩ := spawnAll_spec hspawn
  refine
    { strong := isMatching_stagePairs
      weak := isMatching_stagePairs
      disjoint := ?_
      live := ?_
      old := ?_
      detections := ?_
      ids := hids
      new := hnew
      params := rfl
      tracks := ?_
      nextId := hlast }
  · -- what the strong stage has marked, the weak one does not look at
    intro j hj hj'
    obtain ⟨p, hp, rfl⟩ := List.mem_map.1 hj'
    have hfree := (mem_stagePairs hp).2.2
    rw [(hmarked₁ _).2 (.inr hj)] at hfree
    cases hfree
  · intro p hp
    rcases List.mem_append.1 hp with hp | hp
    · exact ⟨hfollow₀.exists_of_live (mem_stagePairs hp).1, (mem_stagePairs hp).2.1⟩
    · exact ⟨hfollow₁.exists_of_live (mem_stagePairs hp).1, (mem_stagePairs hp).2.1⟩
  · intro i
    dsimp only
    rw [List.getElem?_map]
    exact rel_imp (hfollow₂ i) fun t u hu => ⟨u, hu, rfl⟩
  · dsimp only
    rw [hdets, List.zipIdx_map_snd, ← List.range_eq_range']
    refine List.filter_congr fun j hj => ?_
    have hlt := List.mem_range.1 hj
    have hstart : (List.replicate dets.length false).getD j true = false := by
      rw [List.getD_eq_getElem _ _ (by rwa [List.length_replicate]), List.getElem_replicate]
    have hmarked : matched₂.getD j true = true ↔ j ∈ (stagePairs tracker.params dets tracks₀
        (List.replicate dets.length false) 0 ++
          stagePairs tracker.params dets tracks₁ matched₁ 1).map Prod.snd := by
      rw [hmarked₂, hmarked₁, hstart, List.map_append, List.mem_append]
      simp
    rw [Bool.eq_iff_iff, Bool.not_eq_true', decide_eq_true_eq, ← hmarked, Bool.not_eq_true]
  · rw [retain] at hretain
    split at hretain
    · cases hretain
    · exact (Option.some.inj hretain).symm

/-! ### Every frame is processed -/

theorem exists_mapM {α β : Type} {f : α → Option β} {l : List α}
    (h : ∀ a ∈ l, ∃ b, f a = some b) : ∃ l', l.mapM f = some l' := by
  induction l with
  | nil => exact ⟨[], rfl⟩
  | cons a l ih =>
      obtain ⟨b, hb⟩ := h a List.mem_cons_self
      obtain ⟨bs, hbs⟩ := ih fun c hc => h c (List.mem_cons_of_mem a hc)
      refine ⟨b :: bs, ?_⟩
      rw [List.mapM_cons, hb, hbs]
      rfl

theorem exists_applyPairs {pairs : List (ℕ × ℕ)} (hmatching : IsMatching pairs)
    {tracks : List Track} {matched : List Bool}
    (h : ∀ p ∈ pairs,
      (∃ t, tracks[p.1]? = some t ∧ t.hitStreak + 1 < 2 ^ 32) ∧ p.2 < dets.length) :
    ∃ s, applyPairs params dets pairs (tracks, matched) = some s := by
  induction pairs generalizing tracks matched with
  | nil => exact ⟨(tracks, matched), rfl⟩
  | cons p pairs ih =>
      obtain ⟨ti, di⟩ := p
      obtain ⟨⟨t, ht, hstreak⟩, hdi⟩ := h _ List.mem_cons_self
      obtain ⟨⟨hti, -⟩, hrest⟩ := isMatching_cons_iff.1 hmatching
      obtain ⟨t', ht'⟩ : ∃ t', t.hit params dets[di] = some t' := by
        rw [Track.hit, increment_eq hstreak]
        exact ⟨_, rfl⟩
      have hothers : ∀ q ∈ pairs, (∃ u, (tracks.set ti t')[q.1]? = some u ∧
          u.hitStreak + 1 < 2 ^ 32) ∧ q.2 < dets.length := by
        intro q hq
        have hne : ti ≠ q.1 := fun heq => hti (List.mem_map.2 ⟨q, hq, heq.symm⟩)
        rw [List.getElem?_set_ne hne]
        exact h q (List.mem_cons_of_mem _ hq)
      obtain ⟨s, hs⟩ := @ih hrest (tracks.set ti t') (matched.set di true) hothers
      refine ⟨s, ?_⟩
      rw [applyPairs, ht, List.getElem?_eq_getElem hdi, Option.bind_eq_bind, Option.bind_some,
        Option.bind_eq_bind, Option.bind_some, ht']
      exact hs

theorem exists_spawnAll {matched : List Bool} {dets : List (Detection × ℕ)} {nextId : ℕ}
    (h : nextId + dets.length < 2 ^ 64) : ∃ s, spawnAll matched dets nextId = some s := by
  induction dets generalizing nextId with
  | nil => exact ⟨([], nextId), rfl⟩
  | cons p dets ih =>
      obtain ⟨det, i⟩ := p
      rw [List.length_cons] at h
      rw [spawnAll]
      split
      · exact ih (by omega)
      · obtain ⟨⟨spawned, last⟩, hs⟩ := @ih (nextId + 1) (by omega)
        rw [increment_eq (by omega), Option.bind_eq_bind, Option.bind_some, hs]
        exact ⟨_, rfl⟩

/-- A hit more is within the width. -/
theorem Follow.hitStreak_lt {hits : ℕ → ℕ} {ts us : List Track} {k i : ℕ}
    (h : Follow params hits ts us) (hle : ∀ i, hits i + 1 ≤ k)
    (hts : ∀ t ∈ ts, t.hitStreak + k < 2 ^ 32) (hi : ∃ u, us[i]? = some u ∧ u.state ≠ .deleted) :
    ∃ u, us[i]? = some u ∧ u.hitStreak + 1 < 2 ^ 32 := by
  obtain ⟨u, hu, -⟩ := hi
  have hrel := h i
  rw [hu] at hrel
  obtain ⟨t, ht, hrel⟩ := exists_of_rel_right hrel
  have hlt := hts t (List.mem_of_getElem? ht)
  have hk := hle i
  refine ⟨u, hu, ?_⟩
  rw [hrel.hitStreak]
  omega

/-- **Every frame is processed** unless a counter overflows. -/
theorem exists_frame {tracker : Tracker} (hage : ∀ t ∈ tracker.tracks, t.age + 1 < 2 ^ 32)
    (htime : ∀ t ∈ tracker.tracks, t.timeSinceUpdate + 1 < 2 ^ 32)
    (hstreak : ∀ t ∈ tracker.tracks, t.hitStreak + 2 < 2 ^ 32)
    (hid : tracker.nextId + dets.length < 2 ^ 64) (hmax : tracker.params.maxAge + 5 < 2 ^ 32) :
    ∃ f, tracker.frame dets = some f := by
  obtain ⟨tracks₀, hpredict⟩ : ∃ tracks, tracker.tracks.mapM Track.predict = some tracks := by
    refine exists_mapM fun t ht => ?_
    rw [Track.predict, increment_eq (hage t ht), increment_eq (htime t ht)]
    exact ⟨_, rfl⟩
  have hfollow₀ : Follow tracker.params (fun _ => 0) tracker.tracks tracks₀ := follow_predict hpredict
  obtain ⟨⟨tracks₁, matched₁⟩, hstrong⟩ := @exists_applyPairs tracker.params dets _
    (@isMatching_stagePairs tracker.params dets tracks₀ (List.replicate dets.length false) 0)
    tracks₀ (List.replicate dets.length false) fun p hp =>
      ⟨hfollow₀.hitStreak_lt (fun _ => by omega) hstreak (mem_stagePairs hp).1,
        (mem_stagePairs hp).2.1⟩
  have hfollow₁ := hfollow₀.applyPairs isMatching_stagePairs hstrong
  obtain ⟨⟨tracks₂, matched₂⟩, hweak⟩ := @exists_applyPairs tracker.params dets _
    (@isMatching_stagePairs tracker.params dets tracks₁ matched₁ 1) tracks₁ matched₁ fun p hp => by
      refine ⟨hfollow₁.hitStreak_lt (fun i => ?_) hstreak (mem_stagePairs hp).1,
        (mem_stagePairs hp).2.1⟩
      have hcount := List.nodup_iff_count_le_one.1 (@isMatching_stagePairs tracker.params dets tracks₀
        (List.replicate dets.length false) 0).1 i
      omega
  obtain ⟨⟨spawned, nextId⟩, hspawn⟩ := @exists_spawnAll matched₂ dets.zipIdx tracker.nextId
    (by rwa [List.length_zipIdx])
  rw [← Option.isSome_iff_exists, Tracker.frame]
  simp only [hpredict, hstrong, hweak, hspawn, Option.bind_eq_bind, Option.bind_some]
  rw [retain, if_neg fun hc => absurd hc.2 (by omega)]
  rfl

theorem step_eq (tracker : Tracker) (dets : List Detection) :
    tracker.step dets = (tracker.frame dets).map Frame.after := by
  rw [Tracker.step, Tracker.update, Option.map_map]
  rfl

theorem step_eq_some_iff {tracker next : Tracker} :
    tracker.step dets = some next ↔ ∃ f, tracker.frame dets = some f ∧ f.after = next := by
  rw [step_eq, Option.map_eq_some_iff]

section Spec

variable {tracker : Tracker} {f : Frame}

/-- The ids of the tracks that were there before. -/
theorem FrameSpec.old_ids (h : FrameSpec tracker dets f) :
    f.old.map Track.id = tracker.tracks.map Track.id := by
  refine List.ext_getElem? fun i => ?_
  have hi := h.old i
  rw [List.getElem?_map, List.getElem?_map]
  generalize tracker.tracks[i]? = a, f.old[i]? = b at hi ⊢
  cases hi with
  | some hi =>
      obtain ⟨v, hv, rfl⟩ := hi
      rw [Option.map_some, Option.map_some, Track.lifecycle_id, hv.id]
  | none => rfl

/-- A track after a frame was there before, or is new. -/
theorem FrameSpec.mem_after (h : FrameSpec tracker dets f) {u : Track} (hu : u ∈ f.after.tracks) :
    (∃ (i : ℕ) (t v : Track), tracker.tracks[i]? = some t ∧ t.Hits tracker.params (f.hits i) v ∧
        u = v.lifecycle tracker.params) ∨ u ∈ f.spawned.map Prod.snd := by
  rw [h.tracks, List.mem_filter, List.mem_append] at hu
  rcases hu.1 with hold | hnew
  · obtain ⟨i, hi⟩ := List.mem_iff_getElem?.1 hold
    have hrel := h.old i
    rw [hi] at hrel
    obtain ⟨t, ht, v, hv, heq⟩ := exists_of_rel_right hrel
    exact .inl ⟨i, t, v, ht, hv, heq⟩
  · exact .inr hnew

/-- A track that was there before is in its place at the end of the frame. -/
theorem FrameSpec.exists_old (h : FrameSpec tracker dets f) {i : ℕ} {t : Track}
    (ht : tracker.tracks[i]? = some t) :
    ∃ v, t.Hits tracker.params (f.hits i) v ∧ f.old[i]? = some (v.lifecycle tracker.params) := by
  have hrel := h.old i
  rw [ht] at hrel
  obtain ⟨u, hu, v, hv, rfl⟩ := exists_of_rel_left hrel
  exact ⟨v, hv, hu⟩

/-- The new tracks have new ids. -/
theorem FrameSpec.id_spawned (h : FrameSpec tracker dets f) {u : Track}
    (hu : u ∈ f.spawned.map Prod.snd) :
    tracker.nextId ≤ u.id ∧ u.id < tracker.nextId + f.spawned.length ∧
      u.id ∈ f.spawned.map fun p => p.2.id := by
  obtain ⟨p, hp, rfl⟩ := List.mem_map.1 hu
  have hid : p.2.id ∈ f.spawned.map fun p => p.2.id := List.mem_map_of_mem hp
  have hrange := hid
  rw [h.ids, List.mem_range'_1] at hrange
  exact ⟨hrange.1, hrange.2, hid⟩

/-! ### Ids -/

/-- The ids of the tracks are distinct, and all were given out before. -/
structure Tracker.Fresh (tracker : Tracker) : Prop where
  nodup : (tracker.tracks.map Track.id).Nodup
  lt : ∀ t ∈ tracker.tracks, t.id < tracker.nextId

theorem fresh_new (params : TrackerParams) : (Tracker.new params).Fresh :=
  ⟨List.nodup_nil, fun _ ht => absurd ht List.not_mem_nil⟩

theorem FrameSpec.fresh (h : FrameSpec tracker dets f) (hfresh : tracker.Fresh) :
    f.after.Fresh := by
  have hids : ((f.old ++ f.spawned.map Prod.snd).map Track.id) =
      tracker.tracks.map Track.id ++ List.range' tracker.nextId f.spawned.length := by
    rw [List.map_append, h.old_ids, ← h.ids, List.map_map]
    rfl
  have hlt : ∀ id ∈ tracker.tracks.map Track.id, id < tracker.nextId := by
    intro id hid
    obtain ⟨t, ht, rfl⟩ := List.mem_map.1 hid
    exact hfresh.lt t ht
  constructor
  · have hall : ((f.old ++ f.spawned.map Prod.snd).map Track.id).Nodup := by
      rw [hids, List.nodup_append']
      refine ⟨hfresh.nodup, List.nodup_range', fun id hid hid' => ?_⟩
      have hge := (List.mem_range'_1.1 hid').1
      have hlt := hlt id hid
      omega
    rw [h.tracks]
    exact hall.sublist (List.filter_sublist.map Track.id)
  · intro u hu
    rw [h.nextId]
    rw [h.tracks] at hu
    have hid : u.id ∈ (f.old ++ f.spawned.map Prod.snd).map Track.id :=
      List.mem_map_of_mem (List.mem_of_mem_filter hu)
    rw [hids, List.mem_append] at hid
    rcases hid with hid | hid
    · have hlt := hlt _ hid
      omega
    · exact (List.mem_range'_1.1 hid).2

/-- Two tracks with one id are one. -/
theorem Tracker.Fresh.eq_of_id (h : tracker.Fresh) {i j : ℕ} {t u : Track}
    (ht : tracker.tracks[i]? = some t) (hu : tracker.tracks[j]? = some u) (hid : t.id = u.id) :
    i = j := by
  obtain ⟨hi, rfl⟩ := List.getElem?_eq_some_iff.1 ht
  obtain ⟨hj, rfl⟩ := List.getElem?_eq_some_iff.1 hu
  have hi' : i < (tracker.tracks.map Track.id).length := by rwa [List.length_map]
  have hj' : j < (tracker.tracks.map Track.id).length := by rwa [List.length_map]
  refine (@List.Nodup.getElem_inj_iff _ _ h.nodup i hi' j hj').1 ?_
  rw [List.getElem_map, List.getElem_map, hid]

end Spec

/-- The ids that a run gives out. -/
@[grind =] def Tracker.ids (tracker : Tracker) : List (List Detection) → List ℕ
  | [] => []
  | dets :: frames =>
      match tracker.frame dets with
      | none => []
      | some f => f.spawned.map (fun p => p.2.id) ++ f.after.ids frames

/-- **The ids of a run** are consecutive. -/
theorem ids_eq (tracker : Tracker) (frames : List (List Detection)) :
    ∃ n, tracker.ids frames = List.range' tracker.nextId n := by
  induction frames generalizing tracker with
  | nil => exact ⟨0, rfl⟩
  | cons dets frames ih =>
      rw [Tracker.ids]
      cases hf : tracker.frame dets with
      | none => exact ⟨0, rfl⟩
      | some f =>
          have hspec := frameSpec hf
          obtain ⟨n, hn⟩ := ih f.after
          refine ⟨f.spawned.length + n, ?_⟩
          dsimp only
          rw [hn, hspec.ids, hspec.nextId, List.range'_append_1]

/-- The tracks after a run have the ids that were there before, or were given out. -/
theorem mem_ids_of_exec {tracker last : Tracker} {frames : List (List Detection)}
    (h : exec Tracker.step tracker frames = some last) :
    ∀ u ∈ last.tracks, u.id ∈ tracker.tracks.map Track.id ∨ u.id ∈ tracker.ids frames := by
  induction frames generalizing tracker with
  | nil =>
      cases h
      exact fun u hu => .inl (List.mem_map_of_mem hu)
  | cons dets frames ih =>
      rw [exec_cons] at h
      obtain ⟨next, hnext, h⟩ := Option.bind_eq_some_iff.1 h
      obtain ⟨f, hf, rfl⟩ := step_eq_some_iff.1 hnext
      have hspec := frameSpec hf
      intro u hu
      rw [Tracker.ids, hf]
      rcases ih h u hu with hid | hid
      · obtain ⟨w, hw, heq⟩ := List.mem_map.1 hid
        rcases hspec.mem_after hw with ⟨i, t, v, ht, hv, rfl⟩ | hnew
        · left
          rw [← heq, Track.lifecycle_id, hv.id]
          exact List.mem_map_of_mem (List.mem_of_getElem? ht)
        · right
          rw [← heq]
          exact List.mem_append_left _ (hspec.id_spawned hnew).2.2
      · exact .inr (List.mem_append_right _ hid)

theorem fresh_of_exec {params : TrackerParams} {tracker : Tracker} {frames : List (List Detection)}
    (h : exec Tracker.step (Tracker.new params) frames = some tracker) : tracker.Fresh := by
  refine exec_invariant (P := fun _ => True) ?_ (fun _ _ => trivial) (fresh_new params) h
  intro tracker dets next _ hfresh hnext
  obtain ⟨f, hf, rfl⟩ := step_eq_some_iff.1 hnext
  exact (frameSpec hf).fresh hfresh

/-! ### The association -/

/-- **The association of a frame**: no two pairs have a track or a detection in common, each pair is
one of a track that is not deleted and a detection, each detection is in a pair or begins a track,
and the hits of a track grow by at most one. -/
structure IsAssociation (tracker : Tracker) (dets : List Detection) (f : Frame) : Prop where
  matching : IsMatching (f.strong ++ f.weak)
  pairs : ∀ p ∈ f.strong ++ f.weak,
    (∃ t, tracker.tracks[p.1]? = some t ∧ t.state ≠ .deleted) ∧ p.2 < dets.length
  detections : ∀ d < dets.length,
    ((f.strong ++ f.weak).map Prod.snd).count d + (f.spawned.map Prod.fst).count d = 1
  streak : ∀ t ∈ tracker.tracks, ∀ u ∈ f.after.tracks, u.id = t.id →
    u.hitStreak ≤ t.hitStreak + 1

section Association

variable {tracker : Tracker} {f : Frame}

/-- A detection is in one pair, or begins one track. -/
theorem FrameSpec.count_detection (h : FrameSpec tracker dets f) {d : ℕ} (hd : d < dets.length) :
    ((f.strong ++ f.weak).map Prod.snd).count d + (f.spawned.map Prod.fst).count d = 1 := by
  have hnodup : ((f.strong ++ f.weak).map Prod.snd).Nodup := by
    rw [List.map_append, List.nodup_append']
    exact ⟨h.strong.2, h.weak.2, h.disjoint⟩
  have hspawned : (f.spawned.map Prod.fst).Nodup := by
    rw [h.detections]
    exact List.nodup_range.filter _
  have hmem : d ∈ f.spawned.map Prod.fst ↔ d ∉ (f.strong ++ f.weak).map Prod.snd := by
    rw [h.detections, List.mem_filter, List.mem_range, decide_eq_true_eq]
    exact ⟨fun hd => hd.2, fun hno => ⟨hd, hno⟩⟩
  by_cases hpair : d ∈ (f.strong ++ f.weak).map Prod.snd
  · rw [List.count_eq_one_of_mem hnodup hpair,
      List.count_eq_zero_of_not_mem fun hs => hmem.1 hs hpair]
  · rw [List.count_eq_zero_of_not_mem hpair, List.count_eq_one_of_mem hspawned (hmem.2 hpair)]

/-- A track is hit at most once if the stages have no track in common. -/
theorem FrameSpec.hits_le_one (h : FrameSpec tracker dets f)
    (hdisjoint : (f.strong.map Prod.fst).Disjoint (f.weak.map Prod.fst)) (i : ℕ) :
    f.hits i ≤ 1 := by
  have hnodup : (f.strong.map Prod.fst ++ f.weak.map Prod.fst).Nodup := by
    rw [List.nodup_append']
    exact ⟨h.strong.1, h.weak.1, hdisjoint⟩
  rw [Frame.hits, ← List.count_append]
  exact List.nodup_iff_count_le_one.1 hnodup i

theorem FrameSpec.isAssociation_iff (h : FrameSpec tracker dets f) (hfresh : tracker.Fresh) :
    IsAssociation tracker dets f ↔
      (f.strong.map Prod.fst).Disjoint (f.weak.map Prod.fst) := by
  constructor
  · intro hassoc
    exact (isMatching_append_iff.1 hassoc.matching).2.1
  · intro hdisjoint
    refine
      { matching := isMatching_append_iff.2 ⟨⟨h.strong, h.weak⟩, hdisjoint, h.disjoint⟩
        pairs := h.live
        detections := fun d hd => h.count_detection hd
        streak := ?_ }
    intro t ht u hu hid
    obtain ⟨j, hj⟩ := List.mem_iff_getElem?.1 ht
    rcases h.mem_after hu with ⟨i, t', v, ht', hv, rfl⟩ | hnew
    · rw [Track.lifecycle_id, hv.id] at hid
      have hij := hfresh.eq_of_id ht' hj hid
      rw [hij, hj] at ht'
      cases ht'
      have hle := h.hits_le_one hdisjoint i
      rw [Track.lifecycle_hitStreak, hv.hitStreak]
      omega
    · have hge := (h.id_spawned hnew).1
      have hlt := hfresh.lt t ht
      omega

/-- **A track that both stages assign** is updated twice: its hits grow by two. -/
theorem FrameSpec.hitStreak_of_both (h : FrameSpec tracker dets f) {i : ℕ} {t : Track}
    (ht : tracker.tracks[i]? = some t) (hstrong : i ∈ f.strong.map Prod.fst)
    (hweak : i ∈ f.weak.map Prod.fst) :
    ∃ u ∈ f.after.tracks, u.id = t.id ∧ u.hitStreak = t.hitStreak + 2 := by
  have hhits : f.hits i = 2 := by
    rw [Frame.hits, List.count_eq_one_of_mem h.strong.1 hstrong,
      List.count_eq_one_of_mem h.weak.1 hweak]
  obtain ⟨v, hv, hold⟩ := h.exists_old ht
  rw [hhits] at hv
  refine ⟨v.lifecycle tracker.params, ?_, ?_, ?_⟩
  · rw [h.tracks, List.mem_filter, List.mem_append]
    refine ⟨.inl (List.mem_of_getElem? hold), ?_⟩
    rw [kept, decide_eq_true_eq, Track.lifecycle_timeSinceUpdate, hv.timeSinceUpdate]
    exact .inr (Nat.zero_le _)
  · rw [Track.lifecycle_id, hv.id]
  · rw [Track.lifecycle_hitStreak, hv.hitStreak]

end Association

/-! ### The weak stage -/

/-- `greedy_assign`, but for the pairs of the tracks that are not to be looked at. -/
def greedyAssignOf (keep : ℕ → Bool) (costs : List (List ℚ)) (threshold : ℚ) : List (ℕ × ℕ) :=
  let pairs := (candidates costs threshold).insertionSort fun x y => y.1 ≤ x.1
  assignLoop (pairs.filter fun p => keep p.2.1) (List.replicate costs.length false)
    (List.replicate (costs.head?.elim 0 List.length) false)

theorem mem_of_mem_assignLoop {pairs : List (ℚ × ℕ × ℕ)} {usedT usedD : List Bool} {p : ℕ × ℕ}
    (h : p ∈ assignLoop pairs usedT usedD) : ∃ c, (c, p.1, p.2) ∈ pairs := by
  induction pairs generalizing usedT usedD with
  | nil => cases h
  | cons q pairs ih =>
      rw [assignLoop] at h
      split at h
      · rcases List.mem_cons.1 h with rfl | h
        · exact ⟨q.1, List.mem_cons_self⟩
        · obtain ⟨c, hc⟩ := ih h
          exact ⟨c, List.mem_cons_of_mem _ hc⟩
      · obtain ⟨c, hc⟩ := ih h
        exact ⟨c, List.mem_cons_of_mem _ hc⟩

/-- Pairs that are not taken can be left out. -/
theorem assignLoop_filter_eq_iff {keep : ℕ → Bool} {pairs : List (ℚ × ℕ × ℕ)}
    {usedT usedD : List Bool} :
    assignLoop (pairs.filter fun p => keep p.2.1) usedT usedD = assignLoop pairs usedT usedD ↔
      ∀ p ∈ assignLoop pairs usedT usedD, keep p.1 = true := by
  constructor
  · intro heq p hp
    rw [← heq] at hp
    obtain ⟨c, hc⟩ := mem_of_mem_assignLoop hp
    exact (List.mem_filter.1 hc).2
  · induction pairs generalizing usedT usedD with
    | nil => exact fun _ => rfl
    | cons q pairs ih =>
        intro h
        rw [assignLoop] at h ⊢
        by_cases hkeep : keep q.2.1 = true
        · rw [List.filter_cons_of_pos (by exact hkeep), assignLoop]
          split
          · rename_i hfree
            rw [if_pos hfree] at h
            rw [ih fun p hp => h p (List.mem_cons_of_mem _ hp)]
          · rename_i hused
            rw [if_neg hused] at h
            exact ih h
        · -- the pair is not taken, or it would be kept
          rw [List.filter_cons_of_neg (by exact hkeep)]
          split
          · rename_i hfree
            rw [if_pos hfree] at h
            exact absurd (h _ List.mem_cons_self) hkeep
          · rename_i hused
            rw [if_neg hused] at h
            exact ih h

theorem greedyAssignOf_eq_iff {keep : ℕ → Bool} {costs : List (List ℚ)} {threshold : ℚ} :
    greedyAssignOf keep costs threshold = greedyAssign costs threshold ↔
      ∀ p ∈ greedyAssign costs threshold, keep p.1 = true := assignLoop_filter_eq_iff

/-- **The weak stage recovers tracks that the strong one has missed**: with the tracks that are not
deleted, it assigns as it would with those of them that are still to be assigned. -/
def WeakRecovers (tracker : Tracker) (dets : List Detection) (f : Frame) : Prop :=
  let live := live f.between.1
  let costs := costMatrix f.between.1 dets live (detIdx tracker.params dets f.between.2 1)
  greedyAssignOf (fun k => live.getD k 0 ∉ f.strong.map Prod.fst) costs tracker.params.minIou =
    greedyAssign costs tracker.params.minIou

instance (tracker : Tracker) (dets : List Detection) (f : Frame) :
    Decidable (WeakRecovers tracker dets f) :=
  inferInstanceAs (Decidable (greedyAssignOf _ _ _ = greedyAssign _ _))

theorem weakRecovers_iff {tracker : Tracker} {f : Frame} (hf : tracker.frame dets = some f) :
    WeakRecovers tracker dets f ↔ (f.strong.map Prod.fst).Disjoint (f.weak.map Prod.fst) := by
  obtain ⟨tracks₀, -, h⟩ := Option.bind_eq_some_iff.1 hf
  obtain ⟨⟨tracks₁, matched₁⟩, -, h⟩ := Option.bind_eq_some_iff.1 h
  obtain ⟨⟨tracks₂, matched₂⟩, -, h⟩ := Option.bind_eq_some_iff.1 h
  obtain ⟨⟨spawned, nextId⟩, -, h⟩ := Option.bind_eq_some_iff.1 h
  obtain ⟨tracks, -, h⟩ := Option.bind_eq_some_iff.1 h
  cases h
  rw [WeakRecovers]
  dsimp only
  rw [greedyAssignOf_eq_iff]
  generalize hcosts : costMatrix tracks₁ dets (live tracks₁)
    (detIdx tracker.params dets matched₁ 1) = costs
  have hweak : (stagePairs tracker.params dets tracks₁ matched₁ 1).map Prod.fst =
      (greedyAssign costs tracker.params.minIou).map fun p => (live tracks₁).getD p.1 0 := by
    rw [stagePairs]
    dsimp only
    split
    · rename_i hnone
      -- without weak detections there are no pairs
      rw [List.isEmpty_iff] at hnone
      rw [List.map_nil]
      refine (List.map_eq_nil_iff.2 (List.eq_nil_iff_forall_not_mem.2 fun p hp => ?_)).symm
      rw [← hcosts] at hp
      have hlt := (lt_of_mem_costMatrix hp).2
      rw [hnone] at hlt
      exact absurd hlt (Nat.not_lt_zero _)
    · rw [List.map_map, hcosts]
      rfl
  rw [hweak]
  constructor
  · intro h i hi hi'
    obtain ⟨p, hp, rfl⟩ := List.mem_map.1 hi'
    exact absurd hi (by simpa using h p hp)
  · intro h p hp
    rw [decide_eq_true_eq]
    exact fun hi => h hi (List.mem_map_of_mem hp)

/-- **Which frames assign each track at most once**: those whose weak stage recovers tracks that the
strong one has missed.  All else that an association should be, every frame is; and no id is given
out twice. -/
theorem isAssociation_iff_weakRecovers {params : TrackerParams} {frames : List (List Detection)}
    {dets : List Detection} {tracker : Tracker} {f : Frame}
    (h : exec Tracker.step (Tracker.new params) frames = some tracker)
    (hf : tracker.frame dets = some f) :
    (IsAssociation tracker dets f ↔ WeakRecovers tracker dets f) ∧
      (∀ d < dets.length,
        ((f.strong ++ f.weak).map Prod.snd).count d + (f.spawned.map Prod.fst).count d = 1) ∧
      ((Tracker.new params).ids (frames ++ [dets])).Nodup ∧
      (f.after.tracks.map Track.id).Nodup ∧
      ∀ t ∈ f.after.tracks, t.id ∈ (Tracker.new params).ids (frames ++ [dets]) := by
  have hspec := frameSpec hf
  have hfresh := fresh_of_exec h
  refine ⟨(hspec.isAssociation_iff hfresh).trans (weakRecovers_iff hf).symm,
    fun d hd => hspec.count_detection hd, ?_, (hspec.fresh hfresh).nodup, ?_⟩
  · obtain ⟨n, hn⟩ := ids_eq (Tracker.new params) (frames ++ [dets])
    rw [hn]
    exact List.nodup_range'
  · have hall : exec Tracker.step (Tracker.new params) (frames ++ [dets]) = some f.after := by
      rw [exec_append, h, Option.bind_some, exec_cons, step_eq, hf]
      rfl
    intro t ht
    exact (mem_ids_of_exec hall t ht).resolve_left List.not_mem_nil

/-- A strong and a weak detection in the same place. -/
def sameBox : List Detection := [⟨"person", 9 / 10, ⟨0, 0, 10, 10⟩⟩, ⟨"person", 3 / 10, ⟨0, 0, 10, 10⟩⟩]

/-- A track, and another strong detection of it. -/
theorem isAssociation_iff_weakRecovers_same :
    ∃ tracker f, exec Tracker.step (Tracker.new {}) [sameBox.take 1] = some tracker ∧
      tracker.frame (sameBox.take 1) = some f ∧ IsAssociation tracker (sameBox.take 1) f := by
  have hrun : ((exec Tracker.step (Tracker.new {}) [sameBox.take 1]).bind fun t =>
      (t.frame (sameBox.take 1)).map fun f => decide (WeakRecovers t (sameBox.take 1) f)) =
      some true := by decide +kernel
  obtain ⟨tracker, hexec, hframe⟩ := Option.bind_eq_some_iff.1 hrun
  obtain ⟨f, hf, hrecovers⟩ := Option.map_eq_some_iff.1 hframe
  exact ⟨tracker, f, hexec, hf,
    (isAssociation_iff_weakRecovers hexec hf).1.2 (of_decide_eq_true hrecovers)⟩

/-- **A strong and a weak detection of one track**: both update it. -/
theorem not_isAssociation : ¬ ∀ (params : TrackerParams) (frames : List (List Detection))
    (dets : List Detection) (tracker : Tracker) (f : Frame),
    exec Tracker.step (Tracker.new params) frames = some tracker → tracker.frame dets = some f →
      IsAssociation tracker dets f := by
  intro h
  have hrun : ((exec Tracker.step (Tracker.new {}) [sameBox.take 1]).bind fun t =>
      (t.frame sameBox).map fun f => f.strong ++ f.weak) = some [(0, 0), (0, 1)] := by
    decide +kernel
  obtain ⟨tracker, hexec, hframe⟩ := Option.bind_eq_some_iff.1 hrun
  obtain ⟨f, hf, hpairs⟩ := Option.map_eq_some_iff.1 hframe
  have hmatching := (h {} _ _ tracker f hexec hf).matching
  rw [hpairs] at hmatching
  exact absurd hmatching.1 (by decide)

end Tracking

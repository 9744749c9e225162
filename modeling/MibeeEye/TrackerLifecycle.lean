/-
**From a detection to a confirmed track.**

A track is confirmed when it has had enough hits, and only a confirmed track raises an alarm.  The
hits are counted and the count is never reset; a track that is not yet confirmed is deleted at its
second miss in a row, not at the first.  So the hits of a confirmed track are those of consecutive
frames only where no hit follows a miss.

Main definitions:

* `Tracking.HitAt` — a frame of a run assigned a detection to a track, or began it;
* `Tracking.ConfirmedByHits` — a track was confirmed by consecutive frames;
* `Tracking.Steady` — a frame that gives no track without confirmation a second hit at once, nor a
  hit after a miss.

Main results:

* `Tracking.FrameSpec.deleted_iff` — which missed tracks are deleted;
* `Tracking.consecutive_of_exec` — the invariant of a run of such frames;
* `Tracking.confirmed_after_consecutive_hits` — **where confirmation needs consecutive hits**.
-/

import MibeeEye.TrackerMatching

set_option relaxedAutoImplicit false
set_option autoImplicit false

namespace Tracking

open Machine

/-! ### The history of a run -/

/-- The tracks to which a frame assigned a detection, and those that it began. -/
def Frame.hitIds (tracker : Tracker) (f : Frame) : List ℕ :=
  (tracker.tracks.zipIdx.filter fun p => 0 < f.hits p.2).map (fun p => p.1.id) ++
    f.spawned.map fun p => p.2.id

/-- The tracks that a frame of a run hit. -/
def hitIds (params : TrackerParams) (frames : List (List Detection)) (k : ℕ) : List ℕ :=
  match exec Tracker.step (Tracker.new params) (frames.take k), frames[k]? with
  | some tracker, some dets =>
      match tracker.frame dets with
      | some f => f.hitIds tracker
      | none => []
  | _, _ => []

/-- **The frame `k` of a run assigned a detection to a track**, or began it. -/
def HitAt (params : TrackerParams) (frames : List (List Detection)) (k id : ℕ) : Prop :=
  id ∈ hitIds params frames k

/-- The tracks that are confirmed after the first frames of a run. -/
def confirmedIds (params : TrackerParams) (frames : List (List Detection)) (k : ℕ) : List ℕ :=
  match exec Tracker.step (Tracker.new params) (frames.take k) with
  | some tracker => (tracker.tracks.filter fun t => t.state = .confirmed).map Track.id
  | none => []

/-- **A track was confirmed by consecutive frames**: it was confirmed in a frame, and was hit in this
one and in those before it, as many as it takes. -/
def ConfirmedByHits (params : TrackerParams) (frames : List (List Detection)) (id : ℕ) : Prop :=
  ∃ k < frames.length, (id ∈ confirmedIds params frames (k + 1) ∧ id ∉ confirmedIds params frames k) ∧
    params.minHits ≤ k + 1 ∧ ∀ j < params.minHits, HitAt params frames (k - j) id

instance (params : TrackerParams) (frames : List (List Detection)) (k id : ℕ) :
    Decidable (HitAt params frames k id) := inferInstanceAs (Decidable (_ ∈ _))

instance (params : TrackerParams) (frames : List (List Detection)) (id : ℕ) :
    Decidable (ConfirmedByHits params frames id) :=
  inferInstanceAs (Decidable (∃ k < frames.length, _ ∧ _ ∧ ∀ j < params.minHits, _))

section History

variable {params : TrackerParams} {frames : List (List Detection)} {dets : List Detection}
  {tracker : Tracker} {f : Frame} {k id : ℕ}

theorem mem_hitIds_iff : id ∈ f.hitIds tracker ↔
    (∃ i t, tracker.tracks[i]? = some t ∧ 0 < f.hits i ∧ t.id = id) ∨
      id ∈ f.spawned.map fun p => p.2.id := by
  rw [Frame.hitIds, List.mem_append, List.mem_map]
  refine or_congr_left ⟨?_, ?_⟩
  · rintro ⟨⟨t, i⟩, hmem, rfl⟩
    rw [List.mem_filter, List.mk_mem_zipIdx_iff_getElem?, decide_eq_true_eq] at hmem
    exact ⟨i, t, hmem.1, hmem.2, rfl⟩
  · rintro ⟨i, t, ht, hhits, rfl⟩
    refine ⟨(t, i), ?_, rfl⟩
    rw [List.mem_filter, List.mk_mem_zipIdx_iff_getElem?, decide_eq_true_eq]
    exact ⟨ht, hhits⟩

/-- What was hit before is not changed by a frame more. -/
theorem HitAt.append (h : HitAt params frames k id) (hk : k < frames.length) (dets : List Detection) :
    HitAt params (frames ++ [dets]) k id := by
  rw [HitAt, hitIds] at h ⊢
  rwa [List.take_append_of_le_length hk.le, List.getElem?_append_left hk]

theorem confirmedIds_append (hk : k ≤ frames.length) (dets : List Detection) :
    confirmedIds params (frames ++ [dets]) k = confirmedIds params frames k := by
  rw [confirmedIds, confirmedIds, List.take_append_of_le_length hk]

theorem ConfirmedByHits.append (h : ConfirmedByHits params frames id) (dets : List Detection) :
    ConfirmedByHits params (frames ++ [dets]) id := by
  obtain ⟨k, hk, ⟨hafter, hbefore⟩, hle, hhits⟩ := h
  refine ⟨k, ?_, ⟨?_, ?_⟩, hle, fun j hj => (hhits j hj).append (by omega) dets⟩
  · rw [List.length_append]
    omega
  · rwa [confirmedIds_append hk]
  · rwa [confirmedIds_append hk.le]

/-- The last frame of a run. -/
theorem hitAt_last (h : exec Tracker.step (Tracker.new params) frames = some tracker)
    (hf : tracker.frame dets = some f) :
    HitAt params (frames ++ [dets]) frames.length id ↔ id ∈ f.hitIds tracker := by
  rw [HitAt, hitIds, List.take_append_of_le_length (le_refl _), List.take_length, h,
    List.getElem?_append_right (le_refl _), Nat.sub_self, List.getElem?_cons_zero]
  dsimp only
  rw [hf]

theorem mem_confirmedIds (h : exec Tracker.step (Tracker.new params) frames = some tracker) :
    id ∈ confirmedIds params frames frames.length ↔
      ∃ t ∈ tracker.tracks, t.state = .confirmed ∧ t.id = id := by
  rw [confirmedIds, List.take_length, h]
  simp [and_assoc]

end History

/-! ### One frame -/

section Frame

variable {params : TrackerParams} {n : ℕ} {t v : Track}

/-- The state of a track at the end of a frame. -/
theorem Track.Hits.lifecycle_state (h : t.Hits params n v) :
    (v.lifecycle params).state =
      if v.state = .tentative ∧ n = 0 ∧ t.timeSinceUpdate ≠ 0 ∨
        v.state = .confirmed ∧ n = 0 ∧ params.maxAge < t.timeSinceUpdate + 1 then .deleted
      else v.state := by
  rw [Track.lifecycle_state]
  refine if_congr ?_ rfl rfl
  rw [h.timeSinceUpdate]
  by_cases hn : n = 0
  · rw [if_pos hn]
    refine or_congr (and_congr_right fun _ => ?_) (and_congr_right fun _ => ?_)
    · exact ⟨fun hlt => ⟨hn, by omega⟩, fun hc => by omega⟩
    · exact ⟨fun hlt => ⟨hn, hlt⟩, fun hc => hc.2⟩
  · rw [if_neg hn]
    refine or_congr (and_congr_right fun _ => ?_) (and_congr_right fun _ => ?_)
    · exact ⟨fun hlt => by omega, fun hc => absurd hc.1 hn⟩
    · exact ⟨fun hlt => by omega, fun hc => absurd hc.1 hn⟩

/-- A track that is deleted stays so. -/
theorem Track.Hits.deleted (h : t.Hits params n v) (ht : t.state = .deleted) :
    (v.lifecycle params).state = .deleted := by
  have hv : v.state = .deleted := by rw [h.state, if_neg (by simp [ht]), ht]
  rw [h.lifecycle_state, hv]
  simp

/-- A track without confirmation had none before. -/
theorem Track.Hits.tentative (h : t.Hits params n v)
    (hu : (v.lifecycle params).state = .tentative) : t.state = .tentative := by
  rw [h.lifecycle_state] at hu
  split at hu
  · cases hu
  · rw [h.state] at hu
    split at hu
    · cases hu
    · exact hu

/-- A confirmed track was confirmed before, or is by the hits of this frame. -/
theorem Track.Hits.confirmed (h : t.Hits params n v)
    (hu : (v.lifecycle params).state = .confirmed) :
    t.state = .confirmed ∨ n ≠ 0 ∧ t.state = .tentative ∧ params.minHits ≤ t.hitStreak + n := by
  rw [h.lifecycle_state] at hu
  split at hu
  · cases hu
  · rw [h.state] at hu
    split at hu
    · rename_i hc
      exact .inr hc
    · exact .inl hu

/-- **A miss**: a track without confirmation is deleted if it was missed before. -/
theorem Track.Hits.missed (h : t.Hits params 0 v) (ht : t.state = .tentative) :
    (v.lifecycle params).state = if t.timeSinceUpdate ≠ 0 then .deleted else .tentative := by
  have hv : v.state = .tentative := by rw [h.state, if_neg (by simp), ht]
  rw [h.lifecycle_state, hv]
  simp

variable {dets : List Detection} {tracker : Tracker} {f : Frame} {i : ℕ}

/-- **Which missed tracks are deleted**: those that were missed before. -/
theorem FrameSpec.deleted_iff (h : FrameSpec tracker dets f) (hfresh : tracker.Fresh)
    (hi : tracker.tracks[i]? = some t) (ht : t.state = .tentative) (hmissed : f.hits i = 0) :
    (∀ u ∈ f.after.tracks, u.id = t.id → u.state = .deleted) ↔ t.timeSinceUpdate ≠ 0 := by
  obtain ⟨v, hv, hold⟩ := h.exists_old hi
  rw [hmissed] at hv
  have hstate := hv.missed ht
  constructor
  · intro hall htime
    -- a track that is not deleted is kept
    rw [if_neg (not_not.2 htime)] at hstate
    have hmem : v.lifecycle tracker.params ∈ f.after.tracks := by
      rw [h.tracks, List.mem_filter, List.mem_append, kept, decide_eq_true_eq]
      exact ⟨.inl (List.mem_of_getElem? hold), .inl (by rw [hstate]; decide)⟩
    have hdeleted := hall _ hmem (by rw [Track.lifecycle_id, hv.id])
    rw [hstate] at hdeleted
    cases hdeleted
  · intro htime u hu hid
    rcases h.mem_after hu with ⟨j, t', v', hj, hv', rfl⟩ | hnew
    · rw [Track.lifecycle_id, hv'.id] at hid
      obtain rfl := hfresh.eq_of_id hj hi hid
      rw [hi] at hj
      cases hj
      rw [hmissed] at hv'
      rw [hv'.missed ht, if_pos htime]
    · have hge := (h.id_spawned hnew).1
      have hlt := hfresh.lt t (List.mem_of_getElem? hi)
      omega

/-- A track that is deleted is not hit. -/
theorem FrameSpec.hits_deleted (h : FrameSpec tracker dets f) (hi : tracker.tracks[i]? = some t)
    (ht : t.state = .deleted) : f.hits i = 0 := by
  have hno : ∀ pairs, pairs ⊆ f.strong ++ f.weak → i ∉ pairs.map Prod.fst := by
    intro pairs hsub hmem
    obtain ⟨p, hp, rfl⟩ := List.mem_map.1 hmem
    obtain ⟨⟨u, hu, hstate⟩, -⟩ := h.live p (hsub hp)
    rw [hi] at hu
    cases hu
    exact hstate ht
  rw [Frame.hits, List.count_eq_zero_of_not_mem (hno _ (List.subset_append_left _ _)),
    List.count_eq_zero_of_not_mem (hno _ (List.subset_append_right _ _))]

end Frame

/-- A frame that hits no track that is not yet confirmed twice, nor one that was missed before. -/
def Steady (tracker : Tracker) (f : Frame) : Prop :=
  ∀ p ∈ tracker.tracks.zipIdx, p.1.state = .tentative →
    f.hits p.2 ≤ 1 ∧ (p.1.timeSinceUpdate ≠ 0 → f.hits p.2 = 0)

instance (tracker : Tracker) (f : Frame) : Decidable (Steady tracker f) :=
  inferInstanceAs (Decidable (∀ p ∈ tracker.tracks.zipIdx, _))

/-! ### Runs -/

/-- The hits of a track were consecutive: of one without confirmation the last ones, and of a
confirmed one those that it took. -/
def Consecutive (params : TrackerParams) (frames : List (List Detection)) (t : Track) : Prop :=
  (t.state = .tentative → t.timeSinceUpdate = 0 →
    t.hitStreak ≤ frames.length ∧
      ∀ j < t.hitStreak, HitAt params frames (frames.length - 1 - j) t.id) ∧
  (t.state = .confirmed → ConfirmedByHits params frames t.id)

section Run

variable {params : TrackerParams} {frames : List (List Detection)} {dets : List Detection}
  {tracker : Tracker} {f : Frame}

/-- The hits up to the last frame, and the last frame. -/
theorem hitAt_concat {id streak : ℕ}
    (hbefore : ∀ j < streak, HitAt params frames (frames.length - 1 - j) id)
    (hlen : streak ≤ frames.length)
    (hlast : HitAt params (frames ++ [dets]) frames.length id) :
    ∀ j < streak + 1, HitAt params (frames ++ [dets]) (frames.length - j) id := by
  intro j hj
  cases j with
  | zero => exact hlast
  | succ j =>
      have hplace : frames.length - (j + 1) = frames.length - 1 - j := by omega
      rw [hplace]
      exact (hbefore j (by omega)).append (by omega) dets

/-- **One frame**: the hits stay consecutive. -/
theorem consecutive_frame (h : exec Tracker.step (Tracker.new params) frames = some tracker)
    (hf : tracker.frame dets = some f) (hsteady : Steady tracker f) (hparams : tracker.params = params)
    (hall : ∀ t ∈ tracker.tracks, Consecutive params frames t) :
    ∀ u ∈ f.after.tracks, Consecutive params (frames ++ [dets]) u := by
  have hspec := frameSpec hf
  have hfresh := fresh_of_exec h
  have hafter : exec Tracker.step (Tracker.new params) (frames ++ [dets]) = some f.after := by
    rw [exec_append, h, Option.bind_some, exec_cons, step_eq, hf]
    rfl
  have hlen : (frames ++ [dets]).length = frames.length + 1 := by
    rw [List.length_append, List.length_singleton]
  intro u hu
  rcases hspec.mem_after hu with ⟨i, t, v, hi, hv, rfl⟩ | hnew
  · have ht := hall t (List.mem_of_getElem? hi)
    have hid : (v.lifecycle tracker.params).id = t.id := by rw [Track.lifecycle_id, hv.id]
    -- a hit of a track without confirmation goes on with its hits
    have hgoesOn : t.state = .tentative → f.hits i ≠ 0 →
        f.hits i = 1 ∧ t.hitStreak ≤ frames.length ∧
          ∀ j < t.hitStreak + 1, HitAt params (frames ++ [dets]) (frames.length - j) t.id := by
      intro htentative hhits
      obtain ⟨hone, hmissed⟩ : f.hits i ≤ 1 ∧ (t.timeSinceUpdate ≠ 0 → f.hits i = 0) :=
        hsteady (t, i) (List.mk_mem_zipIdx_iff_getElem?.2 hi) htentative
      have htime : t.timeSinceUpdate = 0 := by
        by_contra htime
        exact hhits (hmissed htime)
      obtain ⟨hstreak, hbefore⟩ := ht.1 htentative htime
      refine ⟨by omega, hstreak, hitAt_concat hbefore hstreak ((hitAt_last h hf).2 ?_)⟩
      exact mem_hitIds_iff.2 (.inl ⟨i, t, hi, by omega, rfl⟩)
    constructor
    · intro htentative htime
      have htentative' := hv.tentative htentative
      rw [Track.lifecycle_timeSinceUpdate, hv.timeSinceUpdate] at htime
      have hhits : f.hits i ≠ 0 := by
        intro hzero
        rw [if_pos hzero] at htime
        omega
      obtain ⟨hone, hstreak, hhitAt⟩ := hgoesOn htentative' hhits
      rw [hid, Track.lifecycle_hitStreak, hv.hitStreak, hone, hlen]
      exact ⟨by omega, fun j hj => by simpa using hhitAt j hj⟩
    · intro hconfirmed
      rw [hid]
      rcases hv.confirmed hconfirmed with hbefore | ⟨hhits, htentative, hmin⟩
      · exact (ht.2 hbefore).append dets
      · obtain ⟨hone, hstreak, hhitAt⟩ := hgoesOn htentative hhits
        rw [hone, hparams] at hmin
        refine ⟨frames.length, by omega, ⟨?_, ?_⟩, by omega, fun j hj => hhitAt j (by omega)⟩
        · rw [← hlen, mem_confirmedIds hafter]
          exact ⟨_, hu, hconfirmed, hid⟩
        · -- the one track with this id was not confirmed
          rw [confirmedIds_append (le_refl _), mem_confirmedIds h]
          rintro ⟨w, hw, hstate, hwid⟩
          obtain ⟨j, hj⟩ := List.mem_iff_getElem?.1 hw
          obtain rfl := hfresh.eq_of_id hj hi hwid
          rw [hi] at hj
          cases hj
          rw [htentative] at hstate
          cases hstate
  · obtain ⟨p, hp, rfl⟩ := List.mem_map.1 hnew
    obtain ⟨hstate, hstreak, -⟩ := hspec.new p hp
    constructor
    · intro _ _
      rw [hstreak, hlen]
      refine ⟨by omega, fun j hj => ?_⟩
      obtain rfl : j = 0 := by omega
      refine (hitAt_last h hf).2 (mem_hitIds_iff.2 (.inr ?_))
      exact List.mem_map_of_mem hp
    · intro hconfirmed
      rw [hstate] at hconfirmed
      cases hconfirmed

theorem params_of_exec (h : exec Tracker.step (Tracker.new params) frames = some tracker) :
    tracker.params = params := by
  refine exec_invariant (I := fun s => s.params = params) (P := fun _ => True) ?_
    (fun _ _ => trivial) rfl h
  intro tracker dets next _ hparams hnext
  obtain ⟨f, hf, rfl⟩ := step_eq_some_iff.1 hnext
  rw [(frameSpec hf).params, hparams]

/-- **All frames**: the hits of every track were consecutive. -/
theorem consecutive_of_exec (h : exec Tracker.step (Tracker.new params) frames = some tracker)
    (hsteady : ∀ u dets f, Occurs Tracker.step (Tracker.new params) frames u dets →
      u.frame dets = some f → Steady u f) :
    ∀ t ∈ tracker.tracks, Consecutive params frames t := by
  induction frames using List.reverseRecOn generalizing tracker with
  | nil =>
      cases h
      exact fun t ht => absurd ht List.not_mem_nil
  | append_singleton frames dets ih =>
      rw [exec_append] at h
      obtain ⟨u, hu, h⟩ := Option.bind_eq_some_iff.1 h
      rw [exec_cons] at h
      obtain ⟨next, hnext, h⟩ := Option.bind_eq_some_iff.1 h
      cases h
      obtain ⟨f, hf, rfl⟩ := step_eq_some_iff.1 hnext
      refine consecutive_frame hu hf ?_ (params_of_exec hu) (ih hu fun w dets' f' hw => ?_)
      · exact hsteady u dets f ⟨frames, List.prefix_refl _, hu⟩ hf
      · exact hsteady w dets' f' hw.append_right

/-- A track with this id is deleted, or was missed without confirmation. -/
def Lost (id : ℕ) (tracker : Tracker) : Prop :=
  (tracker.Fresh ∧ id < tracker.nextId) ∧ ∀ t ∈ tracker.tracks, t.id = id →
    t.state = .deleted ∨ t.state = .tentative ∧ t.timeSinceUpdate ≠ 0

theorem FrameSpec.nextId_le (h : FrameSpec tracker dets f) : tracker.nextId ≤ f.after.nextId := by
  rw [h.nextId]
  omega

/-- A track is lost by a miss. -/
theorem FrameSpec.lost_of_missed (h : FrameSpec tracker dets f) (hfresh : tracker.Fresh) {i : ℕ}
    {t : Track} (hi : tracker.tracks[i]? = some t) (ht : t.state = .tentative)
    (hmissed : f.hits i = 0) : Lost t.id f.after := by
  have hlt := hfresh.lt t (List.mem_of_getElem? hi)
  refine ⟨⟨h.fresh hfresh, hlt.trans_le h.nextId_le⟩, fun u hu hid => ?_⟩
  rcases h.mem_after hu with ⟨j, t', v, hj, hv, rfl⟩ | hnew
  · rw [Track.lifecycle_id, hv.id] at hid
    obtain rfl := hfresh.eq_of_id hj hi hid
    rw [hi] at hj
    cases hj
    rw [hmissed] at hv
    rw [Track.lifecycle_timeSinceUpdate, hv.timeSinceUpdate, hv.missed ht, if_pos rfl]
    by_cases htime : t.timeSinceUpdate = 0
    · rw [if_neg (not_not.2 htime)]
      exact .inr ⟨rfl, Nat.succ_ne_zero _⟩
    · rw [if_pos htime]
      exact .inl rfl
  · have hge := (h.id_spawned hnew).1
    omega

/-- A track that is lost stays so. -/
theorem FrameSpec.lost (h : FrameSpec tracker dets f) (hsteady : Steady tracker f) {id : ℕ}
    (hlost : Lost id tracker) : Lost id f.after := by
  obtain ⟨⟨hfresh, hlt⟩, hall⟩ := hlost
  refine ⟨⟨h.fresh hfresh, hlt.trans_le h.nextId_le⟩, fun u hu hid => ?_⟩
  rcases h.mem_after hu with ⟨i, t, v, hi, hv, rfl⟩ | hnew
  · rw [Track.lifecycle_id, hv.id] at hid
    rcases hall t (List.mem_of_getElem? hi) hid with hdeleted | ⟨htentative, htime⟩
    · exact .inl (hv.deleted hdeleted)
    · have hmissed := (hsteady (t, i) (List.mk_mem_zipIdx_iff_getElem?.2 hi) htentative).2 htime
      rw [hmissed] at hv
      rw [hv.missed htentative, if_pos htime]
      exact .inl rfl
  · have hge := (h.id_spawned hnew).1
    omega

end Run

/-- **Where confirmation needs consecutive hits**: in every run whose frames hit no track without
confirmation twice, and none that was missed before, a confirmed track was confirmed by consecutive
frames, and a track that was missed without confirmation is never confirmed.  In any run, the frame
that misses such a track deletes it just if the frame before has missed it too. -/
theorem confirmed_after_consecutive_hits {params : TrackerParams} {frames : List (List Detection)}
    {last : Tracker} (h : exec Tracker.step (Tracker.new params) frames = some last) :
    (∀ pre dets post u f, frames = pre ++ dets :: post →
      exec Tracker.step (Tracker.new params) pre = some u → u.frame dets = some f →
      ∀ i t, u.tracks[i]? = some t → t.state = .tentative → f.hits i = 0 →
        ((∀ v ∈ f.after.tracks, v.id = t.id → v.state = .deleted) ↔ t.timeSinceUpdate ≠ 0)) ∧
    ((∀ u dets f, Occurs Tracker.step (Tracker.new params) frames u dets →
        u.frame dets = some f → Steady u f) →
      (∀ t ∈ last.tracks, t.state = .confirmed → ConfirmedByHits params frames t.id) ∧
      ∀ pre dets post u f, frames = pre ++ dets :: post →
        exec Tracker.step (Tracker.new params) pre = some u → u.frame dets = some f →
        ∀ i t, u.tracks[i]? = some t → t.state = .tentative → f.hits i = 0 →
          ∀ w, Passes Tracker.step f.after post w → ∀ v ∈ w.tracks, v.id = t.id →
            v.state ≠ .confirmed) := by
  refine ⟨?_, fun hsteady => ⟨fun t ht => (consecutive_of_exec h hsteady t ht).2, ?_⟩⟩
  · intro pre dets post u f _ hu hf i t hi ht hmissed
    exact (frameSpec hf).deleted_iff (fresh_of_exec hu) hi ht hmissed
  · rintro pre dets post u f rfl hu hf i t hi ht hmissed w hw
    have hafter : exec Tracker.step (Tracker.new params) (pre ++ [dets]) = some f.after := by
      rw [exec_append, hu, Option.bind_some, exec_cons, step_eq, hf]
      rfl
    have hlost : Lost t.id w := by
      refine passes_induction ?_ ((frameSpec hf).lost_of_missed (fresh_of_exec hu) hi ht hmissed) hw
      intro x dets' y hx hlost hy
      obtain ⟨g, hg, rfl⟩ := step_eq_some_iff.1 hy
      have hoccurs := hx.of_append hafter
      rw [List.append_assoc] at hoccurs
      exact (frameSpec hg).lost (hsteady x dets' g hoccurs hg) hlost
    intro v hv hid hconfirmed
    rcases hlost.2 v hv hid with hdeleted | ⟨htentative, -⟩
    · rw [hconfirmed] at hdeleted
      cases hdeleted
    · rw [hconfirmed] at htentative
      cases htentative

/-- A detection in each of two frames. -/
theorem confirmed_after_consecutive_hits_two :
    ∃ last, exec Tracker.step (Tracker.new {}) [sameBox.take 1, sameBox.take 1] = some last ∧
      ∀ t ∈ last.tracks, t.state = .confirmed →
        ConfirmedByHits {} [sameBox.take 1, sameBox.take 1] t.id := by
  obtain ⟨last, hlast⟩ : ∃ last, exec Tracker.step (Tracker.new {})
      [sameBox.take 1, sameBox.take 1] = some last :=
    Option.isSome_iff_exists.1 (by decide +kernel)
  refine ⟨last, hlast, ((confirmed_after_consecutive_hits hlast).2 ?_).1⟩
  have hall : along Tracker.step (fun u dets => (u.frame dets).all fun f => decide (Steady u f))
      (Tracker.new {}) [sameBox.take 1, sameBox.take 1] = true := by decide +kernel
  intro u dets f hu hf
  have hcheck := forall_occurs_of_along hall u dets hu
  rw [hf] at hcheck
  exact of_decide_eq_true hcheck

/-- **A detection, none, and a detection again**: the track is confirmed, and is not deleted when it
is missed. -/
theorem confirmed_across_gap :
    (¬ ∀ (params : TrackerParams) (frames : List (List Detection)) (last : Tracker),
      exec Tracker.step (Tracker.new params) frames = some last →
        ∀ t ∈ last.tracks, t.state = .confirmed → ConfirmedByHits params frames t.id) ∧
    ¬ ∀ (params : TrackerParams) (frames : List (List Detection)) (dets : List Detection)
      (tracker : Tracker) (f : Frame),
      exec Tracker.step (Tracker.new params) frames = some tracker → tracker.frame dets = some f →
        ∀ i t, tracker.tracks[i]? = some t → t.state = .tentative → f.hits i = 0 →
          ∀ v ∈ f.after.tracks, v.id = t.id → v.state = .deleted := by
  constructor
  · intro h
    have hrun : (exec Tracker.step (Tracker.new {}) [sameBox.take 1, [], sameBox.take 1]).map
        (fun last => last.tracks.map fun t => (t.id, t.state)) = some [(1, .confirmed)] := by
      decide +kernel
    have hno : ¬ ConfirmedByHits {} [sameBox.take 1, [], sameBox.take 1] 1 := by decide +kernel
    obtain ⟨last, hlast, htracks⟩ := Option.map_eq_some_iff.1 hrun
    obtain ⟨t, ht, heq⟩ := List.mem_map.1 (htracks ▸ List.mem_singleton_self (1, TrackState.confirmed))
    obtain ⟨hid, hstate⟩ := Prod.mk.inj heq
    exact hno (hid ▸ h {} _ last hlast t ht hstate)
  · intro h
    have hrun : ((exec Tracker.step (Tracker.new {}) [sameBox.take 1]).bind fun tracker =>
        (tracker.frame []).map fun f => (tracker.tracks.map fun t => (t.id, t.state),
          f.hits 0, f.after.tracks.map fun t => (t.id, t.state))) =
        some ([(1, .tentative)], 0, [(1, .tentative)]) := by decide +kernel
    obtain ⟨tracker, htracker, hf⟩ := Option.bind_eq_some_iff.1 hrun
    obtain ⟨f, hf, heq⟩ := Option.map_eq_some_iff.1 hf
    obtain ⟨hbefore, heq⟩ := Prod.mk.inj heq
    obtain ⟨hhits, hafter⟩ := Prod.mk.inj heq
    obtain ⟨t, ht, hteq⟩ := List.map_eq_singleton_iff.1 hbefore
    obtain ⟨v, hv, hveq⟩ := List.map_eq_singleton_iff.1 hafter
    obtain ⟨htid, htstate⟩ := Prod.mk.inj hteq
    obtain ⟨hvid, hvstate⟩ := Prod.mk.inj hveq
    have hdeleted := h {} _ _ tracker f htracker hf 0 t (by rw [ht]; rfl) htstate hhits v
      (by rw [hv]; exact List.mem_singleton_self v) (hvid.trans htid.symm)
    rw [hvstate] at hdeleted
    cases hdeleted

end Tracking

/-
**Tracking by detection.**

`crates/streaming/src/ai/tracking.rs`: a tracker keeps one track for each object of a camera.  A frame
moves all tracks to where they are expected, assigns detections to them, first the strong ones and
then the weak ones, by decreasing overlap, deletes tracks that were missed for too long, and begins a
track for each detection that was assigned to none.

Boxes, overlaps and confidences are exact rationals.  A counter that overflows is a panic, and the
frame is not processed.

Main definitions:

* `Tracking.greedyAssign` — the assignment of one stage;
* `Tracking.Tracker.frame`, `Tracking.Tracker.update` — one frame;
* `Tracking.IsMatching` — pairs of which no two have a side in common.

Main results:

* `Tracking.isMatching_greedyAssign` — the assignment of one stage is a matching;
* `Tracking.isMatching_stagePairs` — so it is as pairs of a track and a detection;
* `Tracking.getElem?_applyPairs` — what a matching does to a track.
-/

import Mathlib.Algebra.Order.Ring.Rat
import Mathlib.Data.List.GetD
import Mathlib.Data.List.Sort
import MibeeEye.StepMachine

set_option relaxedAutoImplicit false
set_option autoImplicit false

namespace Tracking

/-! ### Boxes -/

/-- `[x, y, w, h]` -/
structure Bbox (K : Type) where
  x : K
  y : K
  w : K
  h : K
  deriving DecidableEq, Repr

/-- `[cx, cy, w, h]` -/
structure CenterBox where
  cx : ℚ
  cy : ℚ
  w : ℚ
  h : ℚ
  deriving DecidableEq, Repr

/-- `bbox_center` -/
def bboxCenter (b : Bbox ℚ) : CenterBox := ⟨b.x + b.w / 2, b.y + b.h / 2, b.w, b.h⟩

/-- `center_bbox` -/
def centerBbox (c : CenterBox) : Bbox ℚ := ⟨c.cx - c.w / 2, c.cy - c.h / 2, c.w, c.h⟩

/-- `f32_bbox` -/
def f32Bbox (b : Bbox ℕ) : Bbox ℚ := ⟨b.x, b.y, b.w, b.h⟩

/-- **`iou`**: the intersection of two boxes over their union. -/
def iou (a b : Bbox ℚ) : ℚ :=
  let ix1 := max a.x b.x
  let iy1 := max a.y b.y
  let ix2 := min (a.x + a.w) (b.x + b.w)
  let iy2 := min (a.y + a.h) (b.y + b.h)
  let iw := max (ix2 - ix1) 0
  let ih := max (iy2 - iy1) 0
  let inter := iw * ih
  let union := a.w * a.h + b.w * b.h - inter
  if union ≤ 0 then 0 else inter / union

/-- `KalmanState` -/
structure KalmanState where
  pos : CenterBox
  vel : ℚ × ℚ
  deriving DecidableEq, Repr

/-- `KalmanState::from_bbox` -/
def KalmanState.fromBbox (bbox : Bbox ℚ) : KalmanState := ⟨bboxCenter bbox, 0, 0⟩

/-- `KalmanState::predict` -/
def KalmanState.predict (kf : KalmanState) : KalmanState :=
  { kf with pos := { kf.pos with cx := kf.pos.cx + kf.vel.1, cy := kf.pos.cy + kf.vel.2 } }

/-- `KalmanState::update` -/
def KalmanState.update (kf : KalmanState) (observed : Bbox ℚ) : KalmanState :=
  let o := bboxCenter observed
  let alpha : ℚ := 6 / 10
  let blend (o p : ℚ) : ℚ := alpha * o + (1 - alpha) * p
  let prev := kf.pos
  let pos : CenterBox :=
    ⟨blend o.cx prev.cx, blend o.cy prev.cy, blend o.w prev.w, blend o.h prev.h⟩
  { pos
    vel := (1 / 2 * (pos.cx - prev.cx) + 1 / 2 * kf.vel.1,
      1 / 2 * (pos.cy - prev.cy) + 1 / 2 * kf.vel.2) }

/-- `KalmanState::predicted_bbox` -/
def KalmanState.predictedBbox (kf : KalmanState) : Bbox ℚ := centerBbox kf.pos

/-! ### Tracks -/

/-- `Detection` -/
structure Detection where
  label : String
  confidence : ℚ
  bbox : Bbox ℕ
  deriving DecidableEq, Repr

/-- `TrackerParams` -/
structure TrackerParams where
  highConfidence : ℚ := 1 / 2
  maxAge : ℕ := 10
  minHits : ℕ := 2
  minIou : ℚ := 3 / 10
  deriving DecidableEq, Repr

/-- `TrackState` -/
inductive TrackState
  | tentative
  | confirmed
  | deleted
  deriving DecidableEq, Repr

/-- `Track` -/
structure Track where
  id : ℕ
  label : String
  bbox : Bbox ℚ
  confidence : ℚ
  state : TrackState
  hitStreak : ℕ
  age : ℕ
  timeSinceUpdate : ℕ
  kf : KalmanState
  deriving DecidableEq, Repr

/-- `+= 1` for a counter of `w` bits. -/
def increment (w n : ℕ) : Option ℕ := if n + 1 < 2 ^ w then some (n + 1) else none

theorem increment_eq_some {w n m : ℕ} (h : increment w n = some m) : m = n + 1 := by
  rw [increment] at h
  split at h
  · exact (Option.some.inj h).symm
  · cases h

theorem increment_eq {w n : ℕ} (h : n + 1 < 2 ^ w) : increment w n = some (n + 1) := if_pos h

/-- The beginning of `Tracker::update`, for one track. -/
def Track.predict (t : Track) : Option Track := do
  let age ← increment 32 t.age
  let timeSinceUpdate ← increment 32 t.timeSinceUpdate
  return { t with kf := t.kf.predict, age, timeSinceUpdate }

/-- The body of the loop over the assignment: a detection updates a track. -/
def Track.hit (params : TrackerParams) (det : Detection) (t : Track) : Option Track := do
  let kf := t.kf.update (f32Bbox det.bbox)
  let hitStreak ← increment 32 t.hitStreak
  return { t with
    kf
    bbox := centerBbox kf.pos
    confidence := det.confidence
    label := det.label
    hitStreak
    timeSinceUpdate := 0
    state := if t.state = .tentative ∧ params.minHits ≤ hitStreak then .confirmed else t.state }

/-- The lifecycle rules, for one track. -/
def Track.lifecycle (params : TrackerParams) (t : Track) : Track :=
  let t := if t.state = .tentative ∧ 1 < t.timeSinceUpdate then { t with state := .deleted } else t
  if t.state = .confirmed ∧ params.maxAge < t.timeSinceUpdate then { t with state := .deleted } else t

/-- A new track. -/
def Track.spawn (id : ℕ) (det : Detection) : Track :=
  let bbox := f32Bbox det.bbox
  { id
    label := det.label
    bbox
    confidence := det.confidence
    state := .tentative
    hitStreak := 1
    age := 1
    timeSinceUpdate := 0
    kf := .fromBbox bbox }

/-! ### The assignment -/

/-- The pairs that reach the threshold, with their costs. -/
def candidates (costs : List (List ℚ)) (threshold : ℚ) : List (ℚ × ℕ × ℕ) :=
  costs.zipIdx.flatMap fun (row, t) =>
    row.zipIdx.filterMap fun (c, d) => if threshold ≤ c then some (c, t, d) else none

/-- The loop of `greedy_assign`. -/
@[grind =] def assignLoop : List (ℚ × ℕ × ℕ) → List Bool → List Bool → List (ℕ × ℕ)
  | [], _, _ => []
  | (_, t, d) :: pairs, usedT, usedD =>
      if !usedT.getD t true && !usedD.getD d true then
        (t, d) :: assignLoop pairs (usedT.set t true) (usedD.set d true)
      else assignLoop pairs usedT usedD

/-- **`greedy_assign`.**  The sort is stable, and by decreasing cost. -/
def greedyAssign (costs : List (List ℚ)) (threshold : ℚ) : List (ℕ × ℕ) :=
  let pairs := (candidates costs threshold).insertionSort fun x y => y.1 ≤ x.1
  assignLoop pairs (List.replicate costs.length false)
    (List.replicate (costs.head?.elim 0 List.length) false)

/-- `det_idx`: the detections of a stage that are not yet assigned. -/
def detIdx (params : TrackerParams) (dets : List Detection) (matched : List Bool) (stage : ℕ) :
    List ℕ :=
  (List.range dets.length).filter fun i =>
    !matched.getD i true &&
      dets[i]?.any fun det => (stage == 0) == decide (params.highConfidence ≤ det.confidence)

/-- `live`: the tracks that are not deleted. -/
def live (tracks : List Track) : List ℕ :=
  (tracks.zipIdx.filter fun (t, _) => t.state != .deleted).map Prod.snd

/-- A cost: the overlap of a track and a detection. -/
def cost (tracks : List Track) (dets : List Detection) (ti di : ℕ) : ℚ :=
  match tracks[ti]?, dets[di]? with
  | some t, some det => iou t.kf.predictedBbox (f32Bbox det.bbox)
  | _, _ => 0

/-- `costs`: the matrix of some tracks and detections. -/
def costMatrix (tracks : List Track) (dets : List Detection) (live detIdx : List ℕ) :
    List (List ℚ) :=
  live.map fun ti => detIdx.map fun di => cost tracks dets ti di

/-- The assignment of a stage, as pairs of a track and a detection. -/
def stagePairs (params : TrackerParams) (dets : List Detection) (tracks : List Track)
    (matched : List Bool) (stage : ℕ) : List (ℕ × ℕ) :=
  let detIdx := detIdx params dets matched stage
  if detIdx.isEmpty then []
  else
    let live := live tracks
    (greedyAssign (costMatrix tracks dets live detIdx) params.minIou).map
      fun (ti, di) => (live.getD ti 0, detIdx.getD di 0)

/-- The loop over the assignment of a stage. -/
@[grind =] def applyPairs (params : TrackerParams) (dets : List Detection) :
    List (ℕ × ℕ) → List Track × List Bool → Option (List Track × List Bool)
  | [], s => some s
  | (ti, di) :: pairs, (tracks, matched) => do
      let track ← tracks[ti]?
      let det ← dets[di]?
      let track ← track.hit params det
      applyPairs params dets pairs (tracks.set ti track, matched.set di true)

/-! ### One frame -/

/-- `Tracker` -/
structure Tracker where
  params : TrackerParams
  tracks : List Track
  nextId : ℕ
  deriving DecidableEq, Repr

/-- `Tracker::new` -/
def Tracker.new (params : TrackerParams) : Tracker := ⟨params, [], 1⟩

/-- The loop that begins tracks: the new tracks, each with its detection, and the next id. -/
@[grind =] def spawnAll (matched : List Bool) :
    List (Detection × ℕ) → ℕ → Option (List (ℕ × Track) × ℕ)
  | [], nextId => some ([], nextId)
  | (det, i) :: dets, nextId =>
      if matched.getD i true then spawnAll matched dets nextId
      else do
        let next ← increment 64 nextId
        let (spawned, last) ← spawnAll matched dets next
        return ((i, .spawn nextId det) :: spawned, last)

/-- The collection of deleted tracks after their time; the sum is computed for these only. -/
def retain (params : TrackerParams) (tracks : List Track) : Option (List Track) :=
  if (∃ t ∈ tracks, t.state = .deleted) ∧ 2 ^ 32 ≤ params.maxAge + 5 then none
  else some (tracks.filter fun t =>
    t.state ≠ .deleted ∨ t.timeSinceUpdate ≤ params.maxAge + 5)

/-- What a frame does: the pairs of both stages, the tracks and the marks between them, the tracks
that were there before, at its end, the new ones, each with its detection, and the tracker after
it. -/
structure Frame where
  strong : List (ℕ × ℕ)
  between : List Track × List Bool
  weak : List (ℕ × ℕ)
  old : List Track
  spawned : List (ℕ × Track)
  after : Tracker

/-- **`Tracker::update`**, with what happens in it. -/
def Tracker.frame (tracker : Tracker) (dets : List Detection) : Option Frame := do
  let params := tracker.params
  let tracks ← tracker.tracks.mapM Track.predict
  let matched := List.replicate dets.length false
  let strong := stagePairs params dets tracks matched 0
  let (tracks, matched) ← applyPairs params dets strong (tracks, matched)
  let between := (tracks, matched)
  let weak := stagePairs params dets tracks matched 1
  let (tracks, matched) ← applyPairs params dets weak (tracks, matched)
  let old := tracks.map (Track.lifecycle params)
  let (spawned, nextId) ← spawnAll matched dets.zipIdx tracker.nextId
  let tracks ← retain params (old ++ spawned.map Prod.snd)
  return { strong, between, weak, old, spawned, after := { params, tracks, nextId } }

/-- **`Tracker::update`**: the tracker after a frame, and the tracks that it returns. -/
def Tracker.update (tracker : Tracker) (dets : List Detection) : Option (Tracker × List Track) :=
  (tracker.frame dets).map fun f =>
    (f.after, f.after.tracks.filter fun t => t.state ≠ .deleted ∧ t.timeSinceUpdate = 0)

/-- A frame as a step. -/
def Tracker.step (tracker : Tracker) (dets : List Detection) : Option Tracker :=
  (tracker.update dets).map Prod.fst

/-! ### Matchings -/

section Matching

variable {α β γ δ : Type} {l l' : List (α × β)}

/-- **A matching**: pairs of which no two have a side in common. -/
def IsMatching (l : List (α × β)) : Prop := (l.map Prod.fst).Nodup ∧ (l.map Prod.snd).Nodup

theorem isMatching_nil : IsMatching ([] : List (α × β)) := ⟨List.nodup_nil, List.nodup_nil⟩

theorem isMatching_cons_iff {p : α × β} :
    IsMatching (p :: l) ↔
      (p.1 ∉ l.map Prod.fst ∧ p.2 ∉ l.map Prod.snd) ∧ IsMatching l := by
  rw [IsMatching, IsMatching, List.map_cons, List.map_cons, List.nodup_cons, List.nodup_cons]
  tauto

/-- Two matchings are one if they have no side in common. -/
theorem isMatching_append_iff :
    IsMatching (l ++ l') ↔ (IsMatching l ∧ IsMatching l') ∧
      (l.map Prod.fst).Disjoint (l'.map Prod.fst) ∧
        (l.map Prod.snd).Disjoint (l'.map Prod.snd) := by
  rw [IsMatching, IsMatching, IsMatching, List.map_append, List.map_append, List.nodup_append',
    List.nodup_append']
  tauto

/-- The sides are named in another way. -/
theorem IsMatching.rename (h : IsMatching l) {f : α → γ} {g : β → δ}
    (hf : Set.InjOn f {a | a ∈ l.map Prod.fst}) (hg : Set.InjOn g {b | b ∈ l.map Prod.snd}) :
    IsMatching (l.map fun p => (f p.1, g p.2)) := by
  have hfst : (l.map fun p => (f p.1, g p.2)).map Prod.fst = (l.map Prod.fst).map f := by
    rw [List.map_map, List.map_map]
    rfl
  have hsnd : (l.map fun p => (f p.1, g p.2)).map Prod.snd = (l.map Prod.snd).map g := by
    rw [List.map_map, List.map_map]
    rfl
  rw [IsMatching, hfst, hsnd]
  exact ⟨h.1.map_on fun _ ha _ hb hab => hf ha hb hab, h.2.map_on fun _ ha _ hb hab => hg ha hb hab⟩

/-- The numbers of the places of a list without repetitions. -/
theorem injOn_getD {l : List ℕ} (hl : l.Nodup) {s : Set ℕ} (hs : ∀ i ∈ s, i < l.length) (d : ℕ) :
    Set.InjOn (fun i => l.getD i d) s := by
  intro i hi j hj hij
  simp only [List.getD_eq_getElem _ _ (hs i hi), List.getD_eq_getElem _ _ (hs j hj)] at hij
  exact (hl.getElem_inj_iff).1 hij

end Matching

/-! ### The assignment of a stage -/

/-- What is used and not used after a place is marked. -/
theorem getD_set_true {used : List Bool} {i j : ℕ} :
    (used.set i true).getD j true = (used.getD j true || i == j) := by
  rw [List.getD_eq_getElem?_getD, List.getElem?_set, List.getD_eq_getElem?_getD]
  by_cases hij : i = j
  · subst hij
    by_cases hi : i < used.length
    · simp [hi]
    · simp [hi]
  · simp [hij]

/-- A pair is taken only if both of its sides are free. -/
theorem free_of_mem_assignLoop {pairs : List (ℚ × ℕ × ℕ)} {usedT usedD : List Bool} {p : ℕ × ℕ}
    (h : p ∈ assignLoop pairs usedT usedD) :
    usedT.getD p.1 true = false ∧ usedD.getD p.2 true = false := by
  induction pairs generalizing usedT usedD with
  | nil => cases h
  | cons q pairs ih =>
      rw [assignLoop] at h
      split at h
      · rename_i hfree
        rw [Bool.and_eq_true, Bool.not_eq_true', Bool.not_eq_true'] at hfree
        rcases List.mem_cons.1 h with rfl | h
        · exact hfree
        · have hrest := ih h
          rw [getD_set_true, getD_set_true, Bool.or_eq_false_iff, Bool.or_eq_false_iff] at hrest
          exact ⟨hrest.1.1, hrest.2.1⟩
      · exact ih h

theorem isMatching_assignLoop (pairs : List (ℚ × ℕ × ℕ)) (usedT usedD : List Bool) :
    IsMatching (assignLoop pairs usedT usedD) := by
  induction pairs generalizing usedT usedD with
  | nil => exact isMatching_nil
  | cons q pairs ih =>
      rw [assignLoop]
      split
      · refine isMatching_cons_iff.2 ⟨⟨?_, ?_⟩, ih _ _⟩
        · intro h
          obtain ⟨p, hp, heq⟩ := List.mem_map.1 h
          have hfree := (free_of_mem_assignLoop hp).1
          rw [heq, getD_set_true, beq_self_eq_true, Bool.or_true] at hfree
          cases hfree
        · intro h
          obtain ⟨p, hp, heq⟩ := List.mem_map.1 h
          have hfree := (free_of_mem_assignLoop hp).2
          rw [heq, getD_set_true, beq_self_eq_true, Bool.or_true] at hfree
          cases hfree
      · exact ih _ _

theorem lt_of_getD_replicate {n i : ℕ} (h : (List.replicate n false).getD i true = false) :
    i < n := by
  by_contra hi
  rw [List.getD_eq_default _ _ (by rw [List.length_replicate]; omega)] at h
  cases h

/-- **The assignment of one stage is a matching.** -/
theorem isMatching_greedyAssign (costs : List (List ℚ)) (threshold : ℚ) :
    IsMatching (greedyAssign costs threshold) := isMatching_assignLoop _ _ _

/-- It is within the matrix. -/
theorem lt_of_mem_greedyAssign {costs : List (List ℚ)} {threshold : ℚ} {p : ℕ × ℕ}
    (h : p ∈ greedyAssign costs threshold) :
    p.1 < costs.length ∧ p.2 < costs.head?.elim 0 List.length :=
  have hfree := free_of_mem_assignLoop h
  ⟨lt_of_getD_replicate hfree.1, lt_of_getD_replicate hfree.2⟩

section Stage

variable {params : TrackerParams} {dets : List Detection} {tracks : List Track}
  {matched : List Bool} {stage : ℕ}

theorem mem_live {i : ℕ} :
    i ∈ live tracks ↔ ∃ t, tracks[i]? = some t ∧ t.state ≠ .deleted := by
  rw [live, List.mem_map]
  constructor
  · rintro ⟨⟨t, j⟩, hmem, rfl⟩
    rw [List.mem_filter, List.mk_mem_zipIdx_iff_getElem?] at hmem
    exact ⟨t, hmem.1, by simpa using hmem.2⟩
  · rintro ⟨t, ht, hstate⟩
    refine ⟨(t, i), ?_, rfl⟩
    rw [List.mem_filter, List.mk_mem_zipIdx_iff_getElem?]
    exact ⟨ht, by simpa using hstate⟩

theorem nodup_live : (live tracks).Nodup := by
  have hall : (tracks.zipIdx.map Prod.snd).Nodup := by
    rw [List.zipIdx_map_snd]
    exact List.nodup_range'
  exact hall.sublist (List.filter_sublist.map Prod.snd)

theorem mem_detIdx {i : ℕ} (h : i ∈ detIdx params dets matched stage) :
    i < dets.length ∧ matched.getD i true = false := by
  rw [detIdx, List.mem_filter, List.mem_range, Bool.and_eq_true, Bool.not_eq_true'] at h
  exact ⟨h.1, h.2.1⟩

theorem nodup_detIdx : (detIdx params dets matched stage).Nodup := List.nodup_range.filter _

/-- The places of the pairs in the lists of the stage. -/
theorem lt_of_mem_costMatrix {is js : List ℕ} {threshold : ℚ} {p : ℕ × ℕ}
    (h : p ∈ greedyAssign (costMatrix tracks dets is js) threshold) :
    p.1 < is.length ∧ p.2 < js.length := by
  have hlt := lt_of_mem_greedyAssign h
  rw [costMatrix, List.length_map] at hlt
  refine ⟨hlt.1, ?_⟩
  cases is with
  | nil => exact absurd hlt.1 (Nat.not_lt_zero _)
  | cons i is => simpa using hlt.2

/-- **The assignment of one stage**, as pairs of a track and a detection. -/
theorem isMatching_stagePairs : IsMatching (stagePairs params dets tracks matched stage) := by
  rw [stagePairs]
  dsimp only
  split
  · exact isMatching_nil
  · refine (isMatching_greedyAssign _ _).rename (injOn_getD nodup_live ?_ 0)
      (injOn_getD nodup_detIdx ?_ 0)
    · rintro i hi
      obtain ⟨p, hp, rfl⟩ := List.mem_map.1 hi
      exact (lt_of_mem_costMatrix hp).1
    · rintro i hi
      obtain ⟨p, hp, rfl⟩ := List.mem_map.1 hi
      exact (lt_of_mem_costMatrix hp).2

/-- It assigns detections that are not yet assigned to tracks that are not deleted. -/
theorem mem_stagePairs {p : ℕ × ℕ} (h : p ∈ stagePairs params dets tracks matched stage) :
    (∃ t, tracks[p.1]? = some t ∧ t.state ≠ .deleted) ∧
      p.2 < dets.length ∧ matched.getD p.2 true = false := by
  rw [stagePairs] at h
  dsimp only at h
  split at h
  · cases h
  · obtain ⟨q, hq, rfl⟩ := List.mem_map.1 h
    have hlt := lt_of_mem_costMatrix hq
    refine ⟨mem_live.1 ?_, @mem_detIdx params dets matched stage _ ?_⟩
    · dsimp only
      rw [List.getD_eq_getElem _ _ hlt.1]
      exact List.getElem_mem _
    · dsimp only
      rw [List.getD_eq_getElem _ _ hlt.2]
      exact List.getElem_mem _

/-- **What a matching does**: a track that is not in it stays as it is, one that is in it is updated
once, and its detections are marked. -/
theorem getElem?_applyPairs {pairs : List (ℕ × ℕ)} {tracks' : List Track} {matched' : List Bool}
    (hmatching : IsMatching pairs)
    (h : applyPairs params dets pairs (tracks, matched) = some (tracks', matched')) :
    (∀ i, i ∉ pairs.map Prod.fst → tracks'[i]? = tracks[i]?) ∧
      (∀ i, i ∈ pairs.map Prod.fst → ∃ t det t', tracks[i]? = some t ∧ t.hit params det = some t' ∧
        tracks'[i]? = some t') ∧
      ∀ j, matched'.getD j true = true ↔ matched.getD j true = true ∨ j ∈ pairs.map Prod.snd := by
  induction pairs generalizing tracks matched with
  | nil =>
      cases h
      exact ⟨fun _ _ => rfl, fun i hi => absurd hi List.not_mem_nil, fun j => by simp⟩
  | cons p pairs ih =>
      obtain ⟨ti, di⟩ := p
      rw [applyPairs] at h
      obtain ⟨t, ht, h⟩ := Option.bind_eq_some_iff.1 h
      obtain ⟨det, hdet, h⟩ := Option.bind_eq_some_iff.1 h
      obtain ⟨t', ht', h⟩ := Option.bind_eq_some_iff.1 h
      obtain ⟨⟨hti, -⟩, hrest⟩ := isMatching_cons_iff.1 hmatching
      obtain ⟨hsame, hhit, hmarked⟩ := ih hrest h
      have hlt : ti < tracks.length := (List.getElem?_eq_some_iff.1 ht).1
      refine ⟨?_, ?_, ?_⟩
      · intro i hi
        rw [List.map_cons, List.mem_cons, not_or] at hi
        rw [hsame i hi.2, List.getElem?_set_ne (Ne.symm hi.1)]
      · intro i hi
        rw [List.map_cons, List.mem_cons] at hi
        rcases hi with rfl | hi
        · refine ⟨t, det, t', ht, ht', ?_⟩
          rw [hsame _ hti, List.getElem?_set_self hlt]
        · obtain ⟨u, det', u', hu, hu'⟩ := hhit i hi
          have hne : ti ≠ i := fun heq => hti (heq ▸ hi)
          rw [List.getElem?_set_ne hne] at hu
          exact ⟨u, det', u', hu, hu'⟩
      · intro j
        rw [hmarked, getD_set_true, Bool.or_eq_true, beq_iff_eq, List.map_cons, List.mem_cons,
          or_assoc, @eq_comm _ di]

end Stage

end Tracking

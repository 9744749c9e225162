/-
**The events of the zones.**

`ZoneEngine` of `crates/streaming/src/ai/zones.rs` is given the tracks of a camera again and again,
with a reading of the clock.  For each zone and track it keeps since when the track is inside, and
whether a `Loiter` was fired; for each track, where it was.  All events are fired by
`ZoneEngine::update`.

Main definitions:

* `ZoneEvents.ZoneEngine.update`, `ZoneEvents.ZoneEngine.updateZones` — one update, and what it fires for each
  zone;
* `ZoneEvents.occupy` — what an update does to one track in one intrusion zone;
* `ZoneEvents.firedKinds` — the events of one track in one zone, over a run.

Main results:

* `ZoneEvents.mapAccum_append`, `ZoneEvents.mapAccum_invariant` — loops over tracks and zones;
* `ZoneEvents.updateZones_intrusion`, `ZoneEvents.updateZones_lineCross` — **one update, for one track and
  zone**.
-/

import Mathlib.Data.List.GetD
import MibeeEye.Tracking
import MibeeEye.ZoneGeometry

set_option relaxedAutoImplicit false
set_option autoImplicit false

namespace ZoneEvents

open Tracking (Track)
open Zones (Point Zone pointInPolygon segmentsIntersect sideOf)

/-! ### Loops with a state -/

section Loops

variable {α β σ γ : Type}

/-- A loop that changes a state, and gives something for each element. -/
def mapAccum (f : α → σ → σ × β) : List α → σ → σ × List β
  | [], s => (s, [])
  | a :: l, s =>
      let (s, b) := f a s
      let (s, bs) := mapAccum f l s
      (s, b :: bs)

variable {f : α → σ → σ × β}

theorem mapAccum_cons (a : α) (l : List α) (s : σ) :
    mapAccum f (a :: l) s =
      ((mapAccum f l (f a s).1).1, (f a s).2 :: (mapAccum f l (f a s).1).2) := rfl

theorem mapAccum_append (l l' : List α) (s : σ) :
    mapAccum f (l ++ l') s =
      ((mapAccum f l' (mapAccum f l s).1).1,
        (mapAccum f l s).2 ++ (mapAccum f l' (mapAccum f l s).1).2) := by
  induction l generalizing s with
  | nil => rfl
  | cons a l ih => rw [List.cons_append, mapAccum_cons, ih, mapAccum_cons, List.cons_append]

theorem length_mapAccum (l : List α) (s : σ) : (mapAccum f l s).2.length = l.length := by
  induction l generalizing s with
  | nil => rfl
  | cons a l ih => rw [mapAccum_cons, List.length_cons, List.length_cons, ih]

/-- What no round changes, the loop does not change. -/
theorem mapAccum_invariant {g : σ → γ} {l : List α} (h : ∀ a ∈ l, ∀ s, g (f a s).1 = g s) (s : σ) :
    g (mapAccum f l s).1 = g s := by
  induction l generalizing s with
  | nil => rfl
  | cons a l ih =>
      rw [mapAccum]
      exact (ih (fun b hb => h b (List.mem_cons_of_mem a hb)) _).trans (h a List.mem_cons_self s)

end Loops

/-! ### The engine -/

/-- `ZoneEventKind` -/
inductive ZoneEventKind
  | intrusion
  | loiter
  | lineCross (forward : Bool)
  deriving DecidableEq, Repr

/-- `ZoneEvent` -/
structure ZoneEvent where
  cameraId : String
  zone : String
  event : ZoneEventKind
  trackId : ℕ
  label : String
  timestampMs : ℕ
  deriving DecidableEq, Repr

/-- `ZoneEngine` -/
structure ZoneEngine where
  insideSince : ℕ × ℕ → Option ℕ := fun _ => none
  lastPos : ℕ → Option Point := fun _ => none
  loiterFired : ℕ × ℕ → Option Bool := fun _ => none

/-- The arguments of one call of `ZoneEngine::update`, but for the zones. -/
structure Update where
  cameraId : String
  tracks : List Track
  nowMs : ℕ

/-- `mk` -/
def mk (u : Update) (zone : Zone ℚ) (event : ZoneEventKind) (t : Track) : ZoneEvent :=
  { cameraId := u.cameraId, zone := zone.name, event, trackId := t.id, label := t.label,
    timestampMs := u.nowMs }

/-- The feet of a track. -/
def feet (t : Track) : Point := (t.bbox.x + t.bbox.w / 2, t.bbox.y + t.bbox.h)

/-- `next_pos`: where the tracks are. -/
def nextPos (tracks : List Track) : ℕ → Option Point :=
  tracks.foldl (fun pos t => Function.update pos t.id (some (feet t))) fun _ => none

/-- The body of the loop over the tracks, for an intrusion zone. -/
def intrusionTrack (u : Update) (pos : ℕ → Option Point) (zi : ℕ) (zone : Zone ℚ) (t : Track)
    (e : ZoneEngine) : ZoneEngine × List ZoneEvent :=
  match pos t.id with
  | none => (e, [])
  | some center =>
      let key := (zi, t.id)
      if pointInPolygon center zone.points then
        let since := (e.insideSince key).getD u.nowMs
        let e := { e with insideSince := Function.update e.insideSince key (some since) }
        let dwellMs := u.nowMs - since
        if (e.loiterFired key).getD false then (e, [])
        else
          let entered := if dwellMs = 0 then [mk u zone .intrusion t] else []
          let dwellNeed := zone.dwellSecs.toNat * 1000
          if 0 < zone.dwellSecs.toNat ∧ dwellNeed ≤ dwellMs then
            ({ e with loiterFired := Function.update e.loiterFired key (some true) },
              entered ++ [mk u zone .loiter t])
          else (e, entered)
      else if (e.insideSince key).isSome then
        ({ e with
            insideSince := Function.update e.insideSince key none
            loiterFired := Function.update e.loiterFired key none }, [])
      else (e, [])

/-- The body of the loop over the tracks, for a tripwire. -/
def lineCrossTrack (u : Update) (pos : ℕ → Option Point) (zone : Zone ℚ) (c d : Point) (t : Track)
    (e : ZoneEngine) : ZoneEngine × List ZoneEvent :=
  match e.lastPos t.id, pos t.id with
  | some prev, some cur =>
      if segmentsIntersect prev cur c d then
        (e, [mk u zone (.lineCross (decide (sideOf cur c d < 0))) t])
      else (e, [])
  | _, _ => (e, [])

/-- The body of the loop over the zones. -/
def zoneEvents (u : Update) (pos : ℕ → Option Point) (zone : Zone ℚ × ℕ) (e : ZoneEngine) :
    ZoneEngine × List ZoneEvent :=
  match zone.1.kind with
  | .intrusion =>
      let (e, events) := mapAccum (intrusionTrack u pos zone.2 zone.1) u.tracks e
      (e, events.flatten)
  | .lineCross =>
      match zone.1.points with
      | c :: d :: _ =>
          let (e, events) := mapAccum (lineCrossTrack u pos zone.1 c d) u.tracks e
          (e, events.flatten)
      | _ => (e, [])

/-- The end of `ZoneEngine::update`: tracks that have disappeared are forgotten. -/
def ZoneEngine.forget (e : ZoneEngine) (tracks : List Track) : ZoneEngine :=
  let live := tracks.map Track.id
  { insideSince := fun key => if key.2 ∈ live then e.insideSince key else none
    lastPos := fun id => if id ∈ live then nextPos tracks id else none
    loiterFired := fun key => if key.2 ∈ live then e.loiterFired key else none }

/-- `ZoneEngine::update`, with the events of each zone. -/
def ZoneEngine.updateZones (e : ZoneEngine) (zones : List (Zone ℚ)) (u : Update) :
    ZoneEngine × List (List ZoneEvent) :=
  let (e, events) := mapAccum (zoneEvents u (nextPos u.tracks)) zones.zipIdx e
  (e.forget u.tracks, events)

/-- **`ZoneEngine::update`.** -/
def ZoneEngine.update (e : ZoneEngine) (zones : List (Zone ℚ)) (u : Update) :
    ZoneEngine × List ZoneEvent :=
  let (e, events) := e.updateZones zones u
  (e, events.flatten)

/-! ### Runs -/

/-- The engine after some updates. -/
def ZoneEngine.run (zones : List (Zone ℚ)) (e : ZoneEngine) (us : List Update) : ZoneEngine :=
  us.foldl (fun e u => (e.update zones u).1) e

/-- What is fired for a track, of some events. -/
def kindsOf (id : ℕ) (events : List ZoneEvent) : List ZoneEventKind :=
  (events.filter fun ev => ev.trackId = id).map ZoneEvent.event

/-- **What is fired for a track in a zone**, by each of some updates. -/
def firedKinds (zones : List (Zone ℚ)) (zi id : ℕ) : ZoneEngine → List Update →
    List (List ZoneEventKind)
  | _, [] => []
  | e, u :: us =>
      kindsOf id ((e.updateZones zones u).2.getD zi []) ::
        firedKinds zones zi id (e.update zones u).1 us

/-! ### One track in one zone -/

/-- Since when a track is inside a zone, and whether it has loitered there. -/
abbrev Occupancy := Option ℕ × Option Bool

/-- What the engine keeps for a zone and a track. -/
def ZoneEngine.occupancy (e : ZoneEngine) (key : ℕ × ℕ) : Occupancy :=
  (e.insideSince key, e.loiterFired key)

/-- **What an update does to a track in an intrusion zone**: what is kept, and what is fired. -/
def occupy (zone : Zone ℚ) (now : ℕ) (inside : Bool) (o : Occupancy) :
    Occupancy × List ZoneEventKind :=
  if inside then
    let since := o.1.getD now
    if o.2.getD false then ((some since, o.2), [])
    else
      let entered := if now - since = 0 then [.intrusion] else []
      if 0 < zone.dwellSecs.toNat ∧ zone.dwellSecs.toNat * 1000 ≤ now - since then
        ((some since, some true), entered ++ [.loiter])
      else ((some since, o.2), entered)
  else if o.1.isSome then ((none, none), [])
  else (o, [])

/-- The same, for a track that is listed so many times. -/
@[grind =] def occupyTimes (zone : Zone ℚ) (now : ℕ) (inside : Bool) : ℕ → Occupancy →
    Occupancy × List ZoneEventKind
  | 0, o => (o, [])
  | n + 1, o =>
      let (o, kinds) := occupy zone now inside o
      let (o, rest) := occupyTimes zone now inside n o
      (o, kinds ++ rest)

section Track

variable {u : Update} {pos : ℕ → Option Point} {zi id : ℕ} {zone : Zone ℚ} {t : Track}
  {e : ZoneEngine} {center : Point}

theorem intrusionTrack_lastPos : (intrusionTrack u pos zi zone t e).1.lastPos = e.lastPos := by
  rw [intrusionTrack]
  split
  · rfl
  · dsimp only
    repeat' split
    all_goals rfl

/-- Another track, or another zone. -/
theorem intrusionTrack_other {key : ℕ × ℕ} (h : key ≠ (zi, t.id)) :
    (intrusionTrack u pos zi zone t e).1.occupancy key = e.occupancy key := by
  rw [intrusionTrack]
  split
  · rfl
  · dsimp only
    repeat' split
    all_goals simp [ZoneEngine.occupancy, Function.update_of_ne h]

/-- The track itself. -/
theorem intrusionTrack_self (hpos : pos t.id = some center) :
    (intrusionTrack u pos zi zone t e).1.occupancy (zi, t.id) =
        (occupy zone u.nowMs (pointInPolygon center zone.points) (e.occupancy (zi, t.id))).1 ∧
      (intrusionTrack u pos zi zone t e).2.map ZoneEvent.event =
        (occupy zone u.nowMs (pointInPolygon center zone.points) (e.occupancy (zi, t.id))).2 := by
  by_cases hinside : pointInPolygon center zone.points = true
  · by_cases hfired : (e.loiterFired (zi, t.id)).getD false = true
    · simp [intrusionTrack, occupy, ZoneEngine.occupancy, hpos, hinside, hfired]
    · by_cases hdue : 0 < zone.dwellSecs.toNat ∧ zone.dwellSecs.toNat * 1000 ≤
          u.nowMs - (e.insideSince (zi, t.id)).getD u.nowMs
      · by_cases hentered : u.nowMs - (e.insideSince (zi, t.id)).getD u.nowMs = 0
        · omega
        · simp [intrusionTrack, occupy, ZoneEngine.occupancy, hpos, hinside, hfired, hdue, hentered,
            mk]
      · by_cases hentered : u.nowMs - (e.insideSince (zi, t.id)).getD u.nowMs = 0
        · have hnever : ¬ (0 < zone.dwellSecs.toNat ∧ zone.dwellSecs.toNat = 0) := by omega
          simp [intrusionTrack, occupy, ZoneEngine.occupancy, hpos, hinside, hfired, hnever, hentered,
            mk]
        · simp [intrusionTrack, occupy, ZoneEngine.occupancy, hpos, hinside, hfired, hdue, hentered]
  · by_cases hsince : (e.insideSince (zi, t.id)).isSome = true
    · simp [intrusionTrack, occupy, ZoneEngine.occupancy, hpos, hinside, hsince]
    · simp [intrusionTrack, occupy, ZoneEngine.occupancy, hpos, hinside, hsince]

/-- What is fired is fired for the track. -/
theorem intrusionTrack_trackId {ev : ZoneEvent} (h : ev ∈ (intrusionTrack u pos zi zone t e).2) :
    ev.trackId = t.id := by
  revert h
  rw [intrusionTrack]
  split
  · simp
  · dsimp only
    repeat' split
    all_goals simp [mk]
    · rintro (rfl | rfl) <;> rfl
    · rintro rfl
      rfl
    · rintro rfl
      rfl

theorem lineCrossTrack_fst {c d : Point} : (lineCrossTrack u pos zone c d t e).1 = e := by
  rw [lineCrossTrack]
  split
  · split <;> rfl
  · rfl

theorem lineCrossTrack_trackId {c d : Point} {ev : ZoneEvent}
    (h : ev ∈ (lineCrossTrack u pos zone c d t e).2) : ev.trackId = t.id := by
  revert h
  rw [lineCrossTrack]
  split
  · split
    · rw [List.mem_singleton]
      rintro rfl
      rfl
    · simp
  · simp

end Track

/-! ### Where the tracks are -/

/-- The last track with an id says where it is. -/
theorem nextPos_eq (tracks : List Track) (id : ℕ) :
    nextPos tracks id = (tracks.filter fun t => t.id = id).getLast?.map feet := by
  induction tracks using List.reverseRecOn with
  | nil => rfl
  | append_singleton tracks t ih =>
      rw [nextPos, List.foldl_append, List.foldl_cons, List.foldl_nil, ← nextPos, List.filter_append]
      by_cases hid : t.id = id
      · have hlast : [t].filter (fun t => t.id = id) = [t] := by simp [hid]
        rw [hlast, List.getLast?_append, hid, Function.update_self]
        rfl
      · have hlast : [t].filter (fun t => t.id = id) = [] := by simp [hid]
        rw [hlast, List.append_nil, Function.update_of_ne (Ne.symm hid), ih]

theorem nextPos_eq_none_iff {tracks : List Track} {id : ℕ} :
    nextPos tracks id = none ↔ id ∉ tracks.map Track.id := by
  rw [nextPos_eq, Option.map_eq_none_iff, List.getLast?_eq_none_iff, List.filter_eq_nil_iff,
    List.mem_map]
  simp

/-! ### One zone -/

section Zone

variable {u : Update} {pos : ℕ → Option Point} {zi id : ℕ} {zone : Zone ℚ} {e : ZoneEngine}
  {center : Point}

@[simp] theorem kindsOf_append (id : ℕ) (l l' : List ZoneEvent) :
    kindsOf id (l ++ l') = kindsOf id l ++ kindsOf id l' := by
  rw [kindsOf, List.filter_append, List.map_append]
  rfl

/-- Events that are all fired for one track. -/
theorem kindsOf_of_trackId {l : List ZoneEvent} {tid : ℕ} (h : ∀ ev ∈ l, ev.trackId = tid) :
    kindsOf id l = if tid = id then l.map ZoneEvent.event else [] := by
  rw [kindsOf]
  split
  · rename_i hid
    rw [List.filter_eq_self.2 fun ev hev => decide_eq_true ((h ev hev).trans hid)]
  · rename_i hid
    rw [List.filter_eq_nil_iff.2, List.map_nil]
    intro ev hev
    rw [h ev hev, decide_eq_true_eq]
    exact hid

/-- **All tracks, in an intrusion zone.** -/
theorem mapAccum_intrusionTrack (hpos : pos id = some center) (tracks : List Track)
    (e : ZoneEngine) :
    (mapAccum (intrusionTrack u pos zi zone) tracks e).1.occupancy (zi, id) =
        (occupyTimes zone u.nowMs (pointInPolygon center zone.points)
          (tracks.countP fun t => t.id = id) (e.occupancy (zi, id))).1 ∧
      kindsOf id (mapAccum (intrusionTrack u pos zi zone) tracks e).2.flatten =
        (occupyTimes zone u.nowMs (pointInPolygon center zone.points)
          (tracks.countP fun t => t.id = id) (e.occupancy (zi, id))).2 := by
  induction tracks generalizing e with
  | nil => exact ⟨rfl, rfl⟩
  | cons t tracks ih =>
      obtain ⟨hstate, hkinds⟩ := ih (intrusionTrack u pos zi zone t e).1
      rw [mapAccum_cons]
      dsimp only
      rw [List.flatten_cons, kindsOf_append, hstate, hkinds, List.countP_cons,
        kindsOf_of_trackId fun ev hev => intrusionTrack_trackId hev]
      by_cases hid : t.id = id
      · subst hid
        obtain ⟨hself, hfired⟩ := @intrusionTrack_self u pos zi zone t e center hpos
        rw [if_pos (by simp), if_pos rfl, hself, hfired]
        exact ⟨rfl, rfl⟩
      · rw [if_neg (by simpa using hid), if_neg hid,
          intrusionTrack_other fun heq => hid (Prod.mk.inj heq).2.symm]
        exact ⟨rfl, rfl⟩

/-- **All tracks, at a tripwire.** -/
theorem mapAccum_lineCrossTrack {c d : Point} (tracks : List Track) (e : ZoneEngine) :
    (mapAccum (lineCrossTrack u pos zone c d) tracks e).1 = e ∧
      kindsOf id (mapAccum (lineCrossTrack u pos zone c d) tracks e).2.flatten =
        (List.replicate (tracks.countP fun t => t.id = id)
          (match e.lastPos id, pos id with
            | some prev, some cur =>
                if segmentsIntersect prev cur c d then [.lineCross (decide (sideOf cur c d < 0))]
                else []
            | _, _ => [])).flatten := by
  induction tracks generalizing e with
  | nil => exact ⟨rfl, rfl⟩
  | cons t tracks ih =>
      obtain ⟨hstate, hkinds⟩ := ih e
      rw [mapAccum_cons, lineCrossTrack_fst]
      dsimp only
      rw [List.flatten_cons, kindsOf_append, hkinds, List.countP_cons,
        kindsOf_of_trackId fun ev hev => lineCrossTrack_trackId hev]
      refine ⟨hstate, ?_⟩
      by_cases hid : t.id = id
      · subst hid
        rw [if_pos rfl, if_pos (by simp), List.replicate_succ, List.flatten_cons]
        congr 1
        rw [lineCrossTrack]
        split
        · split <;> rfl
        · rfl
      · rw [if_neg hid, if_neg (by simpa using hid)]
        rfl

theorem zoneEvents_lastPos (zone : Zone ℚ × ℕ) (e : ZoneEngine) :
    (zoneEvents u pos zone e).1.lastPos = e.lastPos := by
  rw [zoneEvents]
  split
  · exact @mapAccum_invariant _ _ _ _ _ ZoneEngine.lastPos _
      (fun t _ s => intrusionTrack_lastPos) e
  · split
    · rw [(@mapAccum_lineCrossTrack u pos 0 _ _ _ _ e).1]
    · rfl

/-- Another zone. -/
theorem zoneEvents_other {key : ℕ × ℕ} (zone : Zone ℚ × ℕ) (h : key.1 ≠ zone.2) (e : ZoneEngine) :
    (zoneEvents u pos zone e).1.occupancy key = e.occupancy key := by
  rw [zoneEvents]
  split
  · refine @mapAccum_invariant _ _ _ _ _ (fun s => s.occupancy key) _ (fun t _ s => ?_) e
    exact intrusionTrack_other fun heq => h (congrArg Prod.fst heq)
  · split
    · rw [(@mapAccum_lineCrossTrack u pos 0 _ _ _ _ e).1]
    · rfl

end Zone

/-! ### One update -/

section Update

variable {zones : List (Zone ℚ)} {zi id : ℕ} {zone : Zone ℚ} {e : ZoneEngine} {u : Update}
  {center : Point}

/-- An update, as it is for one zone: the other zones keep their hands off. -/
theorem updateZones_zone (h : zones[zi]? = some zone) (id : ℕ) (e : ZoneEngine) (u : Update) :
    ∃ s : ZoneEngine, s.occupancy (zi, id) = e.occupancy (zi, id) ∧ s.lastPos = e.lastPos ∧
      (e.updateZones zones u).2.getD zi [] = (zoneEvents u (nextPos u.tracks) (zone, zi) s).2 ∧
      (e.update zones u).1.occupancy (zi, id) =
        if id ∈ u.tracks.map Track.id then
          (zoneEvents u (nextPos u.tracks) (zone, zi) s).1.occupancy (zi, id)
        else (none, none) := by
  obtain ⟨hlt, hget⟩ := List.getElem?_eq_some_iff.1 h
  have hzones : zones.zipIdx = (zones.take zi).zipIdx ++
      (zone, zi) :: (zones.drop (zi + 1)).zipIdx (zi + 1) := by
    conv_lhs => rw [← List.take_append_drop zi zones, List.drop_eq_getElem_cons hlt, hget]
    rw [List.zipIdx_append, List.zipIdx_cons, List.length_take, min_eq_left hlt.le, Nat.zero_add]
  -- the zones before it and those after it
  have hbefore : ∀ z ∈ (zones.take zi).zipIdx, z.2 < zi := by
    intro z hz
    have hlen := List.snd_lt_of_mem_zipIdx hz
    rw [List.length_take] at hlen
    omega
  have hafter : ∀ z ∈ (zones.drop (zi + 1)).zipIdx (zi + 1), zi < z.2 :=
    fun z hz => List.le_snd_of_mem_zipIdx hz
  refine ⟨(mapAccum (zoneEvents u (nextPos u.tracks)) (zones.take zi).zipIdx e).1, ?_, ?_, ?_, ?_⟩
  · exact @mapAccum_invariant _ _ _ _ _ (fun s => s.occupancy (zi, id)) _
      (fun z hz s => zoneEvents_other z (hbefore z hz).ne' s) e
  · exact @mapAccum_invariant _ _ _ _ _ ZoneEngine.lastPos _
      (fun z _ s => zoneEvents_lastPos z s) e
  · have hlen : (mapAccum (zoneEvents u (nextPos u.tracks)) (zones.take zi).zipIdx e).2.length =
        zi := by
      rw [length_mapAccum, List.length_zipIdx, List.length_take, min_eq_left hlt.le]
    rw [ZoneEngine.updateZones, hzones, mapAccum_append]
    dsimp only
    rw [mapAccum_cons, List.getD_append_right _ _ _ _ hlen.le, hlen, Nat.sub_self,
      List.getD_cons_zero]
  · rw [ZoneEngine.update, ZoneEngine.updateZones, hzones, mapAccum_append, mapAccum_cons]
    dsimp only
    rw [ZoneEngine.occupancy, ZoneEngine.forget]
    dsimp only
    split
    · exact @mapAccum_invariant _ _ _ _ _ (fun s => s.occupancy (zi, id)) _
        (fun z hz s => zoneEvents_other z (hafter z hz).ne s) _
    · rfl

/-- **One update, for a track and an intrusion zone.** -/
theorem updateZones_intrusion (h : zones[zi]? = some zone) (hkind : zone.kind = .intrusion)
    (hpos : nextPos u.tracks id = some center) :
    (e.update zones u).1.occupancy (zi, id) =
        (occupyTimes zone u.nowMs (pointInPolygon center zone.points)
          (u.tracks.countP fun t => t.id = id) (e.occupancy (zi, id))).1 ∧
      kindsOf id ((e.updateZones zones u).2.getD zi []) =
        (occupyTimes zone u.nowMs (pointInPolygon center zone.points)
          (u.tracks.countP fun t => t.id = id) (e.occupancy (zi, id))).2 := by
  obtain ⟨s, hs, -, hevents, hstate⟩ := updateZones_zone h id e u
  have hlive : id ∈ u.tracks.map Track.id := by
    by_contra hno
    rw [nextPos_eq_none_iff.2 hno] at hpos
    cases hpos
  have htracks := @mapAccum_intrusionTrack u _ zi id zone center hpos u.tracks s
  rw [hevents, hstate, if_pos hlive, ← hs, zoneEvents]
  dsimp only
  rw [hkind]
  exact htracks

/-- A track that is not there. -/
theorem updateZones_absent (h : zones[zi]? = some zone)
    (hpos : nextPos u.tracks id = none) :
    (e.update zones u).1.occupancy (zi, id) = (none, none) := by
  obtain ⟨s, -, -, -, hstate⟩ := updateZones_zone h id e u
  rw [hstate, if_neg (nextPos_eq_none_iff.1 hpos)]

/-- **One update, for a track and a tripwire.** -/
theorem updateZones_lineCross {c d : Point} {rest : List Point} (h : zones[zi]? = some zone)
    (hkind : zone.kind = .lineCross) (hpoints : zone.points = c :: d :: rest) :
    kindsOf id ((e.updateZones zones u).2.getD zi []) =
      (List.replicate (u.tracks.countP fun t => t.id = id)
        (match e.lastPos id, nextPos u.tracks id with
          | some prev, some cur =>
              if segmentsIntersect prev cur c d then [.lineCross (decide (sideOf cur c d < 0))]
              else []
          | _, _ => [])).flatten := by
  obtain ⟨s, -, hlast, hevents, -⟩ := updateZones_zone h id e u
  have htracks := (@mapAccum_lineCrossTrack u (nextPos u.tracks) id zone c d u.tracks s).2
  rw [hevents, zoneEvents]
  dsimp only
  rw [hkind]
  dsimp only
  rw [hpoints, ← hlast]
  exact htracks

/-- Where a track was is kept until the next update. -/
theorem update_lastPos (zones : List (Zone ℚ)) (e : ZoneEngine) (u : Update) (id : ℕ) :
    (e.update zones u).1.lastPos id = nextPos u.tracks id := by
  change (if id ∈ u.tracks.map Track.id then nextPos u.tracks id else none) = _
  split
  · rfl
  · rename_i hno
    exact (nextPos_eq_none_iff.2 hno).symm

end Update

end ZoneEvents

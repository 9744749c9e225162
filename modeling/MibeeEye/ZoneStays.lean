/-
**The stay of a track in a zone.**

An update fires `Intrusion` for a track in a zone when the time since it came in is zero, and this is
so at its first update there, but also at a later one if the clock still reads the same, or has gone
back.  A `Loiter` ends this: after it, nothing is fired until the track has left.

Main definitions:

* `ZoneEvents.inZone`, `ZoneEvents.Due` — where a track is, and when it loiters;
* `ZoneEvents.OneIntrusion` — what is to hold of a stay;
* `ZoneEvents.stayKinds` — what is fired in a stay.

Main results:

* `ZoneEvents.occupancy_run` — between stays nothing is kept;
* `ZoneEvents.firedKinds_stay` — what an engine fires in a stay;
* `ZoneEvents.oneIntrusion_iff` — **which stays fire one `Intrusion`**, and that all fire one `Loiter`
  when it is due.
-/

import MibeeEye.ZoneEngine

set_option relaxedAutoImplicit false
set_option autoImplicit false

namespace ZoneEvents

open Tracking (Track)
open Zones (Point Zone pointInPolygon)

/-- A track is there, and its feet are in a zone. -/
def inZone (zone : Zone ℚ) (id : ℕ) (u : Update) : Bool :=
  (nextPos u.tracks id).any fun center => pointInPolygon center zone.points

/-- A track that came in at a time has loitered. -/
def Due (zone : Zone ℚ) (entered : ℕ) (u : Update) : Prop :=
  0 < zone.dwellSecs.toNat ∧ zone.dwellSecs.toNat * 1000 ≤ u.nowMs - entered

instance (zone : Zone ℚ) (entered : ℕ) (u : Update) : Decidable (Due zone entered u) :=
  inferInstanceAs (Decidable (_ ∧ _))

/-- **One `Intrusion`**, and at the first update. -/
def OneIntrusion (kinds : List (List ZoneEventKind)) : Prop :=
  ∃ first rest, kinds = first :: rest ∧ first.count .intrusion = 1 ∧
    ∀ later ∈ rest, .intrusion ∉ later

/-- How often a track is listed. -/
def listed (id : ℕ) (u : Update) : ℕ := u.tracks.countP fun t => t.id = id

/-- What is fired in a stay that began at a time, from an update on; `fired` says whether a `Loiter`
was. -/
@[grind =]
def stayKinds (zone : Zone ℚ) (id entered : ℕ) : Bool → List Update → List (List ZoneEventKind)
  | _, [] => []
  | true, _ :: us => [] :: stayKinds zone id entered true us
  | false, u :: us =>
      if Due zone entered u then [.loiter] :: stayKinds zone id entered true us
      else
        (if u.nowMs - entered = 0 then List.replicate (listed id u) .intrusion else []) ::
          stayKinds zone id entered false us

/-! ### One update -/

section Occupy

variable {zone : Zone ℚ} {now entered n : ℕ}

/-- Outside of the zone nothing is kept. -/
theorem occupyTimes_outside {o : Occupancy} (h : o.1 = none → o.2 = none) (hn : 0 < n) :
    occupyTimes zone now false n o = ((none, none), []) := by
  have hone : ∀ o : Occupancy, (o.1 = none → o.2 = none) →
      occupy zone now false o = ((none, none), []) := by
    rintro ⟨_ | since, fired⟩ ho
    · rw [occupy, show fired = none from ho rfl]
      rfl
    · rfl
  have hmore : ∀ n, occupyTimes zone now false n (none, none) = ((none, none), []) := by
    intro n
    induction n with
    | zero => rfl
    | succ n ih =>
        rw [occupyTimes, hone (none, none) fun _ => rfl]
        dsimp only
        rw [ih, List.nil_append]
  cases n with
  | zero => exact absurd hn (lt_irrefl 0)
  | succ n =>
      rw [occupyTimes, hone o h]
      dsimp only
      rw [hmore, List.nil_append]

/-- After a `Loiter` nothing is fired. -/
theorem occupyTimes_fired :
    occupyTimes zone now true n (some entered, some true) = ((some entered, some true), []) := by
  induction n with
  | zero => rfl
  | succ n ih =>
      have hone : occupy zone now true (some entered, some true) =
          ((some entered, some true), []) := rfl
      rw [occupyTimes, hone]
      dsimp only
      rw [ih, List.nil_append]

/-- A `Loiter` that is due is fired once. -/
theorem occupyTimes_due
    (h : 0 < zone.dwellSecs.toNat ∧ zone.dwellSecs.toNat * 1000 ≤ now - entered) (hn : 0 < n) :
    occupyTimes zone now true n (some entered, none) = ((some entered, some true), [.loiter]) := by
  have hone : occupy zone now true (some entered, none) =
      ((some entered, some true), [.loiter]) := by
    have hlater : now - entered ≠ 0 := by omega
    simp [occupy, h, hlater]
  cases n with
  | zero => exact absurd hn (lt_irrefl 0)
  | succ n =>
      rw [occupyTimes, hone]
      dsimp only
      rw [occupyTimes_fired, List.append_nil]

/-- Before it, an `Intrusion` is fired when no time has passed. -/
theorem occupyTimes_inside
    (h : ¬ (0 < zone.dwellSecs.toNat ∧ zone.dwellSecs.toNat * 1000 ≤ now - entered)) :
    occupyTimes zone now true n (some entered, none) =
      ((some entered, none), if now - entered = 0 then List.replicate n .intrusion else []) := by
  have hone : occupy zone now true (some entered, none) =
      ((some entered, none), if now - entered = 0 then [.intrusion] else []) := by
    rw [occupy, if_pos rfl]
    dsimp only
    rw [if_neg (by decide), Option.getD_some, if_neg h]
  induction n with
  | zero =>
      rw [List.replicate_zero, ite_self]
      rfl
  | succ n ih =>
      rw [occupyTimes, hone]
      dsimp only
      rw [ih]
      split <;> rfl

/-- A track comes in. -/
theorem occupyTimes_entry (hn : 0 < n) :
    occupyTimes zone now true n (none, none) =
      ((some now, none), List.replicate n .intrusion) := by
  have hnever : ¬ (0 < zone.dwellSecs.toNat ∧ zone.dwellSecs.toNat * 1000 ≤ now - now) := by omega
  have hone : occupy zone now true (none, none) = ((some now, none), [.intrusion]) := by
    rw [occupy, if_pos rfl]
    dsimp only
    rw [if_neg (by decide), Option.getD_none, if_neg hnever, if_pos (Nat.sub_self now)]
  cases n with
  | zero => exact absurd hn (lt_irrefl 0)
  | succ n =>
      rw [occupyTimes, hone]
      dsimp only
      rw [occupyTimes_inside hnever, if_pos (Nat.sub_self now)]
      rfl

theorem occupy_armed {inside : Bool} {o : Occupancy} (h : o.1 = none → o.2 = none) :
    (occupy zone now inside o).1.1 = none → (occupy zone now inside o).1.2 = none := by
  rw [occupy]
  split
  · dsimp only
    split
    · simp
    · split <;> simp
  · split
    · simp
    · exact h

theorem occupyTimes_armed {inside : Bool} {o : Occupancy} (h : o.1 = none → o.2 = none) :
    (occupyTimes zone now inside n o).1.1 = none →
      (occupyTimes zone now inside n o).1.2 = none := by
  induction n generalizing o with
  | zero => exact h
  | succ n ih => exact ih (occupy_armed h)

end Occupy

/-! ### Runs -/

section Run

variable {zones : List (Zone ℚ)} {zi id : ℕ} {zone : Zone ℚ} {e : ZoneEngine} {u : Update}

theorem listed_pos {center : Point} (h : nextPos u.tracks id = some center) : 0 < listed id u := by
  rw [nextPos_eq, Option.map_eq_some_iff] at h
  obtain ⟨t, ht, -⟩ := h
  rw [listed, List.countP_eq_length_filter]
  exact List.length_pos_of_mem (List.mem_of_getLast? ht)

/-- Where no time is kept, no `Loiter` is. -/
theorem update_armed (h : zones[zi]? = some zone) (hkind : zone.kind = .intrusion)
    (harmed : (e.occupancy (zi, id)).1 = none → (e.occupancy (zi, id)).2 = none) :
    ((e.update zones u).1.occupancy (zi, id)).1 = none →
      ((e.update zones u).1.occupancy (zi, id)).2 = none := by
  cases hpos : nextPos u.tracks id with
  | none =>
      rw [updateZones_absent h hpos]
      exact fun _ => rfl
  | some center =>
      rw [(updateZones_intrusion h hkind hpos).1]
      exact occupyTimes_armed harmed

/-- An update outside of the zone. -/
theorem update_outside (h : zones[zi]? = some zone) (hkind : zone.kind = .intrusion)
    (harmed : (e.occupancy (zi, id)).1 = none → (e.occupancy (zi, id)).2 = none)
    (hout : inZone zone id u = false) : (e.update zones u).1.occupancy (zi, id) = (none, none) := by
  cases hpos : nextPos u.tracks id with
  | none => exact updateZones_absent h hpos
  | some center =>
      rw [inZone, hpos, Option.any_some] at hout
      rw [(updateZones_intrusion h hkind hpos).1, hout]
      exact congrArg Prod.fst (occupyTimes_outside harmed (listed_pos hpos))

/-- **Between stays nothing is kept.** -/
theorem occupancy_run (h : zones[zi]? = some zone) (hkind : zone.kind = .intrusion)
    {pre : List Update} (hout : ∀ u, pre.getLast? = some u → inZone zone id u = false) :
    (ZoneEngine.run zones {} pre).occupancy (zi, id) = (none, none) := by
  have harmed : ∀ us : List Update, ((ZoneEngine.run zones {} us).occupancy (zi, id)).1 = none →
      ((ZoneEngine.run zones {} us).occupancy (zi, id)).2 = none := by
    intro us
    induction us using List.reverseRecOn with
    | nil => exact fun _ => rfl
    | append_singleton us u ih =>
        rw [ZoneEngine.run, List.foldl_append]
        exact update_armed h hkind ih
  rcases List.eq_nil_or_concat' pre with rfl | ⟨us, u, rfl⟩
  · rfl
  · rw [ZoneEngine.run, List.foldl_append]
    exact update_outside h hkind (harmed us) (hout u List.getLast?_concat)

/-- An update in the zone, for a track that is there already. -/
theorem update_inside (h : zones[zi]? = some zone) (hkind : zone.kind = .intrusion)
    (hin : inZone zone id u = true) (o : Occupancy) (ho : e.occupancy (zi, id) = o) :
    0 < listed id u ∧
      (e.update zones u).1.occupancy (zi, id) =
        (occupyTimes zone u.nowMs true (listed id u) o).1 ∧
      kindsOf id ((e.updateZones zones u).2.getD zi []) =
        (occupyTimes zone u.nowMs true (listed id u) o).2 := by
  rw [inZone, Option.any_eq_true] at hin
  obtain ⟨center, hpos, hinside⟩ := hin
  have hupdate := @updateZones_intrusion zones zi id zone e u center h hkind hpos
  rw [hinside, ho] at hupdate
  exact ⟨listed_pos hpos, hupdate⟩

/-- **What an engine fires in a stay.** -/
theorem firedKinds_stay (h : zones[zi]? = some zone) (hkind : zone.kind = .intrusion)
    {us : List Update} (hin : ∀ u ∈ us, inZone zone id u = true) {entered : ℕ} {fired : Bool}
    (ho : e.occupancy (zi, id) = (some entered, if fired then some true else none)) :
    firedKinds zones zi id e us = stayKinds zone id entered fired us := by
  induction us generalizing e fired with
  | nil =>
      cases fired <;> rfl
  | cons u us ih =>
      obtain ⟨hlisted, hstate, hkinds⟩ := update_inside h hkind (hin u List.mem_cons_self) _ ho
      have hrest := fun w hw => hin w (List.mem_cons_of_mem u hw)
      rw [firedKinds, hkinds]
      cases fired with
      | true =>
          rw [if_pos rfl, occupyTimes_fired] at hstate
          rw [if_pos rfl, occupyTimes_fired, stayKinds, @ih _ hrest true hstate]
      | false =>
          rw [if_neg Bool.false_ne_true] at hstate ⊢
          rw [stayKinds]
          by_cases hdue : Due zone entered u
          · rw [occupyTimes_due hdue hlisted] at hstate ⊢
            rw [if_pos hdue, @ih _ hrest true hstate]
          · rw [occupyTimes_inside hdue] at hstate ⊢
            rw [if_neg hdue, @ih _ hrest false hstate]

end Run

/-! ### Stays -/

section Stay

variable {zone : Zone ℚ} {id entered : ℕ}

theorem stayKinds_fired (us : List Update) :
    stayKinds zone id entered true us = List.replicate us.length [] := by
  induction us with
  | nil => rfl
  | cons u us ih => rw [stayKinds, ih, List.length_cons, List.replicate_succ]

/-- **No further `Intrusion`**: until a `Loiter` is due, the clock reads more than at the entry. -/
theorem no_intrusion_iff {us : List Update} (hlisted : ∀ u ∈ us, 0 < listed id u) :
    (∀ kinds ∈ stayKinds zone id entered false us, ZoneEventKind.intrusion ∉ kinds) ↔
      ∀ a u b, us = a ++ u :: b → (∀ w ∈ a, ¬ Due zone entered w) → entered < u.nowMs := by
  induction us with
  | nil =>
      refine ⟨fun _ a u b heq => ?_, fun _ kinds hkinds => absurd hkinds List.not_mem_nil⟩
      exact absurd heq.symm (List.append_ne_nil_of_right_ne_nil a (List.cons_ne_nil u b))
  | cons u us ih =>
      have hrest := ih fun w hw => hlisted w (List.mem_cons_of_mem u hw)
      rw [stayKinds]
      by_cases hdue : Due zone entered u
      · -- the `Loiter` is due now
        have hlater : entered < u.nowMs := by
          obtain ⟨hpos, hle⟩ := hdue
          omega
        rw [if_pos hdue, stayKinds_fired]
        refine ⟨fun _ a w b heq ha => ?_, fun _ kinds hkinds => ?_⟩
        · cases a with
          | nil =>
              obtain ⟨rfl, -⟩ := List.cons.inj heq
              exact hlater
          | cons v a =>
              obtain ⟨rfl, -⟩ := List.cons.inj heq
              exact absurd hdue (ha _ List.mem_cons_self)
        · rcases List.mem_cons.1 hkinds with rfl | hkinds
          · decide
          · rw [(List.mem_replicate.1 hkinds).2]
            exact List.not_mem_nil
      · rw [if_neg hdue, List.forall_mem_cons, hrest]
        have hfirst : (ZoneEventKind.intrusion ∉
            (if u.nowMs - entered = 0 then List.replicate (listed id u) ZoneEventKind.intrusion
              else [])) ↔ entered < u.nowMs := by
          have hpos := hlisted u List.mem_cons_self
          split
          · rename_i hzero
            rw [List.mem_replicate]
            exact ⟨fun hno => absurd ⟨hpos.ne', rfl⟩ hno, fun hlt => by omega⟩
          · exact ⟨fun _ => by omega, fun _ => List.not_mem_nil⟩
        rw [hfirst]
        constructor
        · rintro ⟨hlater, hall⟩ a w b heq ha
          cases a with
          | nil =>
              obtain ⟨rfl, -⟩ := List.cons.inj heq
              exact hlater
          | cons v a =>
              obtain ⟨rfl, rfl⟩ := List.cons.inj heq
              exact hall a w b rfl fun x hx => ha x (List.mem_cons_of_mem _ hx)
        · intro hall
          refine ⟨hall [] u us rfl fun x hx => absurd hx List.not_mem_nil, ?_⟩
          rintro a w b rfl ha
          refine hall (u :: a) w b rfl fun x hx => ?_
          rcases List.mem_cons.1 hx with rfl | hx
          · exact hdue
          · exact ha x hx

theorem count_loiter_entered {n : ℕ} {p : Prop} [Decidable p] :
    (if p then List.replicate n ZoneEventKind.intrusion else []).count .loiter = 0 := by
  split
  · rw [List.count_replicate]
    rfl
  · rfl

/-- **The `Loiter`** is fired by the first update at which it is due. -/
theorem count_loiter {a b us : List Update} {u : Update} (heq : us = a ++ u :: b) :
    ((stayKinds zone id entered false us).getD a.length []).count .loiter =
      if Due zone entered u ∧ ∀ w ∈ a, ¬ Due zone entered w then 1 else 0 := by
  subst heq
  induction a with
  | nil =>
      rw [List.nil_append, stayKinds]
      by_cases hdue : Due zone entered u
      · rw [if_pos hdue, if_pos ⟨hdue, fun w hw => absurd hw List.not_mem_nil⟩]
        rfl
      · have hno : ¬ (Due zone entered u ∧ ∀ w ∈ ([] : List Update), ¬ Due zone entered w) :=
          fun hc => hdue hc.1
        rw [if_neg hdue, if_neg hno, List.length_nil, List.getD_cons_zero]
        exact count_loiter_entered
  | cons v a ih =>
      rw [List.cons_append, stayKinds]
      by_cases hdue : Due zone entered v
      · have hnone : ∀ k, (List.replicate k ([] : List ZoneEventKind)).getD a.length [] = [] := by
          intro k
          rw [List.getD_eq_getElem?_getD, List.getElem?_replicate]
          split <;> rfl
        rw [if_pos hdue, if_neg fun hc => hc.2 v List.mem_cons_self hdue, stayKinds_fired,
          List.length_cons, List.getD_cons_succ, hnone]
        rfl
      · rw [if_neg hdue, List.length_cons, List.getD_cons_succ, ih]
        refine if_congr (and_congr_right fun _ => ?_) rfl rfl
        rw [List.forall_mem_cons]
        exact ⟨fun h => ⟨hdue, h⟩, fun h => h.2⟩

/-- There is at most one. -/
theorem count_loiter_le_one (us : List Update) :
    (stayKinds zone id entered false us).flatten.count .loiter ≤ 1 := by
  induction us with
  | nil => exact Nat.zero_le 1
  | cons u us ih =>
      rw [stayKinds]
      by_cases hdue : Due zone entered u
      · have hnone : (List.replicate us.length ([] : List ZoneEventKind)).flatten = [] := by simp
        rw [if_pos hdue, stayKinds_fired, List.flatten_cons, hnone]
        decide
      · rw [if_neg hdue, List.flatten_cons, List.count_append, count_loiter_entered, Nat.zero_add]
        exact ih

end Stay

/-- **Which stays fire one `Intrusion`**, at the first update and at no other: those in which the track
is listed once when it comes in, and in which the clock reads more than then until a `Loiter` is due.
Every stay fires a `Loiter` when it is due for the first time, and at no other time. -/
theorem oneIntrusion_iff {zones : List (Zone ℚ)} {zi id : ℕ} {zone : Zone ℚ}
    {pre rest : List Update} {first : Update} (h : zones[zi]? = some zone)
    (hkind : zone.kind = .intrusion)
    (hout : ∀ u, pre.getLast? = some u → inZone zone id u = false)
    (hin : ∀ u ∈ first :: rest, inZone zone id u = true) :
    (OneIntrusion (firedKinds zones zi id (ZoneEngine.run zones {} pre) (first :: rest)) ↔
      listed id first = 1 ∧ ∀ a u b, rest = a ++ u :: b →
        (∀ w ∈ a, ¬ Due zone first.nowMs w) → first.nowMs < u.nowMs) ∧
    (∀ a u b, first :: rest = a ++ u :: b →
      ((firedKinds zones zi id (ZoneEngine.run zones {} pre) (first :: rest)).getD a.length []).count
          .loiter =
        if Due zone first.nowMs u ∧ ∀ w ∈ a, ¬ Due zone first.nowMs w then 1 else 0) ∧
    (firedKinds zones zi id (ZoneEngine.run zones {} pre) (first :: rest)).flatten.count .loiter
      ≤ 1 := by
  obtain ⟨hlisted, hstate, hkinds⟩ :=
    update_inside h hkind (hin first List.mem_cons_self) _ (occupancy_run h hkind hout)
  rw [occupyTimes_entry hlisted] at hstate hkinds
  have hrest := fun w hw => hin w (List.mem_cons_of_mem first hw)
  have hfired : firedKinds zones zi id (ZoneEngine.run zones {} pre) (first :: rest) =
      List.replicate (listed id first) .intrusion ::
        stayKinds zone id first.nowMs false rest := by
    rw [firedKinds, hkinds, @firedKinds_stay _ _ _ _ _ h hkind _ hrest first.nowMs false hstate]
  have hlistedRest : ∀ u ∈ rest, 0 < listed id u := by
    intro u hu
    have hpos := hrest u hu
    rw [inZone, Option.any_eq_true] at hpos
    obtain ⟨center, hcenter, -⟩ := hpos
    exact listed_pos hcenter
  have hnotDue : ¬ Due zone first.nowMs first := by
    rintro ⟨hpos, hle⟩
    omega
  rw [hfired]
  refine ⟨?_, ?_, ?_⟩
  · rw [← no_intrusion_iff hlistedRest]
    constructor
    · rintro ⟨k, ks, heq, hone, hno⟩
      obtain ⟨rfl, rfl⟩ := List.cons.inj heq
      rw [List.count_replicate_self] at hone
      exact ⟨hone, hno⟩
    · rintro ⟨hone, hno⟩
      refine ⟨_, _, rfl, ?_, hno⟩
      rw [List.count_replicate_self, hone]
  · intro a u b heq
    cases a with
    | nil =>
        obtain ⟨rfl, -⟩ := List.cons.inj heq
        rw [if_neg fun hc => hnotDue hc.1, List.length_nil, List.getD_cons_zero,
          List.count_replicate]
        rfl
    | cons v a =>
        obtain ⟨hv, hrest⟩ := List.cons.inj heq
        subst hv
        rw [List.length_cons, List.getD_cons_succ, count_loiter hrest]
        refine if_congr (and_congr_right fun _ => ?_) rfl rfl
        rw [List.forall_mem_cons]
        exact ⟨fun hall => ⟨hnotDue, hall⟩, fun hall => hall.2⟩
  · rw [List.flatten_cons, List.count_append, List.count_replicate]
    exact (Nat.zero_add _).le.trans (count_loiter_le_one rest)

/-- A yard, and a track in it. -/
def yard : Zone ℚ := ⟨"yard", .intrusion, [(100, 100), (300, 100), (300, 300), (100, 300)], 3⟩

/-- The track is there at a time. -/
def inYard (nowMs : ℕ) : Update := ⟨"0", [Track.spawn 1 ⟨"person", 9 / 10, ⟨100, 280, 10, 10⟩⟩], nowMs⟩

/-- A stay of which the clock reads more and more. -/
theorem oneIntrusion_iff_later :
    OneIntrusion (firedKinds [yard] 0 1 (ZoneEngine.run [yard] {} []) [inYard 1000, inYard 2500]) := by
  have hout : ∀ u, ([] : List Update).getLast? = some u → inZone yard 1 u = false :=
    fun u hu => by cases hu
  have hinYard : inZone yard 1 (inYard 1000) = true ∧ inZone yard 1 (inYard 2500) = true := by
    decide +kernel
  have hin : ∀ u ∈ [inYard 1000, inYard 2500], inZone yard 1 u = true := by
    simp [hinYard.1, hinYard.2]
  refine (@oneIntrusion_iff [yard] 0 1 yard [] [inYard 2500] (inYard 1000) rfl rfl hout hin).1.2
    ⟨by decide, ?_⟩
  intro a u b heq _
  cases a with
  | nil =>
      obtain ⟨rfl, -⟩ := List.cons.inj heq
      decide
  | cons v a =>
      exact absurd (List.cons.inj heq).2.symm
        (List.append_ne_nil_of_right_ne_nil a (List.cons_ne_nil u b))

/-- **Two updates at one reading of the clock** fire two. -/
theorem intrusion_twice : ¬ ∀ (zones : List (Zone ℚ)) (zi id : ℕ) (zone : Zone ℚ)
    (pre rest : List Update) (first : Update), zones[zi]? = some zone → zone.kind = .intrusion →
    (∀ u, pre.getLast? = some u → inZone zone id u = false) →
    (∀ u ∈ first :: rest, inZone zone id u = true) →
      OneIntrusion (firedKinds zones zi id (ZoneEngine.run zones {} pre) (first :: rest)) := by
  intro h
  have hinYard : inZone yard 1 (inYard 1000) = true := by decide +kernel
  have hfired : firedKinds [yard] 0 1 (ZoneEngine.run [yard] {} []) [inYard 1000, inYard 1000] =
      [[.intrusion], [.intrusion]] := by decide +kernel
  obtain ⟨first, rest, heq, -, hno⟩ := h [yard] 0 1 yard [] [inYard 1000] (inYard 1000) rfl rfl
    (fun u hu => by cases hu) (by simp [hinYard])
  rw [hfired] at heq
  obtain ⟨rfl, rfl⟩ := List.cons.inj heq
  exact hno _ (List.mem_singleton_self _) (List.mem_singleton_self _)

end ZoneEvents

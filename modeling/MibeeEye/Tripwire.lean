/-
**Tripwires.**

A track fires `LineCross` for a step from where it was to where it is, if the step and the tripwire
intersect within the tolerances.  A step from one side to the other always does.  So does a step to a
point on the line, and the step from it: a track that takes such a point on its way fires for both,
and one that only touches the line fires for nothing.

Main definitions:

* `ZoneEvents.stepEvents` — what is fired for the steps of a trajectory;
* `ZoneEvents.Projects` — a point whose projection is on the tripwire;
* `ZoneEvents.Untouched` — a trajectory that stays away from the tripwire;
* `ZoneEvents.At` — where a track is in an update.

Main results:

* `ZoneEvents.segmentsIntersect_of_sides`, `ZoneEvents.segmentsIntersect_same_side`,
  `ZoneEvents.onSegment_of_touch` — the three kinds of steps;
* `ZoneEvents.firedKinds_lineCross` — what an engine fires for a trajectory;
* `ZoneEvents.one_lineCross_iff` — **which passages fire one `LineCross`**.
-/

import MibeeEye.ZoneEngine

set_option relaxedAutoImplicit false
set_option autoImplicit false

namespace ZoneEvents

open Tracking (Track)
open Zones

/-! ### Sides -/

section Sides

variable {c d p q : Point}

theorem sign_eq_one_iff {v : ℚ} : sign v = 1 ↔ eps < v := by
  rw [sign]
  split
  · simp_all
  · split <;> simp_all

theorem sign_eq_neg_one_iff {v : ℚ} : sign v = -1 ↔ v < -eps := by
  have heps : (0 : ℚ) < eps := by norm_num [eps]
  rw [sign]
  split
  · rename_i hlt
    exact ⟨fun h => by simp at h, fun h => by linarith⟩
  · split <;> simp_all

theorem sign_eq_zero_iff {v : ℚ} : sign v = 0 ↔ -eps ≤ v ∧ v ≤ eps := by
  rw [sign]
  split
  · rename_i hlt
    exact ⟨fun h => by simp at h, fun h => by linarith [h.2]⟩
  · rename_i hle
    split
    · rename_i hlt
      exact ⟨fun h => by simp at h, fun h => by linarith [h.1]⟩
    · rename_i hge
      exact ⟨fun _ => ⟨not_lt.1 hge, not_lt.1 hle⟩, fun _ => rfl⟩

/-- How far along the tripwire a point is, times its length. -/
def along (c d p : Point) : ℚ := (d.1 - c.1) * (p.1 - c.1) + (d.2 - c.2) * (p.2 - c.2)

/-- The square of the length of the tripwire. -/
def lengthSq (c d : Point) : ℚ := (d.1 - c.1) ^ 2 + (d.2 - c.2) ^ 2

/-- **A point that projects inside the tripwire.** -/
def Projects (c d p : Point) : Prop := 0 ≤ along c d p ∧ along c d p ≤ lengthSq c d

instance (c d p : Point) : Decidable (Projects c d p) := inferInstanceAs (Decidable (_ ∧ _))

/-- The side of a point is an orientation. -/
theorem orient_eq_sideOf (c d p : Point) : orient c d p = sideOf p c d := rfl

/-- How the ends of the tripwire are to a step. -/
theorem lengthSq_mul_orient_left (c d p q : Point) :
    lengthSq c d * orient p q c = along c d p * sideOf q c d - along c d q * sideOf p c d := by
  simp only [lengthSq, orient, along, sideOf]
  ring

theorem orient_right (c d p q : Point) :
    orient p q d = orient p q c + (sideOf p c d - sideOf q c d) := by
  simp only [orient, sideOf]
  ring

theorem lengthSq_mul_orient_right (c d p q : Point) :
    lengthSq c d * orient p q d =
      (lengthSq c d - along c d q) * sideOf p c d -
        (lengthSq c d - along c d p) * sideOf q c d := by
  rw [orient_right, mul_add, lengthSq_mul_orient_left]
  ring

theorem lengthSq_nonneg (c d : Point) : 0 ≤ lengthSq c d := by
  rw [lengthSq]
  nlinarith [sq_nonneg (d.1 - c.1), sq_nonneg (d.2 - c.2)]

/-- A point that is on neither side is there if the tripwire has no length. -/
theorem lengthSq_pos (h : sideOf p c d ≠ 0) : 0 < lengthSq c d := by
  rcases (lengthSq_nonneg c d).lt_or_eq with hlt | heq
  · exact hlt
  · have hx : d.1 - c.1 = 0 := by
      rw [lengthSq] at heq
      nlinarith [sq_nonneg (d.1 - c.1), sq_nonneg (d.2 - c.2)]
    have hy : d.2 - c.2 = 0 := by
      rw [lengthSq] at heq
      nlinarith [sq_nonneg (d.1 - c.1), sq_nonneg (d.2 - c.2)]
    exact absurd (by rw [sideOf, hx, hy]; ring) h

/-- The ends of the tripwire are on different sides of a step that goes over it. -/
theorem orient_of_sides (hp : 0 < sideOf p c d) (hq : sideOf q c d < 0) (hpin : Projects c d p)
    (hqin : Projects c d q) : orient p q c ≤ 0 ∧ 0 ≤ orient p q d := by
  have hlen : 0 < lengthSq c d := lengthSq_pos hp.ne'
  have hleft := lengthSq_mul_orient_left c d p q
  have hright := lengthSq_mul_orient_right c d p q
  have h1 : along c d p * sideOf q c d ≤ 0 := mul_nonpos_of_nonneg_of_nonpos hpin.1 hq.le
  have h2 : 0 ≤ along c d q * sideOf p c d := mul_nonneg hqin.1 hp.le
  have h3 : 0 ≤ (lengthSq c d - along c d q) * sideOf p c d :=
    mul_nonneg (sub_nonneg.2 hqin.2) hp.le
  have h4 : (lengthSq c d - along c d p) * sideOf q c d ≤ 0 :=
    mul_nonpos_of_nonneg_of_nonpos (sub_nonneg.2 hpin.2) hq.le
  constructor
  · by_contra hpos
    have := mul_pos hlen (not_le.1 hpos)
    linarith
  · by_contra hneg
    have := mul_neg_of_pos_of_neg hlen (not_le.1 hneg)
    linarith

/-- The other direction of a step. -/
theorem orient_swap (p q r : Point) : orient q p r = -orient p q r := by
  simp only [orient]
  ring

/-- Two orientations that are far from each other, around zero. -/
theorem sign_ne_of_far {u v : ℚ} (hu : u ≤ 0) (hv : 0 ≤ v) (hfar : 2 * eps < v - u) :
    sign u ≠ sign v ∧ ¬ (sign u = 0 ∧ sign v = 0) := by
  have heps : (0 : ℚ) < eps := by norm_num [eps]
  have hzero : ¬ (sign u = 0 ∧ sign v = 0) := by
    rintro ⟨hu0, hv0⟩
    have hu' := (sign_eq_zero_iff.1 hu0).1
    have hv' := (sign_eq_zero_iff.1 hv0).2
    linarith
  refine ⟨fun heq => ?_, hzero⟩
  have hu1 : sign u ≠ 1 := fun h => by linarith [sign_eq_one_iff.1 h]
  have hv1 : sign v ≠ -1 := fun h => by linarith [sign_eq_neg_one_iff.1 h]
  have hall : sign u = 1 ∨ sign u = -1 ∨ sign u = 0 := by
    rw [sign]
    split
    · exact .inl rfl
    · split
      · exact .inr (.inl rfl)
      · exact .inr (.inr rfl)
  rcases hall with h | h | h
  · exact hu1 h
  · exact hv1 (heq ▸ h)
  · exact hzero ⟨h, heq ▸ h⟩

/-! ### Steps -/

/-- **A step from one side to the other** meets the tripwire. -/
theorem segmentsIntersect_of_sides {s : ℤ} (hs : s ≠ 0) (hp : sign (sideOf p c d) = s)
    (hq : sign (sideOf q c d) = -s) (hpin : Projects c d p) (hqin : Projects c d q) :
    segmentsIntersect p q c d = true := by
  have heps : (0 : ℚ) < eps := by norm_num [eps]
  have hboth : sign (orient p q c) ≠ sign (orient p q d) ∧
      ¬ (sign (orient p q c) = 0 ∧ sign (orient p q d) = 0) := by
    have hright := orient_right c d p q
    have hall : s = 1 ∨ s = -1 := by
      rw [sign] at hp
      split at hp
      · exact .inl hp.symm
      · split at hp
        · exact .inr hp.symm
        · exact absurd hp.symm hs
    rcases hall with rfl | rfl
    · have hp' := sign_eq_one_iff.1 hp
      have hq' := sign_eq_neg_one_iff.1 hq
      obtain ⟨hc, hd⟩ := orient_of_sides (by linarith) (by linarith) hpin hqin
      exact sign_ne_of_far hc hd (by linarith)
    · have hp' := sign_eq_neg_one_iff.1 hp
      have hq' := sign_eq_one_iff.1 hq
      obtain ⟨hc, hd⟩ := orient_of_sides (p := q) (q := p) (by linarith) (by linarith) hqin hpin
      rw [orient_swap p q] at hc hd
      obtain ⟨hne, hzero⟩ := sign_ne_of_far (u := orient p q d) (v := orient p q c) (by linarith)
        (by linarith) (by linarith)
      exact ⟨hne.symm, fun h => hzero h.symm⟩
  have hsides : sign (orient c d p) ≠ sign (orient c d q) := by
    rw [orient_eq_sideOf, orient_eq_sideOf, hp, hq]
    omega
  rw [segmentsIntersect]
  rw [if_pos ⟨hboth.1, hsides, hboth.2⟩]

/-- An end of the tripwire is on a step, within the tolerances. -/
def EndOnStep (c d p q : Point) : Prop :=
  sign (orient p q c) = 0 ∧ onSegment p c q = true ∨ sign (orient p q d) = 0 ∧ onSegment p d q = true

instance (c d p q : Point) : Decidable (EndOnStep c d p q) := inferInstanceAs (Decidable (_ ∨ _))

/-- **A step on one side** meets the tripwire just if an end of it is on the step. -/
theorem segmentsIntersect_same_side {s : ℤ} (hs : s ≠ 0) (hp : sign (sideOf p c d) = s)
    (hq : sign (sideOf q c d) = s) : segmentsIntersect p q c d = true ↔ EndOnStep c d p q := by
  rw [← orient_eq_sideOf] at hp hq
  rw [segmentsIntersect, EndOnStep]
  rw [hp, hq, if_neg fun h => h.2.1 rfl]
  split
  · rename_i h
    exact ⟨fun _ => .inl h, fun _ => rfl⟩
  · rename_i hc
    split
    · rename_i h
      exact ⟨fun _ => .inr h, fun _ => rfl⟩
    · rename_i hd
      rw [if_neg fun h => hs h.1, if_neg fun h => hs h.1]
      exact ⟨fun h => (by cases h), fun h => absurd h (not_or.2 ⟨hc, hd⟩)⟩

/-- A point on the line, by its coordinate: it is as far along as its projection, within the
tolerance. -/
theorem coordinate_of_touch {len w z a x r : ℚ} (hlen : 1 ≤ len) (hz : z ^ 2 ≤ len)
    (ha : 0 ≤ a) (ha' : a ≤ len) (hx : -eps ≤ x) (hx' : x ≤ eps) (hr : len * r = a * w - x * z) :
    min 0 w - eps ≤ r ∧ r ≤ max 0 w + eps := by
  have heps : (0 : ℚ) < eps := by norm_num [eps]
  have hlen0 : 0 < len := by linarith
  have hw1 : z ≤ len := by nlinarith [sq_nonneg (z - 1)]
  have hw2 : -len ≤ z := by nlinarith [sq_nonneg (z + 1)]
  have hxw1 : x * z ≤ eps * len := by
    rcases le_total 0 z with h | h
    · nlinarith
    · nlinarith
  have hxw2 : -(eps * len) ≤ x * z := by
    rcases le_total 0 z with h | h
    · nlinarith
    · nlinarith
  constructor
  · have hmin : len * min 0 w ≤ a * w := by
      rcases le_total 0 w with h | h
      · rw [min_eq_left h, mul_zero]
        exact mul_nonneg ha h
      · rw [min_eq_right h]
        nlinarith
    by_contra hlt
    have := mul_lt_mul_of_pos_left (not_le.1 hlt) hlen0
    nlinarith
  · have hmax : a * w ≤ len * max 0 w := by
      rcases le_total 0 w with h | h
      · rw [max_eq_right h]
        nlinarith
      · rw [max_eq_left h, mul_zero]
        exact mul_nonpos_of_nonneg_of_nonpos ha h
    by_contra hlt
    have := mul_lt_mul_of_pos_left (not_le.1 hlt) hlen0
    nlinarith

/-- **A point on the line** is on the tripwire, if this is at least one pixel long. -/
theorem onSegment_of_touch (hlen : 1 ≤ lengthSq c d) (hp : sign (sideOf p c d) = 0)
    (hpin : Projects c d p) : onSegment c p d = true := by
  obtain ⟨hside, hside'⟩ := sign_eq_zero_iff.1 hp
  obtain ⟨halong, halong'⟩ := hpin
  have hsq : (d.1 - c.1) ^ 2 ≤ lengthSq c d ∧ (d.2 - c.2) ^ 2 ≤ lengthSq c d := by
    rw [lengthSq]
    constructor
    · nlinarith [sq_nonneg (d.2 - c.2)]
    · nlinarith [sq_nonneg (d.1 - c.1)]
  have hx := coordinate_of_touch (r := p.1 - c.1) (w := d.1 - c.1) (z := d.2 - c.2) hlen hsq.2
    halong halong' hside hside' (by simp only [lengthSq, along, sideOf]; ring)
  have hy := coordinate_of_touch (r := p.2 - c.2) (w := d.2 - c.2) (z := -(d.1 - c.1)) hlen
    (by rw [neg_sq]; exact hsq.1) halong halong' hside hside'
    (by simp only [lengthSq, along, sideOf]; ring)
  have hminmax : ∀ a b : ℚ, min a b = a + min 0 (b - a) ∧ max a b = a + max 0 (b - a) := by
    intro a b
    rcases le_total a b with h | h
    · rw [min_eq_left h, max_eq_right h, min_eq_left (sub_nonneg.2 h), max_eq_right (sub_nonneg.2 h)]
      constructor <;> ring
    · rw [min_eq_right h, max_eq_left h, min_eq_right (sub_nonpos.2 h),
        max_eq_left (sub_nonpos.2 h)]
      constructor <;> ring
  rw [onSegment, decide_eq_true_eq, (hminmax c.1 d.1).1, (hminmax c.1 d.1).2, (hminmax c.2 d.2).1,
    (hminmax c.2 d.2).2]
  refine ⟨?_, ?_, ?_, ?_⟩
  · linarith [hx.1]
  · linarith [hx.2]
  · linarith [hy.1]
  · linarith [hy.2]

/-- A step that begins or ends on the tripwire meets it. -/
theorem segmentsIntersect_of_touch (hlen : 1 ≤ lengthSq c d)
    (h : sign (sideOf p c d) = 0 ∧ Projects c d p ∨ sign (sideOf q c d) = 0 ∧ Projects c d q) :
    segmentsIntersect p q c d = true := by
  rw [segmentsIntersect]
  split
  · rfl
  · split
    · rfl
    · split
      · rfl
      · split
        · rfl
        · rename_i hp
          split
          · rfl
          · rename_i hq
            rcases h with ⟨hside, hin⟩ | ⟨hside, hin⟩
            · exact absurd ⟨hside, onSegment_of_touch hlen hside hin⟩ hp
            · exact absurd ⟨hside, onSegment_of_touch hlen hside hin⟩ hq

end Sides

/-! ### Trajectories -/

/-- What is fired for the steps of a trajectory: the direction of each that meets the tripwire. -/
@[grind =] def stepEvents (c d : Point) : Point → List Point → List Bool
  | _, [] => []
  | p, q :: points =>
      (if segmentsIntersect p q c d then [decide (sideOf q c d < 0)] else []) ++
        stepEvents c d q points

/-- **A trajectory that stays away from the tripwire**: no point is on its line, and no step meets an
end of it. -/
def Untouched (c d : Point) : Point → List Point → Prop
  | _, [] => True
  | p, q :: points => sign (sideOf q c d) ≠ 0 ∧ ¬ EndOnStep c d p q ∧ Untouched c d q points

instance decidableUntouched (c d : Point) : ∀ p points, Decidable (Untouched c d p points)
  | _, [] => inferInstanceAs (Decidable True)
  | _, q :: points =>
      have := decidableUntouched c d q points
      inferInstanceAs (Decidable (_ ∧ _ ∧ _))

section Trajectories

variable {c d p q : Point} {points : List Point} {s : ℤ}

/-- A point that is not on the other side is on this one, or on the line. -/
theorem sign_cases {v : ℚ} (hs : s = 1 ∨ s = -1) (h : sign v ≠ -s) : sign v = s ∨ sign v = 0 := by
  have hall : sign v = 1 ∨ sign v = -1 ∨ sign v = 0 := by
    rw [sign]
    split
    · exact .inl rfl
    · split
      · exact .inr (.inl rfl)
      · exact .inr (.inr rfl)
  omega

/-- **A passage fires once** if it stays away from the tripwire until it goes over. -/
theorem stepEvents_of_untouched (hs : s = 1 ∨ s = -1) (hp : sign (sideOf p c d) = s)
    (hpoints : ∀ m ∈ points, sign (sideOf m c d) ≠ -s) (hq : sign (sideOf q c d) = -s)
    (hin : ∀ r ∈ p :: (points ++ [q]), Projects c d r) (h : Untouched c d p points) :
    stepEvents c d p (points ++ [q]) = [decide (sideOf q c d < 0)] := by
  have hs0 : s ≠ 0 := by omega
  induction points generalizing p with
  | nil =>
      have hstep := segmentsIntersect_of_sides hs0 hp hq (hin p List.mem_cons_self)
        (hin q (by simp))
      rw [List.nil_append, stepEvents, if_pos hstep]
      rfl
  | cons m points ih =>
      obtain ⟨hm, hend, hrest⟩ := h
      have hside := (sign_cases hs (hpoints m List.mem_cons_self)).resolve_right hm
      have hstep := mt (segmentsIntersect_same_side hs0 hp hside).1 hend
      rw [List.cons_append, stepEvents, if_neg hstep, List.nil_append]
      exact ih hside (fun r hr => hpoints r (List.mem_cons_of_mem m hr))
        (fun r hr => hin r (List.mem_cons_of_mem p hr)) hrest

/-- A passage fires, from a point on this side or on the line. -/
theorem stepEvents_length_pos (hlen : 1 ≤ lengthSq c d) (hs : s = 1 ∨ s = -1)
    (hp : sign (sideOf p c d) ≠ -s) (hpoints : ∀ m ∈ points, sign (sideOf m c d) ≠ -s)
    (hq : sign (sideOf q c d) = -s) (hin : ∀ r ∈ p :: (points ++ [q]), Projects c d r) :
    0 < (stepEvents c d p (points ++ [q])).length := by
  induction points generalizing p with
  | nil =>
      have hstep : segmentsIntersect p q c d = true := by
        have hpin := hin p List.mem_cons_self
        rcases sign_cases hs hp with hside | htouch
        · exact segmentsIntersect_of_sides (by omega) hside hq hpin (hin q (by simp))
        · exact segmentsIntersect_of_touch hlen (.inl ⟨htouch, hpin⟩)
      rw [List.nil_append, stepEvents, if_pos hstep]
      exact Nat.one_pos
  | cons m points ih =>
      have hrest := ih (hpoints m List.mem_cons_self)
        (fun r hr => hpoints r (List.mem_cons_of_mem m hr))
        fun r hr => hin r (List.mem_cons_of_mem p hr)
      rw [List.cons_append, stepEvents, List.length_append]
      omega

/-- **A passage that touches the tripwire fires more than once.** -/
theorem untouched_of_length (hlen : 1 ≤ lengthSq c d) (hs : s = 1 ∨ s = -1)
    (hp : sign (sideOf p c d) = s) (hpoints : ∀ m ∈ points, sign (sideOf m c d) ≠ -s)
    (hq : sign (sideOf q c d) = -s) (hin : ∀ r ∈ p :: (points ++ [q]), Projects c d r)
    (h : (stepEvents c d p (points ++ [q])).length = 1) : Untouched c d p points := by
  induction points generalizing p with
  | nil => trivial
  | cons m points ih =>
      have hpoints' := fun r hr => hpoints r (List.mem_cons_of_mem m hr)
      have hin' := fun r hr => hin r (List.mem_cons_of_mem p hr)
      have hrest := stepEvents_length_pos hlen hs (hpoints m List.mem_cons_self) hpoints' hq hin'
      rw [List.cons_append, stepEvents, List.length_append] at h
      have hstep : ¬ segmentsIntersect p m c d = true := by
        intro hstep
        rw [if_pos hstep, List.length_singleton] at h
        omega
      have hm : sign (sideOf m c d) ≠ 0 := fun htouch =>
        hstep (segmentsIntersect_of_touch hlen (.inr ⟨htouch, hin m (by simp)⟩))
      have hside := (sign_cases hs (hpoints m List.mem_cons_self)).resolve_right hm
      rw [if_neg hstep, List.length_nil, Nat.zero_add] at h
      exact ⟨hm, mt (segmentsIntersect_same_side (by omega) hp hside).2 hstep,
        ih hside hpoints' hin' h⟩

/-- **A trajectory that touches the line fires.** -/
theorem stepEvents_ne_nil_of_touch (hlen : 1 ≤ lengthSq c d) {m : Point} (hm : m ∈ points)
    (htouch : sign (sideOf m c d) = 0) (hin : Projects c d m) : stepEvents c d p points ≠ [] := by
  induction points generalizing p with
  | nil => cases hm
  | cons r points ih =>
      rw [stepEvents]
      rcases List.mem_cons.1 hm with rfl | hm
      · rw [if_pos (segmentsIntersect_of_touch hlen (.inr ⟨htouch, hin⟩))]
        exact List.cons_ne_nil _ _
      · exact List.append_ne_nil_of_right_ne_nil _ (ih hm)

end Trajectories

/-! ### The engine -/

/-- **A track is at a point** in an update. -/
def At (id : ℕ) (u : Update) (p : Point) : Prop :=
  (u.tracks.filter fun t => t.id = id).map feet = [p]

instance (id : ℕ) (u : Update) (p : Point) : Decidable (At id u p) :=
  inferInstanceAs (Decidable (_ = _))

section Engine

variable {zones : List (Zone ℚ)} {zi id : ℕ} {zone : Zone ℚ} {c d : Point} {rest : List Point}

theorem At.nextPos {u : Update} {p : Point} (h : At id u p) : nextPos u.tracks id = some p := by
  rw [nextPos_eq, ← List.getLast?_map, h]
  rfl

theorem At.count {u : Update} {p : Point} (h : At id u p) :
    (u.tracks.countP fun t => t.id = id) = 1 := by
  have hlen := congrArg List.length h
  rwa [List.length_map, ← List.countP_eq_length_filter] at hlen

/-- **What an engine fires for a trajectory.** -/
theorem firedKinds_lineCross (hzone : zones[zi]? = some zone) (hkind : zone.kind = .lineCross)
    (hpoints : zone.points = c :: d :: rest) {us : List Update} {points : List Point}
    (hus : List.Forall₂ (At id) us points) {e : ZoneEngine} {p : Point}
    (hp : e.lastPos id = some p) :
    (firedKinds zones zi id e us).flatten =
      (stepEvents c d p points).map ZoneEventKind.lineCross := by
  induction hus generalizing e p with
  | nil => rfl
  | @cons u q us points hu _ ih =>
      have hnext : (e.update zones u).1.lastPos id = some q := by
        rw [update_lastPos, hu.nextPos]
      rw [firedKinds, List.flatten_cons, updateZones_lineCross hzone hkind hpoints, hu.count, hp,
        hu.nextPos, ih hnext, stepEvents, List.map_append]
      dsimp only
      split <;> rfl

end Engine

/-- **Which passages fire one `LineCross`**, with the side that is reached: those that stay away from
the tripwire until they go over it.  If the tripwire is at least one pixel long, no others do; and a
track that only touches its line always fires. -/
theorem one_lineCross_iff {zones : List (Zone ℚ)} {zi id : ℕ} {zone : Zone ℚ} {c d p q : Point}
    {rest points : List Point} {e : ZoneEngine} {u : Update} {us : List Update} {s : ℤ}
    (hzone : zones[zi]? = some zone) (hkind : zone.kind = .lineCross)
    (hpoints : zone.points = c :: d :: rest) (hu : At id u p)
    (hus : List.Forall₂ (At id) us (points ++ [q]))
    (hin : ∀ r ∈ p :: (points ++ [q]), Projects c d r) (hs : s = 1 ∨ s = -1)
    (hp : sign (sideOf p c d) = s) (hside : ∀ m ∈ points, sign (sideOf m c d) ≠ -s) :
    (sign (sideOf q c d) = -s →
      (Untouched c d p points → (firedKinds zones zi id (e.update zones u).1 us).flatten =
        [.lineCross (decide (sideOf q c d < 0))]) ∧
      (1 ≤ lengthSq c d → ((firedKinds zones zi id (e.update zones u).1 us).flatten =
        [.lineCross (decide (sideOf q c d < 0))] ↔ Untouched c d p points))) ∧
    (sign (sideOf q c d) = s → (∃ m ∈ points, sign (sideOf m c d) = 0) → 1 ≤ lengthSq c d →
      (firedKinds zones zi id (e.update zones u).1 us).flatten ≠ []) := by
  have hlast : (e.update zones u).1.lastPos id = some p := by rw [update_lastPos, hu.nextPos]
  rw [firedKinds_lineCross hzone hkind hpoints hus hlast]
  constructor
  · intro hq
    have hfires : Untouched c d p points →
        (stepEvents c d p (points ++ [q])).map ZoneEventKind.lineCross =
          [.lineCross (decide (sideOf q c d < 0))] := by
      intro h
      rw [stepEvents_of_untouched hs hp hside hq hin h]
      rfl
    refine ⟨hfires, fun hlen => ⟨fun h => ?_, hfires⟩⟩
    have hone := congrArg List.length h
    rw [List.length_map, List.length_singleton] at hone
    exact untouched_of_length hlen hs hp hside hq hin hone
  · rintro - ⟨m, hm, htouch⟩ hlen h
    have hmem : m ∈ points ++ [q] := List.mem_append_left _ hm
    exact stepEvents_ne_nil_of_touch hlen hmem htouch (hin m (List.mem_cons_of_mem p hmem))
      (List.map_eq_nil_iff.1 h)

/-- A gate, and a track that has its feet at a place. -/
def gate : Zone ℚ := ⟨"gate", .lineCross, [(200, 0), (200, 400)], 0⟩

/-- The feet are at the height of 200. -/
def walks (x : ℕ) : Update :=
  ⟨"0", [Track.spawn 7 ⟨"person", 9 / 10, ⟨x, 190, 10, 10⟩⟩], 1000⟩

/-- A step from one side to the other. -/
theorem one_lineCross_iff_step :
    (firedKinds [gate] 0 7 (ZoneEngine.update {} [gate] (walks 95)).1 [walks 295]).flatten =
      [.lineCross true] := by
  have hpoints : ∀ r ∈ [((100, 200) : Point), (300, 200)], Projects (200, 0) (200, 400) r := by
    decide +kernel
  have hcross := ((@one_lineCross_iff [gate] 0 7 gate (200, 0) (200, 400) (100, 200) (300, 200) [] []
    {} (walks 95) [walks 295] 1 rfl rfl rfl (by decide +kernel)
    (.cons (by decide +kernel) .nil) hpoints (.inl rfl) (by decide +kernel)
    fun m hm => absurd hm List.not_mem_nil).1 (by decide +kernel)).1 trivial
  rw [hcross]
  decide +kernel

/-- **A point on the line**, on the way from one side to the other: both steps fire. -/
theorem lineCross_twice : ¬ ∀ (zones : List (Zone ℚ)) (zi id : ℕ) (zone : Zone ℚ) (c d p q : Point)
    (rest points : List Point) (e : ZoneEngine) (u : Update) (us : List Update) (s : ℤ),
    zones[zi]? = some zone → zone.kind = .lineCross → zone.points = c :: d :: rest → At id u p →
    List.Forall₂ (At id) us (points ++ [q]) → (∀ r ∈ p :: (points ++ [q]), Projects c d r) →
    s = 1 ∨ s = -1 → sign (sideOf p c d) = s → (∀ m ∈ points, sign (sideOf m c d) ≠ -s) →
    sign (sideOf q c d) = -s →
      (firedKinds zones zi id (e.update zones u).1 us).flatten =
        [.lineCross (decide (sideOf q c d < 0))] := by
  intro h
  have hpoints : ∀ r ∈ [((100, 200) : Point), (200, 200), (300, 200)],
      Projects (200, 0) (200, 400) r := by decide +kernel
  have hfired : (firedKinds [gate] 0 7 (ZoneEngine.update {} [gate] (walks 95)).1
      [walks 195, walks 295]).flatten = [.lineCross false, .lineCross true] := by decide +kernel
  have hone := h [gate] 0 7 gate (200, 0) (200, 400) (100, 200) (300, 200) [] [(200, 200)] {}
    (walks 95) [walks 195, walks 295] 1 rfl rfl rfl (by decide +kernel)
    (.cons (by decide +kernel) (.cons (by decide +kernel) .nil)) hpoints (.inl rfl)
    (by decide +kernel) (by decide +kernel) (by decide +kernel)
  rw [hfired] at hone
  exact absurd (congrArg List.length hone) (by decide)

end ZoneEvents

/-
**The geometry of the zones.**

The predicates of `crates/streaming/src/ai/zones.rs`, over exact rationals: whether a point is in a
polygon, whether two segments intersect, and on which side of a line a point is.

A point is in a polygon if a ray from it crosses an odd number of edges.  An edge counts if one of its
ends is above the ray and the other is not, so that a vertex on the ray counts once, and a horizontal
edge never does.

Main definitions:

* `Zones.pointInPolygon`, `Zones.segmentsIntersect`, `Zones.sideOf`;
* `Zones.Between` — a point on an edge.

Main results:

* `Zones.crosses_comm`, `Zones.crosses_xor` — an edge in the other direction, and in two parts;
* `Zones.pointInPolygon_listing` — **a polygon in another listing**.
-/

import Mathlib.Algebra.Order.Ring.Rat
import Mathlib.Tactic.FieldSimp
import Mathlib.Tactic.Linarith
import Mathlib.Tactic.LinearCombination
import Mathlib.Tactic.Ring
import MibeeEye.CyclicParity
import MibeeEye.Zones

set_option relaxedAutoImplicit false
set_option autoImplicit false

namespace Zones

/-- A point. -/
abbrev Point := ℚ × ℚ

/-! ### Polygons -/

/-- The test of an edge, between the vertices `i` and `j`. -/
def crosses (pt i j : Point) : Bool :=
  (decide (pt.2 < i.2) != decide (pt.2 < j.2)) &&
    decide (pt.1 < (j.1 - i.1) * (pt.2 - i.2) / (j.2 - i.2) + i.1)

/-- The loop of `point_in_polygon`, from a vertex on; `j` is the one before. -/
def polygonLoop (pt : Point) : Point → List Point → Bool → Bool
  | _, [], inside => inside
  | j, i :: poly, inside => polygonLoop pt i poly (if crosses pt i j then !inside else inside)

/-- **`point_in_polygon`.** -/
def pointInPolygon (pt : Point) (poly : List Point) : Bool :=
  if poly.length < 3 then false
  else
    match poly.getLast? with
    | none => false
    | some j => polygonLoop pt j poly false

/-! ### Segments -/

/-- `EPS` -/
def eps : ℚ := 1 / 1000000

/-- `orient` -/
def orient (p q r : Point) : ℚ := (q.1 - p.1) * (r.2 - p.2) - (q.2 - p.2) * (r.1 - p.1)

/-- `sign` -/
def sign (v : ℚ) : ℤ := if eps < v then 1 else if v < -eps then -1 else 0

/-- `on_segment`: within the bounding box of two points. -/
def onSegment (p q r : Point) : Bool :=
  min p.1 r.1 - eps ≤ q.1 ∧ q.1 ≤ max p.1 r.1 + eps ∧
    min p.2 r.2 - eps ≤ q.2 ∧ q.2 ≤ max p.2 r.2 + eps

/-- **`segments_intersect`.** -/
def segmentsIntersect (a b c d : Point) : Bool :=
  let o1 := sign (orient a b c)
  let o2 := sign (orient a b d)
  let o3 := sign (orient c d a)
  let o4 := sign (orient c d b)
  if o1 ≠ o2 ∧ o3 ≠ o4 ∧ ¬ (o1 = 0 ∧ o2 = 0) then true
  else if o1 = 0 ∧ onSegment a c b then true
  else if o2 = 0 ∧ onSegment a d b then true
  else if o3 = 0 ∧ onSegment c a d then true
  else if o4 = 0 ∧ onSegment c b d then true
  else false

/-- `side_of` -/
def sideOf (p c d : Point) : ℚ := (d.1 - c.1) * (p.2 - c.2) - (d.2 - c.2) * (p.1 - c.1)

/-! ### Edges -/

/-- A point on an edge: on its line, and between its ends. -/
structure Between (p m q : Point) : Prop where
  line : (q.1 - p.1) * (m.2 - p.2) = (q.2 - p.2) * (m.1 - p.1)
  fst : min p.1 q.1 ≤ m.1 ∧ m.1 ≤ max p.1 q.1
  snd : min p.2 q.2 ≤ m.2 ∧ m.2 ≤ max p.2 q.2

instance (p m q : Point) : Decidable (Between p m q) :=
  decidable_of_iff ((q.1 - p.1) * (m.2 - p.2) = (q.2 - p.2) * (m.1 - p.1) ∧
      (min p.1 q.1 ≤ m.1 ∧ m.1 ≤ max p.1 q.1) ∧ min p.2 q.2 ≤ m.2 ∧ m.2 ≤ max p.2 q.2)
    ⟨fun h => ⟨h.1, h.2.1, h.2.2⟩, fun h => ⟨h.line, h.fst, h.snd⟩⟩

section Edges

variable {pt p m q : Point}

/-- Where the line through two points is at a height. -/
def xAt (y : ℚ) (i j : Point) : ℚ := (j.1 - i.1) * (y - i.2) / (j.2 - i.2) + i.1

theorem xAt_comm {y : ℚ} (h : p.2 ≠ q.2) : xAt y p q = xAt y q p := by
  have hpq : q.2 - p.2 ≠ 0 := sub_ne_zero.2 h.symm
  have hqp : p.2 - q.2 ≠ 0 := sub_ne_zero.2 h
  rw [xAt, xAt]
  field_simp
  ring

/-- A part of an edge is on its line. -/
theorem xAt_of_line {y : ℚ} (hline : (q.1 - p.1) * (m.2 - p.2) = (q.2 - p.2) * (m.1 - p.1))
    (hpq : p.2 ≠ q.2) (hmq : m.2 ≠ q.2) : xAt y m q = xAt y p q := by
  have hpq' : q.2 - p.2 ≠ 0 := sub_ne_zero.2 hpq.symm
  have hmq' : q.2 - m.2 ≠ 0 := sub_ne_zero.2 hmq.symm
  rw [xAt, xAt]
  field_simp
  linear_combination (y - q.2) * hline

theorem crosses_eq (pt p q : Point) :
    crosses pt p q =
      ((decide (pt.2 < p.2) != decide (pt.2 < q.2)) && decide (pt.1 < xAt pt.2 p q)) := rfl

/-- Points of which one is above the ray and the other is not are not at one height. -/
theorem ne_of_above (h : (decide (pt.2 < p.2) != decide (pt.2 < q.2)) = true) : p.2 ≠ q.2 := by
  intro heq
  rw [heq, bne_self_eq_false] at h
  cases h

/-- **An edge in the other direction.** -/
theorem crosses_comm (pt p q : Point) : crosses pt p q = crosses pt q p := by
  rw [crosses_eq, crosses_eq, bne_comm]
  cases habove : decide (pt.2 < q.2) != decide (pt.2 < p.2) with
  | false => rw [Bool.false_and, Bool.false_and]
  | true => rw [xAt_comm (ne_of_above habove)]

theorem Between.symm (h : Between p m q) : Between q m p := by
  refine ⟨?_, ?_, ?_⟩
  · linear_combination -h.line
  · rw [min_comm, max_comm]
    exact h.fst
  · rw [min_comm, max_comm]
    exact h.snd

/-- The part of an edge that goes over the height of the ray. -/
theorem crosses_part (h : Between p m q) (hm : decide (pt.2 < m.2) = decide (pt.2 < p.2)) :
    crosses pt m q = crosses pt p q := by
  rw [crosses_eq, crosses_eq, hm]
  cases habove : decide (pt.2 < p.2) != decide (pt.2 < q.2) with
  | false => rw [Bool.false_and, Bool.false_and]
  | true =>
      have hmq : m.2 ≠ q.2 := @ne_of_above pt m q (by rw [hm, habove])
      rw [xAt_of_line h.line (ne_of_above habove) hmq]

/-- Between two points on one side of a height there is none on the other. -/
theorem above_of_between (h : Between p m q) (hpq : decide (pt.2 < p.2) = decide (pt.2 < q.2)) :
    decide (pt.2 < m.2) = decide (pt.2 < p.2) := by
  rw [decide_eq_decide] at hpq ⊢
  by_cases hp : pt.2 < p.2
  · have hmin : pt.2 < min p.2 q.2 := lt_min hp (hpq.1 hp)
    exact ⟨fun _ => hp, fun _ => hmin.trans_le h.snd.1⟩
  · have hmax : max p.2 q.2 ≤ pt.2 := max_le (not_lt.1 hp) (not_lt.1 fun hq => hp (hpq.2 hq))
    exact ⟨fun hm => absurd hm (not_lt.2 (h.snd.2.trans hmax)), fun hp' => absurd hp' hp⟩

/-- **An edge in two parts**: a ray crosses one of them if it crosses the edge. -/
theorem crosses_xor (h : Between p m q) :
    (crosses pt m p ^^ crosses pt q m) = crosses pt q p := by
  have hsame : ∀ {a b : Point}, decide (pt.2 < a.2) = decide (pt.2 < b.2) →
      crosses pt a b = false := by
    intro a b heq
    rw [crosses_eq, heq, bne_self_eq_false, Bool.false_and]
  by_cases hmp : decide (pt.2 < m.2) = decide (pt.2 < p.2)
  · rw [hsame hmp, Bool.false_xor, crosses_comm pt q m, crosses_comm pt q p, crosses_part h hmp]
  · have hmq : decide (pt.2 < m.2) = decide (pt.2 < q.2) := by
      by_contra hmq
      refine hmp (above_of_between h ?_)
      rw [Bool.eq_not.2 (Ne.symm hmp), Bool.eq_not.2 (Ne.symm hmq)]
    rw [hsame hmq.symm, Bool.xor_false, crosses_part h.symm hmq]

end Edges

/-! ### Listings -/

theorem polygonLoop_eq (pt j : Point) (poly : List Point) (inside : Bool) :
    polygonLoop pt j poly inside = (inside ^^ Parity.path (fun j i => crosses pt i j) j poly) := by
  induction poly generalizing j inside with
  | nil => exact (Bool.xor_false _).symm
  | cons i poly ih =>
      rw [polygonLoop, ih, Parity.path]
      cases crosses pt i j <;> cases inside <;> simp

/-- **A point is in a polygon** if the ray from it crosses an odd number of edges. -/
theorem pointInPolygon_eq (pt : Point) (poly : List Point) :
    pointInPolygon pt poly =
      (decide (3 ≤ poly.length) && Parity.cycle (fun j i => crosses pt i j) poly) := by
  rw [pointInPolygon]
  split
  · rename_i hlen
    rw [decide_eq_false (by omega), Bool.false_and]
  · rename_i hlen
    rw [decide_eq_true (by omega), Bool.true_and]
    cases poly with
    | nil => rfl
    | cons p poly =>
        rw [List.getLast?_cons, Parity.cycle, List.getLastD_eq_getLast?]
        exact (polygonLoop_eq _ _ _ _).trans (Bool.false_xor _)

/-- Around two points the ray crosses no edge or the same one twice. -/
theorem cycle_of_length_lt {pt : Point} {poly : List Point} (h : poly.length < 3) :
    Parity.cycle (fun j i => crosses pt i j) poly = false := by
  have hself : ∀ p, crosses pt p p = false := by
    intro p
    rw [crosses_eq, bne_self_eq_false, Bool.false_and]
  cases poly with
  | nil => rfl
  | cons p poly =>
      cases poly with
      | nil => simp [Parity.cycle, Parity.path, hself]
      | cons q poly =>
          obtain rfl : poly = [] := by
            rw [List.length_cons, List.length_cons] at h
            exact List.length_eq_zero_iff.1 (by omega)
          simp [Parity.cycle, Parity.path, crosses_comm pt p q]

theorem pointInPolygon_eq_cycle (pt : Point) (poly : List Point) :
    pointInPolygon pt poly = Parity.cycle (fun j i => crosses pt i j) poly := by
  rw [pointInPolygon_eq]
  by_cases hlen : 3 ≤ poly.length
  · rw [decide_eq_true hlen, Bool.true_and]
  · rw [decide_eq_false hlen, Bool.false_and, cycle_of_length_lt (by omega)]

/-- **A polygon in another listing**: it can begin at another vertex, go in the other direction, and
have another vertex on any of its edges, the one from the last vertex to the first included. -/
theorem pointInPolygon_listing (pt : Point) (poly : List Point) :
    (∀ n, pointInPolygon pt (poly.rotate n) = pointInPolygon pt poly) ∧
      pointInPolygon pt poly.reverse = pointInPolygon pt poly ∧
      ∀ l l' p m q, poly = l ++ l' → (l' ++ l).getLast? = some p → (l' ++ l).head? = some q →
        Between p m q → pointInPolygon pt (l ++ m :: l') = pointInPolygon pt poly := by
  simp only [pointInPolygon_eq_cycle]
  refine ⟨Parity.cycle_rotate poly, Parity.cycle_reverse (fun j i => crosses_comm pt i j) poly, ?_⟩
  rintro l l' p m q rfl hlast hfirst hbetween
  rw [Parity.cycle_append_comm l, Parity.cycle_append_comm l, List.cons_append]
  obtain ⟨rest, hrest⟩ := List.head?_eq_some_iff.1 hfirst
  rw [hrest] at hlast ⊢
  exact Parity.cycle_insert hlast (crosses_xor hbetween)

/-- A square, and the same with a vertex on the edge from the last vertex to the first. -/
example : pointInPolygon (1, 1) [(0, 0), (2, 0), (2, 2), (0, 2)] = true ∧
    pointInPolygon (1, 1) [(0, 0), (2, 0), (2, 2), (0, 2), (0, 1)] = true := by decide +kernel

end Zones

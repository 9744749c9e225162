/-
**Non-maximum suppression.**

`crates/streaming/src/ai/postprocess.rs`: the candidates of a frame, by decreasing confidence, are
thinned out class by class.  A candidate is dropped if it overlaps too much with one of its class
that was kept before.

Coordinates, confidences and the threshold are exact rationals.

Main definitions:

* `Nms.iou` — the intersection of two boxes over their union;
* `Nms.nms` — the candidates that are kept.

Main results:

* `Nms.union_pos` — what is divided by is positive;
* `Nms.iou_comm` — the overlap does not depend on the order;
* `Nms.nms_eq_select` — keeping candidates is greedy selection;
* `Nms.nms_selects` — the candidates that are kept are a sublist, of one class they overlap by the
  threshold at most, and each dropped one overlaps by more with a kept one before it.
-/

import Mathlib.Algebra.Order.Field.Rat
import Mathlib.Algebra.Order.Field.Basic
import Mathlib.Tactic.Linarith
import Mathlib.Tactic.Ring
import MibeeEye.GreedySelection

set_option relaxedAutoImplicit false
set_option autoImplicit false

namespace Nms

/-! ### Candidates -/

/-- `Candidate` -/
structure Candidate where
  label : ℕ
  confidence : ℚ
  x1 : ℚ
  y1 : ℚ
  x2 : ℚ
  y2 : ℚ
  deriving DecidableEq, Repr

/-- The area of a box. -/
def Candidate.area (c : Candidate) : ℚ := (c.x2 - c.x1) * (c.y2 - c.y1)

/-- **`iou`**: the intersection of two boxes over their union. -/
def iou (a b : Candidate) : ℚ :=
  let interW := min a.x2 b.x2 - max a.x1 b.x1
  let interH := min a.y2 b.y2 - max a.y1 b.y1
  if interW ≤ 0 ∨ interH ≤ 0 then 0
  else
    let inter := interW * interH
    let union := a.area + b.area - inter
    inter / union

/-- One candidate of the loop of `nms`. -/
def keep (iouThreshold : ℚ) (kept : List Candidate) (candidate : Candidate) : List Candidate :=
  let suppressed := kept.any fun k => k.label == candidate.label && decide (iouThreshold < iou k candidate)
  if !suppressed then kept ++ [candidate] else kept

/-- **`nms`**: the candidates that are kept. -/
def nms (candidates : List Candidate) (iouThreshold : ℚ) : List Candidate :=
  candidates.foldl (keep iouThreshold) []

/-! ### Overlaps -/

/-- Where two boxes overlap, what `iou` divides by is positive. -/
theorem union_pos {a b : Candidate} (hw : 0 < min a.x2 b.x2 - max a.x1 b.x1)
    (hh : 0 < min a.y2 b.y2 - max a.y1 b.y1) :
    0 < a.area + b.area - (min a.x2 b.x2 - max a.x1 b.x1) * (min a.y2 b.y2 - max a.y1 b.y1) := by
  -- the overlap is no wider and no higher than either box
  have haw : min a.x2 b.x2 - max a.x1 b.x1 ≤ a.x2 - a.x1 :=
    sub_le_sub (min_le_left _ _) (le_max_left _ _)
  have hah : min a.y2 b.y2 - max a.y1 b.y1 ≤ a.y2 - a.y1 :=
    sub_le_sub (min_le_left _ _) (le_max_left _ _)
  have hbw : 0 < b.x2 - b.x1 := hw.trans_le (sub_le_sub (min_le_right _ _) (le_max_right _ _))
  have hbh : 0 < b.y2 - b.y1 := hh.trans_le (sub_le_sub (min_le_right _ _) (le_max_right _ _))
  have harea : (min a.x2 b.x2 - max a.x1 b.x1) * (min a.y2 b.y2 - max a.y1 b.y1) ≤ a.area :=
    mul_le_mul haw hah hh.le (hw.le.trans haw)
  have hb : 0 < b.area := mul_pos hbw hbh
  linarith

/-- The overlap of two boxes does not depend on their order. -/
theorem iou_comm (a b : Candidate) : iou a b = iou b a := by
  unfold iou
  rw [min_comm a.x2, max_comm a.x1, min_comm a.y2, max_comm a.y1, add_comm a.area]

/-! ### Suppression -/

/-- A kept candidate suppresses one of its class with which it overlaps by more than the threshold. -/
def suppresses (iouThreshold : ℚ) (k candidate : Candidate) : Bool :=
  k.label == candidate.label && decide (iouThreshold < iou k candidate)

theorem suppresses_eq_true_iff {t : ℚ} {k c : Candidate} :
    suppresses t k c = true ↔ k.label = c.label ∧ t < iou k c := by
  simp [suppresses]

theorem suppresses_eq_false_iff {t : ℚ} {k c : Candidate} :
    suppresses t k c = false ↔ (k.label = c.label → iou k c ≤ t) := by
  rw [Bool.eq_false_iff, Ne, suppresses_eq_true_iff, not_and, not_lt]

/-- Keeping candidates is greedy selection. -/
theorem nms_eq_select (cs : List Candidate) (t : ℚ) :
    nms cs t = Greedy.select (suppresses t) cs := by
  have hkeep : keep t = Greedy.visit (suppresses t) := by
    funext kept c
    change (if (!kept.any fun k => suppresses t k c) = true then kept ++ [c] else kept) = _
    unfold Greedy.visit
    cases kept.any fun k => suppresses t k c <;> rfl
  unfold nms Greedy.select
  rw [hkeep]

/-- The kept candidates are a sublist, those at some positions in order: those of one class overlap by the
threshold at most, and each candidate at another position overlaps by more than the threshold with a
kept one of its class at a position before it. -/
theorem nms_selects (candidates : List Candidate) (iouThreshold : ℚ) :
    (nms candidates iouThreshold).Sublist candidates ∧ ∃ is : List ℕ, is.Pairwise (· < ·) ∧
      List.Forall₂ (fun i c => candidates[i]? = some c) is (nms candidates iouThreshold) ∧
      ((nms candidates iouThreshold).Pairwise fun a b =>
        a.label = b.label → iou a b ≤ iouThreshold ∧ iou b a ≤ iouThreshold) ∧
      ∀ j c, candidates[j]? = some c → j ∉ is →
        ∃ i ∈ is, i < j ∧ ∃ k, candidates[i]? = some k ∧ k ∈ nms candidates iouThreshold ∧
          k.label = c.label ∧ iouThreshold < iou k c := by
  rw [nms_eq_select]
  obtain ⟨is, h⟩ := @Greedy.exists_isSelection _ (suppresses iouThreshold) candidates
  refine ⟨Greedy.select_sublist _ candidates, is, h.ordered, h.standing, ?_, fun j c hc hj => ?_⟩
  · refine (Greedy.pairwise_select _ candidates).imp fun {a b} hab hlabel => ?_
    have hle : iou a b ≤ iouThreshold := suppresses_eq_false_iff.mp hab hlabel
    exact ⟨hle, iou_comm a b ▸ hle⟩
  · obtain ⟨i, hi, hij, k, hk, hb⟩ := h.blocked j c hc hj
    obtain ⟨hlabel, hlt⟩ := suppresses_eq_true_iff.mp hb
    exact ⟨i, hi, hij, k, hk, h.mem_of_position hi hk, hlabel, hlt⟩

end Nms

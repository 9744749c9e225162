/-
**Where in the frame the assistant says a thing is.**

`position_suffix` of `crates/web/src/grounding.rs` puts a word for the left, the middle or the right of
the frame after the label of a detection.  It takes half the sum of the first and the third number of
the box for its centre, as if these were two corners.  The boxes of detections are an origin and a size:
half that sum is half the right edge, and never more than half the width of the frame.

Main definitions:

* `PositionWords.positionSuffix` — the word, as it is computed with floating-point numbers;
* `PositionWords.bucket` — the word for the centre of a box.

Main results:

* `PositionWords.positionSuffix_eq` — what is computed, without floating-point numbers: it is never
  the word for the right;
* `PositionWords.positionSuffix_eq_bucket_iff` — **the boxes for which it is the right word**.
-/

import MibeeEye.Binary64
import MibeeEye.FixedWidth
import MibeeEye.Tracking

set_option relaxedAutoImplicit false
set_option autoImplicit false

namespace PositionWords

open Binary64 FixedWidth Tracking

/-! ### The word -/

def left : String := "（左侧）"

def middle : String := "（中间）"

def right : String := "（右侧）"

/-- `position_suffix`; `none` is a panic. -/
def positionSuffix (b : Build) (d : Detection) (frameW : ℕ) : Option String :=
  if frameW = 0 then some ""
  else
    (b.result 32 (d.bbox.x + d.bbox.w)).map fun sum : ℕ =>
      let center := rnd (rnd (rnd sum / 2) / rnd frameW)
      if center < rnd (34 / 100) then left
      else if rnd (66 / 100) < center then right
      else middle

/-- The word for the centre of a box. -/
def bucket (box : Bbox ℕ) (frameW : ℕ) : String :=
  let centre : ℚ := (2 * box.x + box.w) / (2 * frameW)
  if centre < 34 / 100 then left else if 66 / 100 < centre then right else middle

/-! ### What is computed -/

section Center

variable {s w : ℕ}

theorem center_nonneg : (0 : ℚ) ≤ s / 2 / w := by positivity

theorem center_le (hpos : 0 < w) (hs : s ≤ w) : (s / 2 / w : ℚ) ≤ 1 / 2 := by
  have hsw : (s : ℚ) ≤ w := Nat.cast_le.2 hs
  rw [div_le_iff₀ (Nat.cast_pos.2 hpos)]
  linarith

theorem normal_center (hpos : 0 < w) (hw : w < 2 ^ 32) : Normal (s / 2 / w) := by
  rcases Nat.eq_zero_or_pos s with rfl | hs
  · exact .inl (by simp)
  · have hwq : (w : ℚ) ≤ 2 ^ 32 := by exact_mod_cast hw.le
    have hsq : (1 : ℚ) ≤ s := by exact_mod_cast hs
    have hleast : (2 : ℚ) ^ (-1022 : ℤ) ≤ 2 ^ (-33 : ℤ) := zpow_le_zpow_right₀ one_le_two (by decide)
    have hcenter : (2 : ℚ) ^ (-33 : ℤ) ≤ s / 2 / w := by
      rw [le_div_iff₀ (Nat.cast_pos.2 hpos)]
      norm_num
      linarith
    exact .inr ((hleast.trans hcenter).trans (le_abs_self _))

theorem normal_bound {n : ℕ} (hn : 0 < n) : Normal (n / 100) := by
  have hnq : (1 : ℚ) ≤ n := by exact_mod_cast hn
  have hleast : (2 : ℚ) ^ (-1022 : ℤ) ≤ 2 ^ (-7 : ℤ) := zpow_le_zpow_right₀ one_le_two (by decide)
  have hbound : (2 : ℚ) ^ (-7 : ℤ) ≤ n / 100 := by
    norm_num
    linarith
  exact .inr ((hleast.trans hbound).trans (le_abs_self _))

/-- The centre is off the first bound by a whole number of steps. -/
theorem center_eq (hpos : 0 < w) :
    (s / 2 / w : ℚ) = 34 / 100 + ((100 * s - 68 * w : ℤ) : ℚ) * (1 / (200 * w)) := by
  have hne : (w : ℚ) ≠ 0 := Nat.cast_ne_zero.2 hpos.ne'
  push_cast
  field_simp
  ring

/-- And a step is larger than the errors. -/
theorem le_step (hpos : 0 < w) (hw : w < 2 ^ 32) : (1 : ℚ) / 2 ^ 40 ≤ 1 / (200 * w) := by
  have hwq : (w : ℚ) ≤ 2 ^ 32 := by exact_mod_cast hw.le
  have hposq : (0 : ℚ) < w := Nat.cast_pos.2 hpos
  refine one_div_le_one_div_of_le (by positivity) ?_
  linarith

/-- Below the first bound. -/
theorem rnd_center_lt_iff (hpos : 0 < w) (hw : w < 2 ^ 32) (hs : s ≤ w) :
    rnd (s / 2 / w) < rnd (34 / 100) ↔ 100 * s < 68 * w := by
  have hbound : Normal (34 / 100) := by simpa using @normal_bound 34 (by decide)
  have hnormal := @normal_center s w hpos hw
  have habs : |(s / 2 / w : ℚ)| ≤ 1 / 2 := by
    rw [abs_of_nonneg center_nonneg]
    exact center_le hpos hs
  have habs' : |(34 / 100 : ℚ)| = 34 / 100 := abs_of_nonneg (by norm_num)
  have hcenter := @center_eq s w hpos
  have hstep := le_step hpos hw
  have hnonneg : (0 : ℚ) ≤ 1 / (200 * w) := by positivity
  constructor
  · intro h
    by_contra hle
    have hge : (0 : ℤ) ≤ 100 * s - 68 * w := by omega
    rcases hge.eq_or_lt with hzero | hgt
    · rw [← hzero, Int.cast_zero, zero_mul, add_zero] at hcenter
      rw [hcenter] at h
      exact lt_irrefl _ h
    · have hone : (1 : ℚ) ≤ ((100 * s - 68 * w : ℤ) : ℚ) := by exact_mod_cast hgt
      have hmul := mul_le_mul_of_nonneg_right hone hnonneg
      have hlt : rnd (34 / 100) < rnd (s / 2 / w) := rnd_lt_rnd hbound hnormal (by linarith)
      exact lt_asymm h hlt
  · intro hlt
    have hneg : (100 * s - 68 * w : ℤ) ≤ -1 := by omega
    have hone : ((100 * s - 68 * w : ℤ) : ℚ) ≤ -1 := by exact_mod_cast hneg
    have hmul := mul_le_mul_of_nonneg_right hone hnonneg
    exact rnd_lt_rnd hnormal hbound (by linarith)

/-- The second bound is not passed. -/
theorem rnd_center_lt (hpos : 0 < w) (hw : w < 2 ^ 32) (hs : s ≤ w) :
    rnd (s / 2 / w) < rnd (66 / 100) := by
  have hbound : Normal (66 / 100) := by simpa using @normal_bound 66 (by decide)
  refine rnd_lt_rnd (normal_center hpos hw) hbound ?_
  rw [abs_of_nonneg center_nonneg, abs_of_nonneg (by norm_num)]
  have hle := center_le hpos hs
  linarith

end Center

variable {b : Build} {d : Detection} {frameW : ℕ}

/-- **What is computed for a box in the frame.** -/
theorem positionSuffix_eq (b : Build) (hpos : 0 < frameW) (hw : frameW < 2 ^ 32)
    (hbox : d.bbox.x + d.bbox.w ≤ frameW) : positionSuffix b d frameW =
      some (if 100 * (d.bbox.x + d.bbox.w) < 68 * frameW then left else middle) := by
  have hsum : d.bbox.x + d.bbox.w < 2 ^ 53 := by omega
  have hcenter : rnd (rnd (rnd (d.bbox.x + d.bbox.w : ℕ) / 2) / rnd frameW) =
      rnd ((d.bbox.x + d.bbox.w : ℕ) / 2 / frameW) := by
    rw [rnd_natCast hsum, rnd_natCast_div_two hsum, rnd_natCast (by omega)]
  rw [positionSuffix, if_neg hpos.ne', Build.result_eq (hbox.trans_lt hw), Option.map_some]
  simp only [hcenter, rnd_center_lt_iff hpos hw hbox, (rnd_center_lt hpos hw hbox).not_gt, if_false]

/-- The word for the centre of a box, without fractions. -/
theorem bucket_eq {box : Bbox ℕ} (hpos : 0 < frameW) : bucket box frameW =
    if 100 * (2 * box.x + box.w) < 68 * frameW then left
    else if 132 * frameW < 100 * (2 * box.x + box.w) then right
    else middle := by
  have hposq : (0 : ℚ) < 2 * frameW := mul_pos two_pos (Nat.cast_pos.2 hpos)
  have hleft : ((2 * box.x + box.w) / (2 * frameW) : ℚ) < 34 / 100 ↔
      100 * (2 * box.x + box.w) < 68 * frameW := by
    rw [div_lt_iff₀ hposq, ← @Nat.cast_lt ℚ]
    push_cast
    constructor <;> intro h <;> linarith
  have hright : (66 / 100 : ℚ) < (2 * box.x + box.w) / (2 * frameW) ↔
      132 * frameW < 100 * (2 * box.x + box.w) := by
    rw [lt_div_iff₀ hposq, ← @Nat.cast_lt ℚ]
    push_cast
    constructor <;> intro h <;> linarith
  simp only [bucket, hleft, hright]

/-- **The boxes for which it is the right word.** -/
theorem positionSuffix_eq_bucket_iff (b : Build) (d : Detection) (hpos : 0 < frameW)
    (hw : frameW < 2 ^ 32) (hbox : d.bbox.x + d.bbox.w ≤ frameW) :
    (d.bbox.x + d.bbox.w < 2 ^ 32 ∧ positionSuffix b d frameW = some (bucket d.bbox frameW)) ↔
      100 * (2 * d.bbox.x + d.bbox.w) < 68 * frameW ∨
      68 * frameW ≤ 100 * (d.bbox.x + d.bbox.w) ∧
        100 * (2 * d.bbox.x + d.bbox.w) ≤ 132 * frameW := by
  have hlm : left ≠ middle := by decide
  have hlr : left ≠ right := by decide
  have hmr : middle ≠ right := by decide
  rw [positionSuffix_eq b hpos hw hbox, bucket_eq hpos, Option.some_inj]
  by_cases hleft : 100 * (2 * d.bbox.x + d.bbox.w) < 68 * frameW
  · have hcode : 100 * (d.bbox.x + d.bbox.w) < 68 * frameW := by omega
    rw [if_pos hleft, if_pos hcode]
    exact iff_of_true ⟨hbox.trans_lt hw, rfl⟩ (.inl hleft)
  rw [if_neg hleft]
  by_cases hright : 132 * frameW < 100 * (2 * d.bbox.x + d.bbox.w)
  · rw [if_pos hright]
    refine iff_of_false (fun h => ?_) (by omega)
    have hword := h.2
    split at hword
    · exact hlr hword
    · exact hmr hword
  · rw [if_neg hright]
    by_cases hcode : 100 * (d.bbox.x + d.bbox.w) < 68 * frameW
    · rw [if_pos hcode]
      exact iff_of_false (fun h => hlm h.2) (by omega)
    · rw [if_neg hcode]
      exact iff_of_true ⟨hbox.trans_lt hw, rfl⟩ (.inr (by omega))

/-- A person near the left edge of a frame of 640 pixels. -/
theorem positionSuffix_leftPerson :
    positionSuffix .wrapping { label := "person", confidence := 9 / 10, bbox := ⟨0, 0, 100, 100⟩ } 640 =
        some left ∧
      bucket ⟨0, 0, 100, 100⟩ 640 = left := by
  have hagrees := (positionSuffix_eq_bucket_iff .wrapping
    { label := "person", confidence := 9 / 10, bbox := ⟨0, 0, 100, 100⟩ } (by decide : 0 < 640) (by decide)
    (by decide)).2 (.inl (by decide))
  have hleft : bucket ⟨0, 0, 100, 100⟩ 640 = left := (bucket_eq (by decide)).trans (by decide)
  exact ⟨hleft ▸ hagrees.2, hleft⟩

/-- A chair at the right edge, which is said to stand in the middle. -/
theorem positionSuffix_rightChair :
    let d : Detection := { label := "chair", confidence := 9 / 10, bbox := ⟨500, 0, 100, 100⟩ }
    positionSuffix .wrapping d 640 = some middle ∧ bucket d.bbox 640 = right ∧
      positionSuffix .wrapping d 640 ≠ some (bucket d.bbox 640) := by
  intro d
  have hmiddle : positionSuffix .wrapping d 640 = some middle :=
    (positionSuffix_eq .wrapping (by decide) (by decide) (by decide)).trans (by decide)
  have hright : bucket d.bbox 640 = right := (bucket_eq (by decide)).trans (by decide)
  refine ⟨hmiddle, hright, ?_⟩
  rw [hmiddle, hright]
  decide

end PositionWords

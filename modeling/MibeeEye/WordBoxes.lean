/-
**The text regions of a probability map.**

The detector of `crates/streaming/src/ocr/det.rs` gives the probability of text for each pixel.
`components_to_boxes` goes through the pixels row by row, follows each one that is likely enough to the
eight around it and on, and keeps the rectangle around what it has found if that is large enough to be a
line of text.

A pixel starts a region unless its probability is less than the threshold, and continues one if it is at
least the threshold.  For every probability but NaN the two are the same.

Main definitions:

* `Ocr.neighbours`, `Ocr.Extent.add`, `Ocr.componentsToBoxes` — the code;
* `Ocr.Connected`, `Ocr.Encloses` — regions of touching pixels and the rectangle around one.

Main results:

* `Ocr.mem_neighbours` — the neighbours of a pixel are those that touch it;
* `Ocr.encloses_iff` — what the loop over a region makes of it;
* `Ocr.componentsToBoxes_regions` — **one box for each region that is large enough, in reading order,
  and no other box**.
-/

import MibeeEye.VertexSearch
import MibeeEye.RowMajor
import Mathlib.Data.Set.Card
import Mathlib.Order.Bounds.Basic
import Mathlib.Algebra.Order.Ring.Int

set_option relaxedAutoImplicit false
set_option autoImplicit false

namespace Ocr

/-! ### The code -/

/-- The comparisons `<` and `>=` of the probabilities. -/
structure Comparison (F : Type) where
  lt : F → F → Bool
  ge : F → F → Bool

/-- A box of the map: its corner and its size. -/
structure TextBox where
  x : ℕ
  y : ℕ
  w : ℕ
  h : ℕ
  deriving DecidableEq, Repr

/-- The 8-neighborhood. -/
def offsets : List (ℤ × ℤ) :=
  [(-1, -1), (0, -1), (1, -1), (-1, 0), (1, 0), (-1, 1), (0, 1), (1, 1)]

/-- The index one offset away, inside of the map. -/
def neighbour (w h idx : ℕ) (d : ℤ × ℤ) : Option ℕ :=
  let nx := ((idx % w : ℕ) : ℤ) + d.1
  let ny := ((idx / w : ℕ) : ℤ) + d.2
  if nx < 0 ∨ ny < 0 ∨ nx ≥ w ∨ ny ≥ h then none else some (ny.toNat * w + nx.toNat)

variable {F : Type} (P : Comparison F) (prob : List F) (w h : ℕ) (threshold : F)

/-- The indices that a region goes on to from one of its own. -/
def neighbours (idx : ℕ) : List ℕ :=
  (offsets.filterMap (neighbour w h idx)).filter fun j => (prob[j]?).any (P.ge · threshold)

/-- What the loop over a region keeps of it. -/
structure Extent where
  minX : ℕ
  minY : ℕ
  maxX : ℕ
  maxY : ℕ
  area : ℕ
  deriving DecidableEq, Repr

/-- Ahead of the loop; the least ones begin at `u32::MAX`. -/
def Extent.empty : Extent := ⟨2 ^ 32 - 1, 2 ^ 32 - 1, 0, 0, 0⟩

/-- A pixel is taken up. -/
def Extent.add (e : Extent) (idx : ℕ) : Extent where
  minX := min e.minX (idx % w)
  minY := min e.minY (idx / w)
  maxX := max e.maxX (idx % w)
  maxY := max e.maxY (idx / w)
  area := e.area + 1

/-- Text lines are wider than tall and not specks. -/
def Extent.toBox (e : Extent) : Option TextBox :=
  let bw := e.maxX - e.minX + 1
  let bh := e.maxY - e.minY + 1
  if e.area ≥ 6 ∧ bw ≥ 4 ∧ bh ≥ 2 then some ⟨e.minX, e.minY, bw, bh⟩ else none

/-- `components_to_boxes`; a map with fewer values than pixels is indexed out of its range. -/
def componentsToBoxes : Option (List TextBox) :=
  if w * h ≤ prob.length then
    let starts := (List.range (w * h)).filter fun i => !(prob[i]?).any (P.lt · threshold)
    some ((Flood.components (neighbours P prob w h threshold) (w * h + 1) starts ∅).filterMap
      fun c => (c.foldl (Extent.add w) Extent.empty).toBox)
  else none

/-! ### Regions -/

/-- A pixel of the map that is at least as likely as the threshold. -/
def Inked (i : ℕ) : Prop := i < w * h ∧ ∃ p, prob[i]? = some p ∧ P.ge p threshold = true

/-- Two pixels touch: they are at most one column and one row apart. -/
def Touches (i j : ℕ) : Prop :=
  i ≠ j ∧ i % w ≤ j % w + 1 ∧ j % w ≤ i % w + 1 ∧ i / w ≤ j / w + 1 ∧ j / w ≤ i / w + 1

/-- There is a way from pixel to pixel, over pixels that are likely enough. -/
def Connected : ℕ → ℕ → Prop :=
  Relation.ReflTransGen fun i j => Touches w i j ∧ Inked P prob w h threshold j

/-- The pixels that a pixel is connected with. -/
def region (i : ℕ) : Set ℕ := { j | Connected P prob w h threshold i j }

/-- The box is the least one around the pixels, which are enough for a line of text. -/
structure Encloses (K : Set ℕ) (box : TextBox) : Prop where
  left : IsLeast ((· % w) '' K) box.x
  top : IsLeast ((· / w) '' K) box.y
  right : IsGreatest ((· % w) '' K) (box.x + box.w - 1)
  bottom : IsGreatest ((· / w) '' K) (box.y + box.h - 1)
  area : 6 ≤ K.ncard
  wide : 4 ≤ box.w
  tall : 2 ≤ box.h

/-! ### Neighbours -/

variable {P prob w h threshold} {i j : ℕ}

theorem neighbour_eq_some_iff (d : ℤ × ℤ) :
    neighbour w h i d = some j ↔
      j < w * h ∧ ((j % w : ℕ) : ℤ) = (i % w : ℕ) + d.1 ∧ ((j / w : ℕ) : ℤ) = (i / w : ℕ) + d.2 := by
  rw [neighbour]
  split
  · rename_i hout
    simp only [reduceCtorEq, false_iff]
    rintro ⟨hj, hx, hy⟩
    have hw : 0 < w := Nat.pos_of_ne_zero fun h0 => by simp [h0] at hj
    have hjx := Nat.mod_lt j hw
    have hjy := Nat.div_lt_of_lt_mul hj
    generalize j % w = jx at hx hjx
    generalize j / w = jy at hy hjy
    omega
  · rename_i hin
    simp only [not_or, not_lt, not_le] at hin
    obtain ⟨hx, hy, hxw, hyh⟩ := hin
    obtain ⟨x, hx⟩ := Int.eq_ofNat_of_zero_le hx
    obtain ⟨y, hy⟩ := Int.eq_ofNat_of_zero_le hy
    rw [hx] at hxw ⊢
    rw [hy] at hyh ⊢
    have hxw : x < w := by exact_mod_cast hxw
    have hyh : y < h := by exact_mod_cast hyh
    rw [Int.toNat_natCast, Int.toNat_natCast, Option.some.injEq]
    constructor
    · rintro rfl
      refine ⟨?_, ?_, ?_⟩
      · rw [Nat.mul_comm w h]
        exact RowMajor.place_lt hyh hxw
      · rw [Nat.mul_add_mod_self_right, Nat.mod_eq_of_lt hxw]
      · rw [Nat.add_comm, Nat.add_mul_div_right _ _ (Nat.zero_lt_of_lt hxw), Nat.div_eq_of_lt hxw, Nat.zero_add]
    · rintro ⟨-, hjx, hjy⟩
      have hjx : j % w = x := by exact_mod_cast hjx
      have hjy : j / w = y := by exact_mod_cast hjy
      rw [← hjx, ← hjy, Nat.div_add_mod']

/-- The offsets are those of one step or none in each direction, but for no step at all. -/
theorem mem_offsets {d : ℤ × ℤ} :
    d ∈ offsets ↔ (d.1 ≠ 0 ∨ d.2 ≠ 0) ∧ -1 ≤ d.1 ∧ d.1 ≤ 1 ∧ -1 ≤ d.2 ∧ d.2 ≤ 1 := by
  obtain ⟨x, y⟩ := d
  simp only [offsets, List.mem_cons, Prod.mk.injEq, List.not_mem_nil, or_false]
  omega

/-- A pixel is told by its column and its row. -/
theorem eq_of_place (hx : i % w = j % w) (hy : i / w = j / w) : i = j := by
  rw [← Nat.div_add_mod' i w, ← Nat.div_add_mod' j w, hx, hy]

/-- The neighbours of a pixel are those that touch it and are likely enough. -/
theorem mem_neighbours :
    j ∈ neighbours P prob w h threshold i ↔ Touches w i j ∧ Inked P prob w h threshold j := by
  have hbase : j ∈ offsets.filterMap (neighbour w h i) ↔ Touches w i j ∧ j < w * h := by
    rw [List.mem_filterMap]
    constructor
    · rintro ⟨d, hd, hj⟩
      obtain ⟨hlt, hx, hy⟩ := (neighbour_eq_some_iff d).1 hj
      rw [mem_offsets] at hd
      refine ⟨⟨?_, by omega, by omega, by omega, by omega⟩, hlt⟩
      rintro rfl
      omega
    · rintro ⟨⟨hne, hx, hx', hy, hy'⟩, hlt⟩
      refine ⟨(((j % w : ℕ) : ℤ) - (i % w : ℕ), ((j / w : ℕ) : ℤ) - (i / w : ℕ)), ?_, ?_⟩
      · have hplace : i % w ≠ j % w ∨ i / w ≠ j / w := by
          by_contra hsame
          rw [not_or, not_not, not_not] at hsame
          exact hne (eq_of_place hsame.1 hsame.2)
        rw [mem_offsets]
        omega
      · rw [neighbour_eq_some_iff]
        exact ⟨hlt, by ring, by ring⟩
  rw [neighbours, List.mem_filter, hbase, Option.any_eq_true, Inked]
  tauto

/-! ### The rectangle around a region -/

/-- The least of a value and those of a list. -/
theorem isLeast_foldl_min {α β : Type} [LinearOrder β] (f : α → β) (c : List α) (m : β) :
    IsLeast (insert m (f '' { a | a ∈ c })) (c.foldl (fun m a => min m (f a)) m) := by
  induction c generalizing m with
  | nil => simp
  | cons a c ih =>
      obtain ⟨hmem, hle⟩ := ih (min m (f a))
      rw [List.foldl_cons]
      have hhead := hle (Set.mem_insert _ _)
      constructor
      · rcases hmem with hmem | ⟨b, hb, hmem⟩
        · rw [hmem]
          rcases min_choice m (f a) with h | h
          · exact Or.inl h
          · exact Or.inr ⟨a, List.mem_cons_self, h.symm⟩
        · exact Or.inr ⟨b, List.mem_cons_of_mem a hb, hmem⟩
      · rintro _ (rfl | ⟨b, hb, rfl⟩)
        · exact hhead.trans (min_le_left _ _)
        · rcases List.mem_cons.1 hb with rfl | hb
          · exact hhead.trans (min_le_right _ _)
          · exact hle (Or.inr ⟨b, hb, rfl⟩)

/-- The loop over a region, by what it keeps. -/
theorem foldl_add (c : List ℕ) (e : Extent) :
    c.foldl (Extent.add w) e =
      ⟨c.foldl (fun m i => min m (i % w)) e.minX, c.foldl (fun m i => min m (i / w)) e.minY,
        c.foldl (fun m i => max m (i % w)) e.maxX, c.foldl (fun m i => max m (i / w)) e.maxY,
        e.area + c.length⟩ := by
  induction c generalizing e with
  | nil => rfl
  | cons i c ih =>
      rw [List.foldl_cons, ih]
      simp only [Extent.add, List.foldl_cons, List.length_cons, Extent.mk.injEq, true_and]
      omega

/-- The least value in a list that is not empty, of values that are not above where the loop begins. -/
theorem isLeast_of_le {f : ℕ → ℕ} {c : List ℕ} {m : ℕ} (hne : c ≠ []) (hle : ∀ i ∈ c, f i ≤ m) :
    IsLeast (f '' { i | i ∈ c }) (c.foldl (fun m i => min m (f i)) m) := by
  obtain ⟨hmem, hlower⟩ := isLeast_foldl_min f c m
  obtain ⟨i, hi⟩ := List.exists_mem_of_ne_nil c hne
  refine ⟨?_, fun b hb => hlower (Or.inr hb)⟩
  rcases hmem with hmem | hmem
  · refine ⟨i, hi, le_antisymm ?_ (hlower (Or.inr ⟨i, hi, rfl⟩))⟩
    rw [hmem]
    exact hle i hi
  · exact hmem

/-- The greatest value in a list that is not empty. -/
theorem isGreatest_of_ne_nil {f : ℕ → ℕ} {c : List ℕ} (hne : c ≠ []) :
    IsGreatest (f '' { i | i ∈ c }) (c.foldl (fun m i => max m (f i)) 0) := by
  have hdual : IsGreatest (insert 0 (f '' { i | i ∈ c })) (c.foldl (fun m i => max m (f i)) 0) :=
    @isLeast_foldl_min ℕ ℕᵒᵈ _ f c 0
  obtain ⟨i, hi⟩ := List.exists_mem_of_ne_nil c hne
  refine ⟨?_, fun b hb => hdual.2 (Or.inr hb)⟩
  rcases hdual.1 with hzero | hmem
  · refine ⟨i, hi, le_antisymm (hdual.2 (Or.inr ⟨i, hi, rfl⟩)) ?_⟩
    rw [hzero]
    exact Nat.zero_le (f i)
  · exact hmem

/-- **What the loop over a region makes of it** is the box around it, if it is large enough. -/
theorem encloses_iff {K : Set ℕ} {c : List ℕ} {box : TextBox} (hne : c ≠ []) (hnodup : c.Nodup)
    (hmem : ∀ j, j ∈ c ↔ j ∈ K) (hfits : ∀ i ∈ c, i < 2 ^ 32) :
    (c.foldl (Extent.add w) Extent.empty).toBox = some box ↔ Encloses w K box := by
  have hK : { i | i ∈ c } = K := Set.ext hmem
  have hcard : K.ncard = c.length := by
    rw [← List.toFinset_card_of_nodup hnodup, ← Set.ncard_coe_finset]
    exact congrArg Set.ncard (Set.ext fun j => by simp [hmem])
  have hleft := isLeast_of_le (f := (· % w)) (m := 2 ^ 32 - 1) hne fun i hi =>
    (Nat.mod_le i w).trans (Nat.le_sub_one_of_lt (hfits i hi))
  have htop := isLeast_of_le (f := (· / w)) (m := 2 ^ 32 - 1) hne fun i hi =>
    (Nat.div_le_self i w).trans (Nat.le_sub_one_of_lt (hfits i hi))
  have hright := isGreatest_of_ne_nil (f := (· % w)) hne
  have hbottom := isGreatest_of_ne_nil (f := (· / w)) hne
  have hlr := hright.2 hleft.1
  have htb := hbottom.2 htop.1
  rw [hK] at hleft htop hright hbottom
  rw [foldl_add, Extent.toBox]
  simp only [Extent.empty, Nat.zero_add, Option.ite_none_right_eq_some, Option.some.injEq]
  constructor
  · rintro ⟨⟨harea, hwide, htall⟩, rfl⟩
    refine ⟨hleft, htop, ?_, ?_, hcard ▸ harea, hwide, htall⟩
    · rwa [Nat.add_sub_assoc (Nat.le_add_left 1 _), Nat.add_sub_cancel, Nat.add_sub_cancel' hlr]
    · rwa [Nat.add_sub_assoc (Nat.le_add_left 1 _), Nat.add_sub_cancel, Nat.add_sub_cancel' htb]
  · intro hbox
    have hx := hleft.unique hbox.left
    have hy := htop.unique hbox.top
    have hr := hright.unique hbox.right
    have hb := hbottom.unique hbox.bottom
    have harea := hbox.area
    have hwide := hbox.wide
    have htall := hbox.tall
    obtain ⟨x, y, bw, bh⟩ := box
    simp only [TextBox.mk.injEq] at *
    rw [hx, hy, hr, hb]
    omega

/-! ### All regions -/

theorem Touches.symm (ht : Touches w i j) : Touches w j i :=
  ⟨ht.1.symm, ht.2.2.1, ht.2.1, ht.2.2.2.2, ht.2.2.2.1⟩

/-- The search goes the ways from pixel to pixel. -/
theorem reaches_iff : Flood.Reaches (neighbours P prob w h threshold) i j ↔
    Connected P prob w h threshold i j := by
  rw [Flood.Reaches, Connected]
  simp only [mem_neighbours]

theorem symmetricOn_neighbours :
    Flood.SymmetricOn (neighbours P prob w h threshold) { i | Inked P prob w h threshold i } := by
  intro i hi j hj
  rw [mem_neighbours] at hj ⊢
  exact ⟨hj.2, hj.1.symm, hi⟩

/-- What a pixel of the map is connected with is in the map. -/
theorem lt_of_connected (hij : Connected P prob w h threshold i j) (hi : i < w * h) : j < w * h := by
  rcases Relation.ReflTransGen.cases_tail hij with rfl | ⟨k, -, -, hj⟩
  · exact hi
  · exact hj.1

/-- What is kept of related lists when a function gives what is related, or nothing. -/
theorem forall₂_filterMap {α β γ : Type} {R : α → β → Prop} {S : α → γ → Prop} {f : β → Option γ}
    [DecidablePred fun a => ∃ c, S a c] {l : List α} {m : List β} (hl : List.Forall₂ R l m)
    (hf : ∀ a ∈ l, ∀ b, R a b → ∀ c, f b = some c ↔ S a c) :
    List.Forall₂ S (l.filter fun a => ∃ c, S a c) (m.filterMap f) := by
  induction hl with
  | nil => simp
  | @cons a b l m hab _ ih =>
      have hrest := ih fun a ha => hf a (List.mem_cons_of_mem _ ha)
      have hhead := hf a List.mem_cons_self b hab
      cases hb : f b with
      | none =>
          rw [List.filterMap_cons_none hb, List.filter_cons_of_neg]
          · exact hrest
          · simp [← hhead, hb]
      | some c =>
          rw [List.filterMap_cons_some hb, List.filter_cons_of_pos]
          · exact List.Forall₂.cons ((hhead c).1 hb) hrest
          · exact decide_eq_true ⟨c, (hhead c).1 hb⟩

/-- The first pixel of its region, row by row. -/
def Leads (P : Comparison F) (prob : List F) (w h : ℕ) (threshold : F) (i : ℕ) : Prop :=
  Inked P prob w h threshold i ∧
    ∀ j < i, Inked P prob w h threshold j → ¬ Connected P prob w h threshold j i

open Classical in
/-- **One box for each region that is large enough, in reading order, and no other box.** -/
theorem componentsToBoxes_regions
    (hnan : ∀ p ∈ prob, P.ge p threshold = !P.lt p threshold)
    (hsize : w * h < 2 ^ 32) (hlen : w * h ≤ prob.length) :
    ∃ boxes, componentsToBoxes P prob w h threshold = some boxes ∧
      List.Forall₂ (fun i box => Encloses w (region P prob w h threshold i) box)
        ((List.range (w * h)).filter fun i => Leads P prob w h threshold i ∧
          ∃ box, Encloses w (region P prob w h threshold i) box) boxes := by
  refine ⟨_, if_pos hlen, ?_⟩
  have hstart : ∀ i ∈ List.range (w * h),
      (!(prob[i]?).any (P.lt · threshold)) = true ↔ Inked P prob w h threshold i := by
    intro i hi
    have hi : i < w * h := List.mem_range.1 hi
    have hlt : i < prob.length := hi.trans_le hlen
    simp [Inked, hi, hlt, hnan _ (List.getElem_mem hlt)]
  have hsorted : ((List.range (w * h)).filter fun i =>
      !(prob[i]?).any (P.lt · threshold)).Pairwise (· < ·) := List.pairwise_lt_range.filter _
  have hempty : Flood.Closed (neighbours P prob w h threshold) ∅ :=
    fun i hi => absurd hi (Finset.notMem_empty i)
  have hparts := Flood.forall₂_components (n := w * h + 1) (U := Finset.range (w * h))
    symmetricOn_neighbours
    (fun i j hj => Finset.mem_range.2 (mem_neighbours.1 hj).2.1)
    (by simp)
    (fun i hi => (hstart i (List.mem_filter.1 hi).1).1 (List.mem_filter.1 hi).2)
    hsorted hempty
  have hbox : ∀ i < w * h, ∀ c, Flood.IsPart (neighbours P prob w h threshold) i c → ∀ box,
      (c.foldl (Extent.add w) Extent.empty).toBox = some box ↔
        Encloses w (region P prob w h threshold i) box := by
    intro i hi c hc box
    have hmem : ∀ j, j ∈ c ↔ j ∈ region P prob w h threshold i :=
      fun j => (hc.mem_iff j).trans reaches_iff
    have hself : i ∈ c := (hmem i).2 Relation.ReflTransGen.refl
    exact encloses_iff (List.ne_nil_of_mem hself) hc.nodup hmem fun j hj =>
      (lt_of_connected ((hmem j).1 hj) hi).trans hsize
  have hall := forall₂_filterMap hparts fun i hi => hbox i
    (List.mem_range.1 (List.mem_filter.1 (List.mem_filter.1 hi).1).1)
  rw [List.filter_filter, List.filter_filter] at hall
  refine (congrArg (fun l => List.Forall₂ _ l _) (List.filter_congr fun i hi => ?_)).mp hall
  rw [Bool.eq_iff_iff, @decide_eq_true_eq (_ ∧ _)]
  simp only [Bool.and_eq_true, decide_eq_true_eq, hstart i hi, Finset.notMem_empty,
    not_false_eq_true, true_and, List.mem_filter, Leads, reaches_iff]
  constructor
  · rintro ⟨⟨hbox, hlead⟩, hink⟩
    refine ⟨⟨hink, fun j hj hjink => hlead j ⟨?_, ?_⟩ hj⟩, hbox⟩
    · exact List.mem_range.2 hjink.1
    · exact (hstart j (List.mem_range.2 hjink.1)).2 hjink
  · rintro ⟨⟨hink, hlead⟩, hbox⟩
    exact ⟨⟨hbox, fun j hj hlt => hlead j hlt ((hstart j hj.1).1 hj.2)⟩, hink⟩

/-- Probabilities that are natural numbers. -/
def natComparison : Comparison ℕ where
  lt a b := decide (a < b)
  ge a b := decide (b ≤ a)

/-- A line of four pixels by two, next to a speck. -/
def lineAndSpeck : List ℕ :=
  [9, 9, 9, 9, 0, 0,
   9, 9, 9, 9, 0, 9]

open Classical in
theorem regions_lineAndSpeck :
    componentsToBoxes natComparison lineAndSpeck 6 2 5 = some [⟨0, 0, 4, 2⟩] ∧
    ∃ boxes, componentsToBoxes natComparison lineAndSpeck 6 2 5 = some boxes ∧
      List.Forall₂ (fun i box => Encloses 6 (region natComparison lineAndSpeck 6 2 5 i) box)
        ((List.range (6 * 2)).filter fun i => Leads natComparison lineAndSpeck 6 2 5 i ∧
          ∃ box, Encloses 6 (region natComparison lineAndSpeck 6 2 5 i) box) boxes :=
  ⟨by decide, componentsToBoxes_regions (by decide) (by decide) (by decide)⟩

end Ocr

/-
**Paths that spell labels.**

A recogniser names a class for each step of its input, and one class is the blank.  A path spells some
labels when it is made of a run of one or more steps for each label, with any number of blanks ahead of
each run and behind the last one; two runs that meet without a blank are of different labels.

The labels are found by going through the path once: a step counts unless it is a blank or repeats the
class of the step before it.

Main definitions:

* `Ctc.Spells` — the path spells the labels;
* `Ctc.collapse` — the steps that count.

Main results:

* `Ctc.collapse_eq_iff` — **the steps that count are the labels that the path spells**;
* `Ctc.Spells.unique` — a path spells one list of labels.
-/

import Mathlib.Data.List.Basic

set_option relaxedAutoImplicit false
set_option autoImplicit false

namespace Ctc

variable {α β : Type} (blank : α)

/-- The path spells the labels. -/
inductive Spells : List α → List α → Prop
  | blanks (k : ℕ) : Spells (List.replicate k blank) []
  | label {a : α} {path labels : List α} (k m : ℕ) (ha : a ≠ blank) (hnext : path.head? ≠ some a)
      (h : Spells path labels) :
      Spells (List.replicate k blank ++ (List.replicate (m + 1) a ++ path)) (a :: labels)

/-- The steps that count, behind a step of the class `last`. -/
@[grind =] def collapse [DecidableEq α] (cls : β → α) : α → List β → List β
  | _, [] => []
  | last, b :: steps =>
      if cls b ≠ blank ∧ cls b ≠ last then b :: collapse cls (cls b) steps
      else collapse cls (cls b) steps

variable {blank}

section Spells

variable {a : α} {path labels : List α}

/-- One blank more in front. -/
theorem Spells.cons_blank (h : Spells blank path labels) : Spells blank (blank :: path) labels := by
  cases h with
  | blanks k => exact Spells.blanks (k + 1)
  | label k m ha hnext h => exact Spells.label (k + 1) m ha hnext h

/-- The first step once more. -/
theorem Spells.cons_cons (ha : a ≠ blank) (h : Spells blank (a :: path) labels) :
    Spells blank (a :: a :: path) labels := by
  generalize hp : a :: path = p at h
  cases h with
  | blanks k =>
      cases k with
      | zero => cases hp
      | succ k =>
          rw [List.replicate_succ, List.cons.injEq] at hp
          exact absurd hp.1 ha
  | @label b rest labels k m hb hnext h =>
      cases k with
      | zero =>
          rw [List.replicate_zero, List.nil_append, List.replicate_succ, List.cons_append,
            List.cons.injEq] at hp
          obtain ⟨rfl, rfl⟩ := hp
          exact Spells.label 0 (m + 1) hb hnext h
      | succ k =>
          rw [List.replicate_succ, List.cons_append, List.cons.injEq] at hp
          exact absurd hp.1 ha

end Spells

section Collapse

variable [DecidableEq α] {cls : β → α} {last : α} {steps : List β} {path labels : List α}

/-- The steps that count spell what the path spells. -/
theorem spells_collapse (hlast : (steps.map cls).head? ≠ some last ∨ last = blank) :
    Spells blank (steps.map cls) ((collapse blank cls last steps).map cls) := by
  induction steps generalizing last with
  | nil => exact Spells.blanks 0
  | cons b steps ih =>
      rw [List.map_cons, collapse]
      by_cases hb : cls b = blank
      · rw [if_neg (by simp [hb]), hb]
        exact (ih (Or.inr rfl)).cons_blank
      · have hne : cls b ≠ last := by
          rintro rfl
          rcases hlast with h | h
          · exact h rfl
          · exact hb h
        rw [if_pos ⟨hb, hne⟩, List.map_cons]
        by_cases hrun : (steps.map cls).head? = some (cls b)
        · cases steps with
          | nil => simp at hrun
          | cons c steps =>
              have hc : cls c = cls b := by simpa using hrun
              have hrest : Spells blank ((c :: steps).map cls)
                  ((collapse blank cls blank (c :: steps)).map cls) := ih (Or.inr rfl)
              rw [List.map_cons, collapse, if_pos (by rw [hc]; exact ⟨hb, hb⟩), List.map_cons,
                hc] at hrest
              rw [List.map_cons, collapse, if_neg (by simp [hc]), hc]
              exact hrest.cons_cons hb
        · exact Spells.label 0 0 hb hrun (ih (Or.inl hrun))

theorem collapse_replicate (a : α) (m : ℕ) (path : List α) :
    collapse blank id a (List.replicate m a ++ path) = collapse blank id a path := by
  induction m with
  | zero => rfl
  | succ m ih =>
      rw [List.replicate_succ, List.cons_append, collapse, if_neg (by simp)]
      exact ih

theorem collapse_blanks (last : α) (k : ℕ) (path : List α) :
    collapse blank id last (List.replicate k blank ++ path) =
      collapse blank id (if k = 0 then last else blank) path := by
  cases k with
  | zero => rfl
  | succ k =>
      rw [List.replicate_succ, List.cons_append, collapse, if_neg (by simp), if_neg (Nat.succ_ne_zero k)]
      exact collapse_replicate blank k path

/-- The labels that a path spells are the steps that count. -/
theorem Spells.collapse (h : Spells blank path labels)
    (hlast : path.head? ≠ some last ∨ last = blank) : collapse blank id last path = labels := by
  induction h generalizing last with
  | blanks k =>
      rw [← List.append_nil (List.replicate k blank), collapse_blanks]
      rfl
  | @label a path labels k m ha hnext h ih =>
      have hne : a ≠ if k = 0 then last else blank := by
        cases k with
        | zero =>
            rcases hlast with h | rfl
            · rintro rfl
              exact h rfl
            · exact ha
        | succ k => exact ha
      rw [collapse_blanks, List.replicate_succ, List.cons_append, Ctc.collapse, if_pos ⟨ha, hne⟩,
        id_eq, collapse_replicate, ih (Or.inl hnext)]

/-- **The steps that count are the labels that the path spells.** -/
theorem collapse_eq_iff : Ctc.collapse blank id blank path = labels ↔ Spells blank path labels := by
  constructor
  · rintro rfl
    have h : Spells blank (path.map id) ((Ctc.collapse blank id blank path).map id) :=
      spells_collapse (Or.inr rfl)
    rwa [List.map_id, List.map_id] at h
  · exact fun h => h.collapse (Or.inr rfl)

/-- A path spells one list of labels. -/
theorem Spells.unique {labels' : List α} (h : Spells blank path labels)
    (h' : Spells blank path labels') : labels = labels' :=
  (h.collapse (Or.inr rfl)).symm.trans (h'.collapse (Or.inr rfl))

end Collapse

end Ctc

/-
**Assignments into a buffer.**

A loop that fills a buffer by index makes one assignment after the other, and stops at the first index
that is out of range, of the buffer or of what it reads.  What such a loop leaves can be said without
its order: every index that is assigned one value has it, and the others are as they were.

Main definitions:

* `Scatter.scatter` — the assignments of a loop, one after the other.

Main results:

* `Scatter.scatter_isSome` — a loop runs through exactly when all of its indices are in range;
* `Scatter.mem_of_scatter` — **what a buffer holds was assigned, or was there**;
* `Scatter.scatter_of_mem` — an index that is assigned one value has it;
* `Scatter.foldlM_scatter` — a loop of loops is one loop.
-/

import Mathlib.Data.List.Basic

set_option relaxedAutoImplicit false
set_option autoImplicit false

namespace Scatter

universe u

variable {α : Type u}

/-- One assignment after the other, of what was read; an index that is out of range stops. -/
@[grind =] def scatter (buf : List α) : List (ℕ × Option α) → Option (List α)
  | [] => some buf
  | (i, value) :: ws =>
      value.bind fun a => if i < buf.length then scatter (buf.set i a) ws else none

variable {buf out : List α} {ws vs : List (ℕ × Option α)} {i : ℕ} {a : α} {value : Option α}

@[simp] theorem scatter_nil (buf : List α) : scatter buf [] = some buf := rfl

theorem scatter_cons (h : scatter buf ((i, value) :: ws) = some out) :
    ∃ a, value = some a ∧ i < buf.length ∧ scatter (buf.set i a) ws = some out := by
  rw [scatter] at h
  obtain ⟨a, ha, h⟩ := Option.bind_eq_some_iff.1 h
  obtain ⟨hi, h⟩ := Option.ite_none_right_eq_some.1 h
  exact ⟨a, ha, hi, h⟩

theorem length_scatter (h : scatter buf ws = some out) : out.length = buf.length := by
  induction ws generalizing buf with
  | nil => rw [← Option.some.inj h]
  | cons w ws ih =>
      obtain ⟨a, -, -, h⟩ := scatter_cons h
      rw [ih h, List.length_set]

/-- A loop runs through exactly when all of its indices are in range. -/
theorem scatter_isSome :
    (scatter buf ws).isSome ↔ ∀ w ∈ ws, w.1 < buf.length ∧ w.2.isSome := by
  induction ws generalizing buf with
  | nil => simp
  | cons w ws ih =>
      obtain ⟨i, value⟩ := w
      rw [List.forall_mem_cons, scatter]
      cases value with
      | none => simp
      | some a =>
          by_cases hi : i < buf.length
          · rw [Option.bind_some, if_pos hi, ih, List.length_set]
            simp [hi]
          · rw [Option.bind_some, if_neg hi]
            simp [hi]

/-- **What a buffer holds was assigned, or was there.** -/
theorem mem_of_scatter (h : scatter buf ws = some out) (ha : out[i]? = some a) :
    (i, some a) ∈ ws ∨ i ∉ ws.map Prod.fst ∧ buf[i]? = some a := by
  induction ws generalizing buf with
  | nil =>
      rw [← Option.some.inj h] at ha
      exact Or.inr ⟨List.not_mem_nil, ha⟩
  | cons w ws ih =>
      obtain ⟨j, value⟩ := w
      obtain ⟨b, rfl, hj, h⟩ := scatter_cons h
      rcases ih h with hmem | ⟨hnot, hset⟩
      · exact Or.inl (List.mem_cons_of_mem _ hmem)
      · by_cases hij : j = i
        · rw [hij, List.getElem?_set_self (hij ▸ hj)] at hset
          rw [hij, hset]
          exact Or.inl List.mem_cons_self
        · rw [List.getElem?_set_ne hij] at hset
          refine Or.inr ⟨?_, hset⟩
          rw [List.map_cons, List.mem_cons, not_or]
          exact ⟨Ne.symm hij, hnot⟩

/-- An index that is assigned one value has it. -/
theorem scatter_of_mem (h : scatter buf ws = some out) (hmem : (i, value) ∈ ws)
    (hone : ∀ v, (i, v) ∈ ws → v = value) : out[i]? = value := by
  have hrange := scatter_isSome.1 (Option.isSome_of_eq_some h) _ hmem
  have hi : i < out.length := by
    rw [length_scatter h]
    exact hrange.1
  have hget : out[i]? = some out[i] := List.getElem?_eq_getElem hi
  rcases mem_of_scatter h hget with hassigned | ⟨hnot, -⟩
  · rw [hget, hone _ hassigned]
  · exact absurd (List.mem_map_of_mem hmem) hnot

theorem scatter_append (buf : List α) (ws vs : List (ℕ × Option α)) :
    scatter buf (ws ++ vs) = (scatter buf ws).bind fun b => scatter b vs := by
  induction ws generalizing buf with
  | nil => rfl
  | cons w ws ih =>
      obtain ⟨i, value⟩ := w
      rw [List.cons_append, scatter, scatter]
      cases value with
      | none => rfl
      | some a =>
          rw [Option.bind_some, Option.bind_some]
          split
          · exact ih _
          · rfl

/-- **A loop of loops is one loop.** -/
theorem foldlM_scatter {β : Type u} {step : List α → β → Option (List α)}
    {g : β → List (ℕ × Option α)} {ks : List β}
    (hstep : ∀ k ∈ ks, ∀ b, step b k = scatter b (g k)) (buf : List α) :
    ks.foldlM step buf = scatter buf (ks.flatMap g) := by
  induction ks generalizing buf with
  | nil => rfl
  | cons k ks ih =>
      rw [List.foldlM_cons, List.flatMap_cons, scatter_append, hstep k List.mem_cons_self]
      congr 1
      funext b
      exact ih (fun l hl => hstep l (List.mem_cons_of_mem k hl)) b

end Scatter

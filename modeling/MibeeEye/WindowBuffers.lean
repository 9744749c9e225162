/-
**Buffers that keep the newest.**

A buffer between a writer and a reader holds a limited number of elements.  What does not fit pushes out the
oldest, and a reader takes from the oldest on.  Writers and readers act in any order.

Main definitions:

* `Window.Act`, `Window.step` — what is done to a buffer;
* `Window.written`, `Window.taken` — all that was written to it, and all that was read from it.

Main results:

* `Window.suffix_written` — **what is held is the end of all that was written**, within the limit;
* `Window.taken_sublist` — **what was read, and what is held, was written in that order**, and nothing is read
  twice;
* `Window.taken_append` — nothing is lost while what is written fits.
-/

import MibeeEye.Transducer

set_option relaxedAutoImplicit false
set_option autoImplicit false

namespace Window

open Transducer

variable {α : Type}

/-- What is done to a buffer. -/
inductive Act (α : Type) where
  | write (l : List α)
  | read (n : ℕ)

/-- A buffer of `cap` elements at most, and what is read from it. -/
@[grind =] def step (cap : ℕ) (held : List α) : Act α → List α × List α
  | .write l => ((held ++ l).drop ((held ++ l).length - cap), [])
  | .read n => (held.drop n, held.take n)

/-- What is written to a buffer. -/
@[grind =] def Act.written : Act α → List α
  | .write l => l
  | .read _ => []

/-- All that was written. -/
def written (acts : List (Act α)) : List α := acts.flatMap Act.written

/-- All that was read. -/
def taken (cap : ℕ) (acts : List (Act α)) : List α := (log (step cap) [] acts).flatMap Prod.snd

variable {cap : ℕ} {acts : List (Act α)} {act : Act α}

theorem written_concat : written (acts ++ [act]) = written acts ++ act.written := by
  simp [written]

theorem taken_concat :
    taken cap (acts ++ [act]) = taken cap acts ++ (step cap (after (step cap) [] acts) act).2 := by
  simp [taken, log_concat]

/-- **What is held is the end of all that was written**, within the limit. -/
theorem suffix_written (cap : ℕ) (acts : List (Act α)) :
    after (step cap) [] acts <:+ written acts ∧ (after (step cap) [] acts).length ≤ cap := by
  induction acts using List.reverseRecOn with
  | nil => exact ⟨List.suffix_rfl, Nat.zero_le cap⟩
  | append_singleton acts act ih =>
      obtain ⟨hsuffix, hlength⟩ := ih
      rw [after_concat, written_concat]
      cases act with
      | write l =>
          constructor
          · exact (List.drop_suffix _ _).trans (List.suffix_append_self_iff.2 hsuffix)
          · rw [step, List.length_drop]
            omega
      | read n =>
          constructor
          · rw [Act.written, List.append_nil]
            exact (List.drop_suffix _ _).trans hsuffix
          · rw [step, List.length_drop]
            omega

/-- **What was read, and what is held, was written in that order**, and nothing is read twice. -/
theorem taken_sublist (cap : ℕ) (acts : List (Act α)) :
    (taken cap acts ++ after (step cap) [] acts).Sublist (written acts) := by
  induction acts using List.reverseRecOn with
  | nil => exact List.Sublist.refl _
  | append_singleton acts act ih =>
      rw [taken_concat, after_concat, written_concat]
      cases act with
      | write l =>
          rw [step, List.append_nil]
          refine ((List.drop_sublist _ _).append_left _).trans ?_
          rw [← List.append_assoc]
          exact ih.append_right l
      | read n =>
          rw [step, List.append_assoc, List.take_append_drop, Act.written, List.append_nil]
          exact ih

/-- **Nothing is lost while what is written fits.** -/
theorem taken_append (h : ∀ before l, before ++ [.write l] <+: acts →
    (after (step cap) [] before).length + l.length ≤ cap) :
    taken cap acts ++ after (step cap) [] acts = written acts := by
  induction acts using List.reverseRecOn with
  | nil => rfl
  | append_singleton acts act ih =>
      have ih := ih fun before l hinitial => h before l (hinitial.trans (List.prefix_append acts [act]))
      rw [taken_concat, after_concat, written_concat]
      cases act with
      | write l =>
          have hfits := h acts l List.prefix_rfl
          rw [step, List.append_nil, List.length_append, Nat.sub_eq_zero_of_le hfits, List.drop_zero,
            ← List.append_assoc, ih]
          rfl
      | read n =>
          rw [step, List.append_assoc, List.take_append_drop, Act.written, List.append_nil, ih]

end Window
